import GitRemote.Proofs.Wire.Codec
import GitRemote.Proofs.Wire.Multiplex
import GitRemote.Push.StatusReport

/-!
# Reports in side bands

A report may be cut into packets of a side band anywhere, also inside a line or its length, and progress
may stand between them. Taken out of the packets it reads as it would without them, whether it is well
formed, malformed or not complete.
-/

namespace GitRemote

namespace Demux

/-- Where the packets of side bands end: at a flush packet, or with the stream. -/
def IsEnd (tail : Bytes) : Prop := (∃ rest, tail = flushPacket ++ rest) ∨ tail.length < 4

/-- A demultiplexer has this data still to give out, and nothing but the end behind it. -/
inductive Gives : Demux → Bytes → Prop
  | running {d : Demux} {data text tail : Bytes} (h : d.Pending data text tail)
      (hend : IsEnd tail) : Gives d data
  | ended {d : Demux} (hended : d.ended = true) (hbuffer : d.buffer = []) : Gives d []

variable {tail text : Bytes} {n : Nat}

/-- Nothing is read at the end. -/
theorem read_of_isEnd (hend : IsEnd tail) (n : Nat) (text : Bytes) :
    ∃ d, read n { rest := tail, progress := text } = (.ok [], d) ∧ d.Gives [] := by
  rcases hend with ⟨rest, rfl⟩ | hshort
  · refine ⟨{ rest, ended := true, progress := text }, ?_, .ended rfl rfl⟩
    rw [read, fill_flush]
    simp
  · have hnone : Packet.read tail = (.ok none, []) := Packet.read_of_short (Nat.not_le_of_lt hshort)
    have hfill : fill { rest := tail, progress := text } =
        (.ok (), { rest := [], ended := true, progress := text }) := by
      rw [fill, if_pos (by simp)]
      split
      · next h => rw [hnone] at h; cases h
      · next h =>
        rw [hnone] at h
        cases h
        rfl
      · next h => rw [hnone] at h; cases h
    refine ⟨{ rest := [], ended := true, progress := text }, ?_, .ended rfl rfl⟩
    rw [read, hfill]
    simp

/-- No more bytes are read than asked for. -/
theorem length_of_read {d d' : Demux} {piece : Bytes} (h : d.read n = (.ok piece, d')) :
    piece.length ≤ n := by
  rw [read] at h
  split at h
  · cases h
  · cases h
    exact List.length_take_le ..

/-- A demultiplexer stands for the data that it has to give out. -/
theorem conveys_gives : Conveys Gives where
  readSome_eq {n d data} hd hn := by
    cases hd with
    | @running _ text tail h hend =>
      rcases h.read hn with ⟨rfl, hread⟩ | ⟨piece, d', data', hread, hpiece, rfl, hpending⟩
      · obtain ⟨d', hlast, hgives⟩ := read_of_isEnd hend n text
        exact ⟨[], d', [], hread.trans hlast, rfl, hgives, Nat.zero_le n, fun _ => rfl⟩
      · exact ⟨piece, d', data', hread, rfl, .running hpending hend, length_of_read hread,
          fun h => absurd h hpiece⟩
    | ended hended hbuffer =>
      exact ⟨[], d, [], read_of_ended hended hbuffer n, rfl, .ended hended hbuffer, Nat.zero_le n,
        fun _ => rfl⟩

end Demux

namespace Conveys

variable {σ : Type} [ByteSource σ] {R : σ → Bytes → Prop} {s : σ} {b : Bytes}

/-- A source has at least the bytes left that it stands for. -/
theorem length_le [BoundedSource σ] (hR : Conveys R) (hs : R s b) :
    b.length ≤ ByteSource.bound s := by
  obtain ⟨r, s', b', h, h', -⟩ := hR.readExactly b.length hs
  rw [readExactly_bytes, if_pos (Nat.le_refl _)] at h'
  obtain ⟨rfl, -⟩ := Prod.mk.inj h'
  have hlen := length_readExactly h
  rw [List.take_length] at hlen
  omega

/-- Lines on refs are read from a source as from the bytes that it stands for. Each line takes bytes, so
it does not matter how much fuel there is as long as it exceeds their number. -/
theorem readRefReports (hR : Conveys R) {fuel fuel' : Nat} (hs : R s b) (hfuel : b.length < fuel)
    (hfuel' : b.length < fuel') (state : ReportState) :
    Alike R (GitRemote.readRefReports fuel state s) (GitRemote.readRefReports fuel' state b) := by
  induction fuel generalizing fuel' s b state with
  | zero => cases hfuel
  | succ fuel ih =>
    obtain ⟨fuel', rfl⟩ := Nat.exists_eq_add_of_lt hfuel'
    obtain ⟨r, s₁, b₁, h, h', hs₁⟩ := hR.readLine hs
    rw [GitRemote.readRefReports, GitRemote.readRefReports, h, h']
    rcases r with e | _ | line
    · exact ⟨_, s₁, b₁, rfl, rfl, hs₁⟩
    · exact ⟨_, s₁, b₁, rfl, rfl, hs₁⟩
    · have hlt := Packet.length_readLine_lt h'
      dsimp only
      cases ReportLine.parse? line with
      | none => exact ⟨_, s₁, b₁, rfl, rfl, hs₁⟩
      | some l => exact ih hs₁ (by omega) (by omega) (state.accept l)

/-- A report is read from a source as from the bytes that it stands for. -/
theorem readReport [BoundedSource σ] (hR : Conveys R) (hs : R s b) (refs : List Ref)
    (outcome : PushOutcome) :
    Alike R (GitRemote.readReport refs outcome s) (GitRemote.readReport refs outcome b) := by
  obtain ⟨r, s₁, b₁, h, h', hs₁⟩ := hR.readLine hs
  rw [GitRemote.readReport, GitRemote.readReport, h, h']
  rcases r with e | line?
  · exact ⟨_, s₁, b₁, rfl, rfl, hs₁⟩
  · dsimp only
    cases line?.bind (Text.after? (bytesOf "unpack ")) with
    | none => exact ⟨_, s₁, b₁, rfl, rfl, hs₁⟩
    | some detail =>
      exact hR.readRefReports hs₁ (Nat.lt_succ_of_le (hR.length_le hs₁)) (Nat.lt_succ_self _) _

end Conveys

/-- A report that was cut into packets of a side band, with progress between them and a flush packet or
the end of the stream behind them, is read as the report alone: with the same result, the same refs and
the same outcome. -/
theorem report_reads_alike_in_side_bands {ps : List Bytes} {report tail : Bytes}
    (hps : ∀ p ∈ ps, Banded p) (hreport : bandData 1 ps = report) (hend : Demux.IsEnd tail)
    (refs : List Ref) (outcome : PushOutcome) :
    (readReport refs outcome ({ rest := packets ps ++ tail } : Demux)).1 =
      (readReport refs outcome report).1 := by
  have hgives : Demux.Gives { rest := packets ps ++ tail } report :=
    .running (hreport ▸ Demux.Pending.start hps tail) hend
  obtain ⟨r, d, rest, hbanded, hplain, -⟩ := Demux.conveys_gives.readReport hgives refs outcome
  rw [hbanded, hplain]

/-- A branch that a report is expected on. -/
def awaitedBranch : Ref := { name := "a", oldId := .null, status := .expectingReport }

/-- A report on it that ends inside the length of a line. -/
def brokenOffReport : Bytes :=
  Packet.frame (bytesOf "unpack ok\n") ++ Packet.frame (bytesOf "ng a late\n") ++ bytesOf "00"

/-- Pieces of three bytes of the report, with progress behind each. -/
def brokenOffPayloads : List Bytes :=
  (pieces 3 brokenOffReport.length brokenOffReport).flatMap fun piece => [1 :: piece, 2 :: [0x2E]]

/-- Out of the pieces too, the report rejects the branch before it breaks off. -/
theorem report_reads_alike_in_side_bands_brokenOff :
    (∀ p ∈ brokenOffPayloads, Banded p) ∧ bandData 1 brokenOffPayloads = brokenOffReport ∧
    Demux.IsEnd [] ∧
    (readReport [awaitedBranch] {} ({ rest := packets brokenOffPayloads ++ [] } : Demux)).1 =
      (.error (.protocol .hungUp),
        { refs := [awaitedBranch.report ⟨false, "a", some "late"⟩], outcome := {}, hint := some 1 }) := by
  have hps : ∀ p ∈ brokenOffPayloads, Banded p := by decide +kernel
  have hreport : bandData 1 brokenOffPayloads = brokenOffReport := by decide +kernel
  have hend : Demux.IsEnd [] := .inr (by decide)
  refine ⟨hps, hreport, hend, ?_⟩
  rw [report_reads_alike_in_side_bands hps hreport hend]
  decide +kernel

end GitRemote
