import GitRemote.Proofs.Wire.Packets
import GitRemote.Wire.Advertisement

/-!
# Sources with more behind them

What was read to its end is read the same with more behind it, and this is left. It holds of packets and
lines in memory and in side bands, and of an advertisement, which ends at its flush packet.
-/

namespace GitRemote

/-- A change of a source that puts more behind it: what is read of the source is read of what it becomes
too, and then the change is still there. -/
structure Lengthens {σ : Type} [ByteSource σ] (grow : σ → σ) : Prop where
  readExactly_eq : ∀ {n : Nat} {s s' : σ} {b : Bytes}, readExactly n s = (.ok b, s') →
    readExactly n (grow s) = (.ok b, grow s')
  bound_le : ∀ s, ByteSource.bound s ≤ ByteSource.bound (grow s)

/-- Bytes at the end lengthen a source of bytes. -/
theorem lengthens_append (more : Bytes) : Lengthens (fun s : Bytes => s ++ more) where
  readExactly_eq {n s s' b} h := by
    rw [readExactly_bytes] at h ⊢
    by_cases hlong : n ≤ s.length
    · rw [if_pos hlong] at h
      cases h
      have hmore : n ≤ (s ++ more).length := by
        rw [List.length_append]
        omega
      rw [if_pos hmore, List.take_append_of_le_length hlong, List.drop_append_of_le_length hlong]
    · rw [if_neg hlong] at h
      cases h
  bound_le s := by
    show s.length ≤ (s ++ more).length
    simp

namespace Lengthens

variable {σ : Type} [ByteSource σ] {grow : σ → σ} {s s' : σ}

/-- A payload that was read is read from a longer source too. -/
theorem readPayload (hgrow : Lengthens grow) {n : Nat} {p : Packet}
    (h : Packet.readPayload n s = (.ok p, s')) : Packet.readPayload n (grow s) = (.ok p, grow s') := by
  rw [Packet.readPayload] at h ⊢
  split at h
  · next hread =>
    cases h
    rw [hgrow.readExactly_eq hread]
  all_goals cases h

/-- What follows a length is read from a longer source too. -/
theorem readBody (hgrow : Lengthens grow) {digits : Bytes} {p : Packet}
    (h : Packet.readBody digits s = (.ok p, s')) :
    Packet.readBody digits (grow s) = (.ok p, grow s') := by
  rw [Packet.readBody] at h ⊢
  split at h
  case h_6 =>
    split at h
    · cases h
    · next hlimit =>
      rw [if_neg hlimit]
      exact hgrow.readPayload h
  all_goals cases h
  all_goals rfl

/-- A packet that was read is read with more behind it too. -/
theorem read (hgrow : Lengthens grow) {p : Packet} (h : Packet.read s = (.ok (some p), s')) :
    Packet.read (grow s) = (.ok (some p), grow s') := by
  rw [Packet.read] at h ⊢
  split at h
  · cases h
  · cases h
  · next hdigits =>
    rw [hgrow.readExactly_eq hdigits]
    split at h
    · next hbody =>
      cases h
      simp only [hgrow.readBody hbody]
    · cases h

/-- A line that was read is read with more behind it too. -/
theorem readLine (hgrow : Lengthens grow) {line? : Option Bytes}
    (h : Packet.readLine s = (.ok line?, s')) :
    Packet.readLine (grow s) = (.ok line?, grow s') := by
  have hread : ∃ p, Packet.read s = (.ok (some p), s') := by
    rw [Packet.readLine, Packet.readDue] at h
    rcases hr : Packet.read s with ⟨_ | _ | payload | c, t⟩ <;> rw [hr] at h
    · cases h
    · cases h
    · cases h
      exact ⟨_, rfl⟩
    · cases c <;> cases h
      exact ⟨_, rfl⟩
  obtain ⟨payload | c, hp⟩ := hread <;> rw [Packet.readLine, Packet.readDue, hp] at h <;>
    rw [Packet.readLine, Packet.readDue, hgrow.read hp]
  · cases h
    rfl
  · cases c <;> cases h
    rfl

end Lengthens

namespace Demux

variable {d e : Demux} {n : Nat}

/-- A demultiplexer with more packets behind its own. -/
def grow (more : Bytes) (d : Demux) : Demux := { d with rest := d.rest ++ more }

/-- What comes behind a packet does not matter to how it is taken. -/
theorem accept_grow (more : Bytes) (d : Demux) (p : Packet) :
    (d.grow more).accept p = (d.accept p).map (grow more) := by
  rcases p with (_ | ⟨band, payload⟩) | c
  · rfl
  · rw [accept, accept]
    split
    · rfl
    · split
      · rfl
      · split <;> rfl
  · cases c <;> rfl

/-- Data that was found is found with more packets behind it too. -/
theorem fill_grow (more : Bytes) (h : d.fill = (.ok (), e)) (hdata : e.buffer ≠ []) :
    (d.grow more).fill = (.ok (), e.grow more) := by
  fun_induction fill d with
  | case1 => cases h
  | case2 d hempty rest hread =>
    cases h
    rw [Bool.and_eq_true, List.isEmpty_iff] at hempty
    exact absurd hempty.1 hdata
  | case3 => cases h
  | case4 d hempty p rest hread d' haccept ih =>
    have hmore : Packet.read (d.grow more).rest = (.ok (some p), rest ++ more) :=
      (lengthens_append more).read hread
    have haccept' : accept { d.grow more with rest := rest ++ more } p = .ok (d'.grow more) := by
      have hgrow := accept_grow more { d with rest } p
      rwa [haccept] at hgrow
    have hempty' : ((d.grow more).buffer.isEmpty && !(d.grow more).ended) = true := hempty
    rw [fill, if_pos hempty']
    split <;> rename_i hread' <;> rw [hmore] at hread' <;> cases hread'
    split <;> rename_i haccept'' <;> rw [haccept'] at haccept'' <;> cases haccept''
    exact ih h
  | case5 d hfull =>
    cases h
    rw [fill, if_neg]
    exact hfull

/-- A piece that was read is read with more packets behind it too. -/
theorem read_grow (more : Bytes) {piece : Bytes} (h : d.read n = (.ok piece, e)) (hne : piece ≠ []) :
    (d.grow more).read n = (.ok piece, e.grow more) := by
  rw [read] at h ⊢
  split at h
  · cases h
  · next d' hfill =>
    cases h
    have hdata : d'.buffer ≠ [] := fun hnil => hne (by rw [hnil, List.take_nil])
    rw [fill_grow more hfill hdata]
    rfl

/-- By induction over the pieces, what was read off the first band is read with more behind it too. -/
theorem readPieces_grow (more : Bytes) {fuel : Nat} {b : Bytes}
    (h : readPieces fuel n d = (.ok b, e)) :
    readPieces fuel n (d.grow more) = (.ok b, e.grow more) := by
  induction fuel generalizing n d b with
  | zero =>
    cases n with
    | zero =>
      cases h
      rfl
    | succ n => cases h
  | succ fuel ih =>
    cases n with
    | zero =>
      cases h
      rfl
    | succ n =>
      rw [readPieces] at h ⊢
      split at h
      · cases h
      · cases h
      · next piece d' hne hread =>
        have hmore : readSome (n + 1) (d.grow more) = (.ok piece, d'.grow more) :=
          read_grow more hread hne
        split at h
        · next hrest =>
          cases h
          simp only [hmore, ih hrest]
        · cases h

/-- More behind the packets lengthens what the bands carry. -/
theorem lengthens_grow (more : Bytes) : Lengthens (grow more) where
  readExactly_eq h := readPieces_grow more h
  bound_le d := by
    show d.buffer.length + d.rest.length ≤ d.buffer.length + (d.rest ++ more).length
    rw [List.length_append]
    omega

end Demux

namespace Advertisement

/-- Lines that were read up to a flush packet are read from longer data too. -/
theorem readLines_append_of_ok {s rest : Bytes} {lines : List Line}
    (h : readLines s = (.ok lines, rest)) (more : Bytes) :
    readLines (s ++ more) = (.ok lines, rest ++ more) := by
  fun_induction readLines s generalizing lines rest with
  | case1 => cases h
  | case2 s rest hread =>
    cases h
    have hmore := (lengthens_append more).readLine hread
    rw [readLines]
    split <;> rename_i hread' <;> rw [hmore] at hread' <;> cases hread'
    rfl
  | case3 => cases h
  | case4 => cases h
  | case5 s rest raw hread line hline lines rest' hlater ih =>
    cases h
    have hmore := (lengthens_append more).readLine hread
    rw [readLines]
    split <;> rename_i hread' <;> rw [hmore] at hread' <;> cases hread'
    simp only [hline, ih hlater]

/-- An advertisement that was read is read from longer data too. -/
theorem read_append_of_ok {s rest : Bytes} {a : Advertisement} (h : read s = (.ok a, rest))
    (more : Bytes) : read (s ++ more) = (.ok a, rest ++ more) := by
  rw [read] at h
  split at h
  · next lines rest' hlines =>
    cases h
    rw [read, readLines_append_of_ok hlines]
  · cases h

end Advertisement

end GitRemote
