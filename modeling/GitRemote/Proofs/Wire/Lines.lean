import GitRemote.Wire.Sideband

/-!
# The lines up to a flush packet

What a reader takes from its source counts against the source's bound, and a line takes at least
four bytes. So the bound is enough fuel for reading lines one after another up to a flush packet.
-/

namespace GitRemote

/-- A source that gives out no more bytes than its bound says. -/
class BoundedSource (σ : Type) [ByteSource σ] : Prop where
  length_readSome : ∀ {n : Nat} {s s' : σ} {piece : Bytes}, readSome n s = (.ok piece, s') →
    piece.length + ByteSource.bound s' ≤ ByteSource.bound s

instance : BoundedSource Bytes where
  length_readSome {n s s' piece} h := by
    cases h
    have hlen : (s.take n).length + (s.drop n).length = s.length := by
      rw [← List.length_append, List.take_append_drop]
    exact Nat.le_of_eq hlen

/-- What a packet carries. -/
def Packet.payload : Packet → Bytes
  | .data payload => payload
  | .control _ => []

section

variable {σ : Type} [ByteSource σ] [BoundedSource σ] {s s' : σ}

/-- Reading piece by piece gives no more bytes than there were. -/
theorem length_readPieces {fuel n : Nat} {b : Bytes} (h : readPieces fuel n s = (.ok b, s')) :
    b.length + ByteSource.bound s' ≤ ByteSource.bound s := by
  fun_induction readPieces fuel n s generalizing b with
  | case1 =>
    cases h
    simp
  | case2 => cases h
  | case3 => cases h
  | case4 => cases h
  | case5 fuel n s piece s₁ _ hread rest s₂ hrest ih =>
    cases h
    have hpiece := BoundedSource.length_readSome hread
    have hlater := ih hrest
    rw [List.length_append]
    omega
  | case6 => cases h

theorem length_readExactly {n : Nat} {b : Bytes} (h : readExactly n s = (.ok b, s')) :
    b.length + ByteSource.bound s' ≤ ByteSource.bound s :=
  length_readPieces h

namespace Packet

/-- A payload is no longer than what there was. -/
theorem length_readPayload {n : Nat} {p : Packet} (h : readPayload n s = (.ok p, s')) :
    p.payload.length + ByteSource.bound s' ≤ ByteSource.bound s := by
  rw [readPayload] at h
  split at h
  · next payload _ hread =>
    cases h
    exact length_readExactly hread
  · cases h
  · cases h

omit [ByteSource σ] [BoundedSource σ] in
/-- A length is written with four digits. -/
theorem length_of_hex4? {digits : Bytes} {n : Nat} (h : hex4? digits = some n) :
    digits.length = 4 := by
  rw [hex4?.eq_def] at h
  split at h
  · rfl
  · cases h

/-- A packet takes its four digits and its payload from what there was. -/
theorem length_readBody {digits : Bytes} {p : Packet} (h : readBody digits s = (.ok p, s')) :
    digits.length = 4 ∧ p.payload.length + ByteSource.bound s' ≤ ByteSource.bound s := by
  cases hn : hex4? digits with
  | none =>
    rw [readBody, hn] at h
    cases h
  | some n =>
    refine ⟨length_of_hex4? hn, ?_⟩
    rw [readBody] at h
    split at h
    case h_6 =>
      split at h
      · cases h
      · exact length_readPayload h
    all_goals
      cases h
      try simp [payload]

/-- A packet takes four bytes besides its payload. -/
theorem length_read {p : Packet} (h : read s = (.ok (some p), s')) :
    4 + p.payload.length + ByteSource.bound s' ≤ ByteSource.bound s := by
  rw [read] at h
  split at h
  · cases h
  · cases h
  · next digits s₁ hdigits =>
    split at h
    · next _ _ hbody =>
      cases h
      have hlen := length_readExactly hdigits
      obtain ⟨hfour, hpayload⟩ := length_readBody hbody
      omega
    · cases h

/-- Reading a line takes at least four bytes. -/
theorem bound_readLine_lt {line : Bytes} (h : readLine s = (.ok (some line), s')) :
    ByteSource.bound s' < ByteSource.bound s := by
  have hdue (p : Packet) (s₁ : σ) (h : readDue s = (.ok p, s₁)) :
      ByteSource.bound s₁ < ByteSource.bound s := by
    rw [readDue] at h
    split at h
    · next _ _ hread =>
      cases h
      have hlen := length_read hread
      omega
    · cases h
    · cases h
  rw [readLine] at h
  split at h
  · next _ _ hread =>
    cases h
    exact hdue _ _ hread
  all_goals cases h

end Packet

end

namespace Demux

/-- The data of a packet that is taken in are among its payload. -/
theorem length_buffer_accept {d e : Demux} {p : Packet} (hd : d.buffer = [])
    (h : d.accept p = .ok e) : e.buffer.length ≤ p.payload.length := by
  unfold accept at h
  split at h
  · cases h
    simp [hd]
  · cases h
  · cases h
    simp [hd]
  · split at h
    · cases h
      simp [Packet.payload]
    · split at h
      · cases h
        simp [hd]
      · split at h <;> cases h

/-- Where packets in memory end, nothing is left. -/
theorem rest_of_read_none {s rest : Bytes} (h : Packet.read s = (.ok none, rest)) : rest = [] := by
  rw [Packet.read, readExactly_bytes] at h
  by_cases hs : 4 ≤ s.length
  · simp only [if_pos hs] at h
    split at h <;> cases h
  · simp only [if_neg hs] at h
    cases h
    rfl

/-- Filling the buffer of the first band makes no bytes. -/
theorem bound_fill {d d' : Demux} (h : d.fill = (.ok (), d')) :
    ByteSource.bound d' ≤ ByteSource.bound d := by
  fun_induction fill d with
  | case1 => cases h
  | case2 d hempty rest hread =>
    cases h
    show d.buffer.length + rest.length ≤ d.buffer.length + d.rest.length
    rw [rest_of_read_none hread, List.length_nil]
    omega
  | case3 => cases h
  | case4 d hempty p rest hread e haccept ih =>
    have hlater := ih h
    have hbuffer : d.buffer = [] := by
      rw [Bool.and_eq_true, List.isEmpty_iff] at hempty
      exact hempty.1
    have hdata := length_buffer_accept (d := { d with rest }) hbuffer haccept
    have hrest : e.rest = rest := rest_accept haccept
    have hlen : 4 + p.payload.length + rest.length ≤ d.rest.length := Packet.length_read hread
    refine Nat.le_trans hlater ?_
    show e.buffer.length + e.rest.length ≤ d.buffer.length + d.rest.length
    rw [hrest]
    omega
  | case5 =>
    cases h
    exact Nat.le_refl _

instance : BoundedSource Demux where
  length_readSome {n d d' piece} h := by
    replace h : d.read n = (.ok piece, d') := h
    rw [read] at h
    split at h
    · cases h
    · next e hfill =>
      cases h
      have hlen : (e.buffer.take n).length + ((e.buffer.drop n).length + e.rest.length) =
          e.buffer.length + e.rest.length := by
        rw [← Nat.add_assoc, ← List.length_append, List.take_append_drop]
      exact Nat.le_trans (Nat.le_of_eq hlen) (bound_fill hfill)

end Demux

/-- The lines up to a flush packet, and what is left of the source behind it. -/
inductive LinesTo {σ : Type} [ByteSource σ] : σ → List Bytes → σ → Prop
  | flush {s s' : σ} (h : Packet.readLine s = (.ok none, s')) : LinesTo s [] s'
  | line {s s₁ s' : σ} {line : Bytes} {lines : List Bytes}
      (h : Packet.readLine s = (.ok (some line), s₁)) (hrest : LinesTo s₁ lines s') :
      LinesTo s (line :: lines) s'

/-- The source gives these lines and then a flush packet. -/
def FlushedLines {σ : Type} [ByteSource σ] (s : σ) (lines : List Bytes) : Prop :=
  ∃ s', LinesTo s lines s'

namespace LinesTo

variable {σ : Type} [ByteSource σ] {s s' : σ} {lines : List Bytes}

/-- There are no more lines than the source's bound says. -/
theorem length_le [BoundedSource σ] (h : LinesTo s lines s') :
    lines.length ≤ ByteSource.bound s := by
  induction h with
  | flush => exact Nat.zero_le _
  | line h _ ih =>
    have hlt := Packet.bound_readLine_lt h
    rw [List.length_cons]
    omega

end LinesTo

end GitRemote
