import GitRemote.Wire.Error

/-!
# Sources of bytes

A source gives out bytes in pieces whose sizes it chooses itself. `readExactly` puts pieces together
until it has as many bytes as are asked for; `readToEnd` takes all there are. Bytes in memory are a
source that always gives as many as it has.
-/

namespace GitRemote

/-- A source of bytes. -/
class ByteSource (σ : Type) where
  /-- Reads at most a number of bytes. Nothing read, of a positive number, is the end. -/
  readSome : Nat → σ → Except WireError Bytes × σ
  /-- No more bytes than this are left. -/
  bound : σ → Nat

export ByteSource (readSome)

instance : ByteSource Bytes where
  readSome n s := (.ok (s.take n), s.drop n)
  bound s := s.length

/-- Why fewer bytes were read than asked for. -/
inductive ShortRead where
  | ended
  | failed (e : WireError)
  deriving DecidableEq, Repr

variable {σ : Type} [ByteSource σ]

/-- Reads `n` bytes in at most `fuel` pieces; a piece is never empty. -/
def readPieces : Nat → Nat → σ → Except ShortRead Bytes × σ
  | _, 0, s => (.ok [], s)
  | 0, _ + 1, s => (.error .ended, s)
  | fuel + 1, n + 1, s =>
    match readSome (n + 1) s with
    | (.error e, s) => (.error (.failed e), s)
    | (.ok [], s) => (.error .ended, s)
    | (.ok piece, s) =>
      match readPieces fuel (n + 1 - piece.length) s with
      | (.ok rest, s) => (.ok (piece ++ rest), s)
      | (.error e, s) => (.error e, s)

/-- Reads `n` bytes. If the source ends before, what it had is used up. -/
def readExactly (n : Nat) (s : σ) : Except ShortRead Bytes × σ := readPieces n n s

/-- From memory, the first piece is the last. -/
theorem readPieces_bytes (fuel n : Nat) (s : Bytes) :
    readPieces (fuel + 1) n s =
      if n ≤ s.length then (.ok (s.take n), s.drop n) else (.error .ended, []) := by
  match n, s with
  | 0, s => simp [readPieces]
  | n + 1, [] => simp [readPieces, readSome]
  | n + 1, b :: s =>
    by_cases h : n ≤ s.length
    · simp [readPieces, readSome, h]
    · have hd : s.drop n = [] := List.drop_eq_nil_of_le (by omega)
      have ht : s.take n = s := List.take_of_length_le (by omega)
      obtain ⟨k, hk⟩ : ∃ k, n + 1 - (s.length + 1) = k + 1 := ⟨n - s.length - 1, by omega⟩
      have hn : ¬ n + 1 ≤ (b :: s).length := by simpa using h
      rw [if_neg hn]
      simp only [readPieces, readSome, List.take_succ_cons, List.drop_succ_cons, hd, ht,
        List.length_cons, hk]
      cases fuel <;> simp [readPieces, readSome]

/-- From memory, as many bytes are read as are asked for, or none if there are not that many. -/
theorem readExactly_bytes (n : Nat) (s : Bytes) :
    readExactly n s =
      if n ≤ s.length then (.ok (s.take n), s.drop n) else (.error .ended, []) := by
  cases n with
  | zero => simp [readExactly, readPieces]
  | succ n => exact readPieces_bytes n (n + 1) s

/-- Reads all bytes in at most `fuel` pieces of at most `size` bytes: what was read, and the error
that ended it, if any. -/
def readAllPieces (size : Nat) : Nat → σ → (Bytes × Option WireError) × σ
  | 0, s => (([], none), s)
  | fuel + 1, s =>
    match readSome size s with
    | (.error e, s) => (([], some e), s)
    | (.ok [], s) => (([], none), s)
    | (.ok piece, s) =>
      let ((rest, e?), s) := readAllPieces size fuel s
      ((piece ++ rest, e?), s)

/-- Reads all bytes. -/
def readToEnd (s : σ) : (Bytes × Option WireError) × σ :=
  readAllPieces packetLimit (ByteSource.bound s + 1) s

end GitRemote
