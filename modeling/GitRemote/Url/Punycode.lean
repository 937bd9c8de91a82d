/-!
# Punycode

How a label of a domain name is written in ASCII: its ASCII characters, a hyphen, and the other
characters in ascending order as differences of positions, in a number system whose digit weights
adapt to the size of the differences.
-/

namespace GitRemote.Url.Punycode

/-- The digit for a number below 36. -/
def digit (n : Nat) : Char := if n < 26 then Char.ofNat (0x61 + n) else Char.ofNat (0x16 + n)

/-- The threshold of the digit at position `k` under a bias. -/
def threshold (k bias : Nat) : Nat := if k ≤ bias then 1 else if bias + 26 ≤ k then 26 else k - bias

/-- A difference in digits, the lowest first. Each digit makes the rest smaller. -/
def digits (bias : Nat) : Nat → Nat → Nat → List Char
  | 0, _, _ => []
  | fuel + 1, k, q =>
    let t := threshold k bias
    if q < t then [digit q]
    else digit (t + (q - t) % (36 - t)) :: digits bias fuel (k + 36) ((q - t) / (36 - t))

/-- Scales a difference down until it fits the number system. -/
def scale : Nat → Nat → Nat → Nat
  | 0, _, k => k
  | fuel + 1, delta, k =>
    if 455 < delta then scale fuel (delta / 35) (k + 36) else k + 36 * delta / (delta + 38)

/-- The bias after a difference was written as the `points`-th. -/
def adapt (delta points : Nat) (first : Bool) : Nat :=
  let delta := if first then delta / 700 else delta / 2
  scale 64 (delta + delta / points) 0

/-- What is known while a label is written. -/
structure State where
  delta : Nat := 0
  bias : Nat := 72
  /-- The number of characters written. -/
  done : Nat
  /-- Nothing but ASCII was written yet. -/
  first : Bool := true
  out : List Char

/-- Writes the occurrences of the character `n` in a label. -/
def writeChar (n : Nat) (s : State) : List Nat → State
  | [] => s
  | c :: rest =>
    if c < n then writeChar n { s with delta := s.delta + 1 } rest
    else if c = n then
      writeChar n
        { delta := 0
          bias := adapt s.delta (s.done + 1) s.first
          done := s.done + 1
          first := false
          out := s.out ++ digits s.bias 64 36 s.delta } rest
    else writeChar n s rest

/-- Writes the characters of a label that are not less than `n`. Each round writes at least one. -/
def writeFrom (label : List Nat) : Nat → Nat → State → State
  | 0, _, s => s
  | fuel + 1, n, s =>
    match (label.filter (n ≤ ·)).min? with
    | none => s
    | some m =>
      let s := writeChar m { s with delta := s.delta + (m - n) * (s.done + 1) } label
      writeFrom label fuel (m + 1) { s with delta := s.delta + 1 }

/-- A label in Punycode. -/
def encode (label : List Char) : List Char :=
  let ascii := label.filter (·.toNat < 0x80)
  let out := if ascii.isEmpty then [] else ascii ++ ['-']
  (writeFrom (label.map Char.toNat) label.length 0x80 { done := ascii.length, out }).out

/-- The value of a digit in either case. -/
def digitValue? (c : Char) : Option Nat :=
  let n := c.toLower.toNat
  if 0x61 ≤ n ∧ n ≤ 0x7A then some (n - 0x61)
  else if 0x30 ≤ n ∧ n ≤ 0x39 then some (n - 0x16)
  else none

/-- What the sums of differences and the weights of digits stay below. -/
def sumBound : Nat := 4294967296

/-- Adds the difference at the front to `sum`, from its digit at position `k` with the given weight
on, and gives what follows it. -/
def addDifference? (bias : Nat) : Nat → Nat → Nat → List Char → Option (Nat × List Char)
  | _, _, _, [] => none
  | k, weight, sum, c :: rest =>
    match digitValue? c with
    | none => none
    | some d =>
      let t := threshold k bias
      let sum := sum + d * weight
      if sumBound ≤ sum then none
      else if d < t then some (sum, rest)
      else if sumBound ≤ weight * (36 - t) then none
      else addDifference? bias (k + 36) (weight * (36 - t)) sum rest

/-- A difference has at least one digit. -/
theorem length_addDifference?_lt {bias : Nat} {cs : List Char} {k weight sum : Nat}
    {r : Nat × List Char} (h : addDifference? bias k weight sum cs = some r) :
    r.2.length < cs.length := by
  induction cs generalizing k weight sum with
  | nil => simp [addDifference?] at h
  | cons c rest ih =>
    rw [addDifference?] at h
    split at h
    · cases h
    · dsimp only at h
      split at h
      · cases h
      · split at h
        · cases h
          simp
        · split at h
          · cases h
          · exact Nat.lt_succ_of_lt (ih h)

/-- Reads the differences onto the characters read so far, of which the last was `n` and stands just
before position `i`. -/
def insertChars? (bias n i : Nat) (label cs : List Char) : Option (List Char) :=
  match cs with
  | [] => some label
  | c :: tail =>
    match _h : addDifference? bias 36 1 i (c :: tail) with
    | none => none
    | some (sum, rest) =>
      let points := label.length + 1
      let n := n + sum / points
      if n < 0xD800 ∨ (0xDFFF < n ∧ n < 0x110000) then
        insertChars? (adapt (sum - i) points (i == 0)) n (sum % points + 1)
          (label.insertIdx (sum % points) (Char.ofNat n)) rest
      else none
termination_by cs.length
decreasing_by exact length_addDifference?_lt _h

/-- The label that a text in Punycode stands for. Its ASCII characters are those before the last
hyphen, if there are any. -/
def decode? (cs : List Char) : Option (List Char) :=
  let differences := (cs.reverse.takeWhile (· != '-')).reverse
  let ascii := cs.take (cs.length - differences.length - 1)
  insertChars? 72 0x80 0 ascii (if ascii.isEmpty then cs else differences)

end GitRemote.Url.Punycode
