import GitRemote.Object.Id

/-!
# Tree entries

A tree object is a run of entries, each an octal mode, a blank, a name, a NUL and the twenty bytes of
an id. Decoding brings the mode into one of the five forms that are written; `Entry.encode` writes an
entry.
-/

namespace GitRemote

/-- The modes that are written, and the mask of the bits that tell what an entry is. -/
def modeTree : Nat := 0o040000
@[inherit_doc modeTree] def modeFile : Nat := 0o100644
@[inherit_doc modeTree] def modeExecutable : Nat := 0o100755
@[inherit_doc modeTree] def modeSymlink : Nat := 0o120000
@[inherit_doc modeTree] def modeGitlink : Nat := 0o160000
@[inherit_doc modeTree] def modeKindMask : Nat := 0o170000

/-- The written form of a mode. Files keep the owner's execute bit only, and whatever is no file,
symbolic link or directory counts as the commit of a submodule. -/
def canonicalMode (mode : Nat) : Nat :=
  let kind := mode &&& modeKindMask
  if kind = 0o100000 then
    if mode &&& 0o100 = 0 then modeFile else modeExecutable
  else if kind = modeSymlink then modeSymlink
  else if kind = modeTree then modeTree
  else modeGitlink

/-- One entry of a tree. -/
structure Entry where
  mode : Nat
  name : Bytes
  id : ObjectId
  deriving DecidableEq, Repr

namespace Entry

/-- Whether the entry is a directory. -/
def isDir (e : Entry) : Bool := e.mode &&& modeKindMask == modeTree

/-- Whether the entry is the commit of a submodule. -/
def isGitlink (e : Entry) : Bool := e.mode &&& modeKindMask == modeGitlink

/-- The written form of an entry. -/
def encode (e : Entry) : Bytes :=
  Text.digitBytes 8 e.mode ++ 0x20 :: (e.name ++ 0 :: e.id.octets)

end Entry

/-- Why an entry cannot be decoded. -/
inductive EntryFault where
  | tooShort
  | malformedMode
  | emptyName
  deriving DecidableEq, Repr

/-- The message for an entry that cannot be decoded. -/
def EntryFault.message : EntryFault → String
  | .tooShort => "too-short tree object"
  | .malformedMode => "malformed mode in tree entry"
  | .emptyName => "empty filename in tree entry"

/-- The number of bytes in the shortest entry. -/
def shortestEntry : Nat := 24

/-- Whether a buffer is long enough for an entry, and has a NUL where the last entry's name ends. -/
def endsLikeTree (buf : Bytes) : Bool :=
  shortestEntry ≤ buf.length && buf[buf.length - 21]? == some 0

/-- The bound of modes, which have 32 bits. -/
def modeBound : Nat := 0x100000000

/-- Reads the digits of a mode onto `value`, and the blank after them. A mode is below
`modeBound`. -/
def modeOnto? (value : Nat) : Bytes → Option (Nat × Bytes)
  | [] => none
  | b :: rest =>
    if b = 0x20 then some (value, rest)
    else
      match Text.digitValue? 8 b with
      | some d => if value * 8 + d < modeBound then modeOnto? (value * 8 + d) rest else none
      | none => none

/-- What follows a mode is shorter. -/
theorem length_modeOnto_lt {value mode : Nat} {buf rest : Bytes}
    (h : modeOnto? value buf = some (mode, rest)) : rest.length < buf.length := by
  fun_induction modeOnto? value buf with
  | case1 => cases h
  | case2 => cases h; simp
  | case3 value b tail _ d _ _ ih => exact Nat.lt_succ_of_lt (ih h)
  | case4 => cases h
  | case5 => cases h

/-- Reads a mode of at least one digit, and the blank after it. -/
def mode? (buf : Bytes) : Option (Nat × Bytes) :=
  if buf.head? = some 0x20 then none else modeOnto? 0 buf

/-- Reads the bytes up to a NUL, and the NUL. -/
def name? : Bytes → Option (Bytes × Bytes)
  | [] => none
  | b :: rest => if b = 0 then some ([], rest) else (name? rest).map fun (n, r) => (b :: n, r)

/-- What follows a name is shorter. -/
theorem length_name_lt {buf name rest : Bytes} (h : name? buf = some (name, rest)) :
    rest.length < buf.length := by
  fun_induction name? buf generalizing name with
  | case1 => cases h
  | case2 => cases h; simp
  | case3 b tail _ ih =>
    obtain ⟨⟨n, r⟩, hn, hr⟩ := Option.map_eq_some_iff.1 h
    cases hr
    exact Nat.lt_succ_of_lt (ih hn)

/-- Decodes the entry at the front of a buffer, and gives what follows it. -/
def Entry.decode (buf : Bytes) : Except EntryFault (Entry × Bytes) :=
  if endsLikeTree buf then
    match mode? buf with
    | none => .error .malformedMode
    | some (mode, afterMode) =>
      match name? afterMode with
      | none => .error .tooShort
      | some (name, afterName) =>
        if name.isEmpty then .error .emptyName
        else
          match ObjectId.ofOctets? (afterName.take 20) with
          | none => .error .tooShort
          | some id => .ok (⟨canonicalMode mode, name, id⟩, afterName.drop 20)
  else .error .tooShort

/-- What follows an entry is shorter. -/
theorem Entry.length_decode_lt {buf rest : Bytes} {e : Entry}
    (h : Entry.decode buf = .ok (e, rest)) : rest.length < buf.length := by
  unfold Entry.decode at h
  split at h
  · split at h
    · cases h
    · next mode afterMode hm =>
      split at h
      · cases h
      · next name afterName hn =>
        split at h
        · cases h
        · split at h
          · cases h
          · cases h
            have hmode : afterMode.length < buf.length := by
              unfold mode? at hm
              split at hm
              · cases hm
              · exact length_modeOnto_lt hm
            have hname := length_name_lt hn
            simp only [List.length_drop]
            omega
  · cases h

/-! ### By position -/

/-- The bytes from `start` to `stop`, if both are positions of the buffer. -/
def slice? (buf : Bytes) (start stop : Nat) : Option Bytes :=
  if start ≤ stop ∧ stop ≤ buf.length then some ((buf.take stop).drop start) else none

/-- Reads the digits of a mode onto `value`, from a position on up to the blank, and gives the
position behind the blank. -/
def modeFrom? (buf : Bytes) (value pos : Nat) : Option (Except EntryFault (Nat × Nat)) :=
  if h : pos < buf.length then
    if buf[pos] = 0x20 then some (.ok (value, pos + 1))
    else
      match Text.digitValue? 8 buf[pos] with
      | some d =>
        if value * 8 + d < modeBound then modeFrom? buf (value * 8 + d) (pos + 1)
        else some (.error .malformedMode)
      | none => some (.error .malformedMode)
  else none
termination_by buf.length - pos

/-- Reads the name and the id that start at a position, and gives how far they reach. -/
def nameFrom? (buf : Bytes) (mode pos : Nat) : Option (Except EntryFault (Entry × Nat)) := do
  match (← slice? buf pos buf.length).idxOf? 0 with
  | none => return .error .tooShort
  | some n =>
    if n = 0 then return .error .emptyName
    let name ← slice? buf pos (pos + n)
    let octets ← slice? buf (pos + n + 1) (pos + n + 1 + 20)
    match ObjectId.ofOctets? octets with
    | none => return .error .tooShort
    | some id => return .ok (⟨canonicalMode mode, name, id⟩, pos + n + 1 + 20)

/-- Reads the entry at the front of a buffer by positions, and gives its length. There is no answer
when a position lies outside of the buffer. -/
def decodeFront? (buf : Bytes) : Option (Except EntryFault (Entry × Nat)) := do
  if buf.length < shortestEntry then return .error .tooShort
  if (← buf[buf.length - 21]?) ≠ 0 then return .error .tooShort
  if (← buf[0]?) = 0x20 then return .error .malformedMode
  match ← modeFrom? buf 0 0 with
  | .error f => return .error f
  | .ok (mode, pos) => nameFrom? buf mode pos

/-- Reads the entry at an offset by positions. -/
def decodeAt? (buf : Bytes) (offset : Nat) : Option (Except EntryFault (Entry × Nat)) := do
  decodeFront? (← slice? buf offset buf.length)

/-- Behind a mode there are a NUL and an id at least. -/
theorem length_pos_of_nameFrom? {buf : Bytes} {mode pos length : Nat} {e : Entry}
    (h : nameFrom? buf mode pos = some (.ok (e, length))) : 0 < length := by
  obtain ⟨tail, -, h⟩ := Option.bind_eq_some_iff.mp h
  split at h
  · cases h
  · split at h
    · cases h
    · obtain ⟨name, -, h⟩ := Option.bind_eq_some_iff.mp h
      obtain ⟨octets, -, h⟩ := Option.bind_eq_some_iff.mp h
      split at h
      · cases h
      · cases h
        exact Nat.succ_pos _

/-- An entry takes up bytes. -/
theorem length_pos_of_decodeAt? {buf : Bytes} {offset length : Nat} {e : Entry}
    (h : decodeAt? buf offset = some (.ok (e, length))) : 0 < length := by
  obtain ⟨front, -, h⟩ := Option.bind_eq_some_iff.mp h
  rw [decodeFront?] at h
  split at h
  · cases h
  · obtain ⟨mark, -, h⟩ := Option.bind_eq_some_iff.mp h
    split at h
    · cases h
    · obtain ⟨first, -, h⟩ := Option.bind_eq_some_iff.mp h
      split at h
      · cases h
      · obtain ⟨mode, -, h⟩ := Option.bind_eq_some_iff.mp h
        split at h
        · cases h
        · exact length_pos_of_nameFrom? h

end GitRemote
