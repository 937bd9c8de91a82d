import GitRemote.Tree.Error
import GitRemote.Tree.Order

/-!
# Cursors over trees

A cursor holds the entries of a tree from the current one on, each with its offset, and the fault at
which decoding stops after them, if there is one. Moving onto the fault reports it; a cursor never
starts on it. `verifyOrder` checks that the entries ahead are in strictly ascending stored order.
-/

namespace GitRemote

/-- An entry and where it starts in its tree. -/
structure Placed where
  offset : Nat
  entry : Entry
  deriving DecidableEq, Repr

/-- A position in a tree: the entries ahead, and how decoding ends after them. -/
structure Cursor where
  /-- The entries from the current one on. -/
  pending : List Placed
  /-- The fault behind the last of them. -/
  fault : Option TreeError
  /-- The offset behind the last of them. -/
  stop : Nat
  /-- The number of bytes in the tree. -/
  size : Nat
  deriving DecidableEq, Repr

/-- Decodes the entries of what is left of a tree of `size` bytes, up to its end or to the first
fault. -/
def decodeEntries (size : Nat) (buf : Bytes) : Cursor :=
  if buf.isEmpty then ⟨[], none, size, size⟩
  else
    let offset := size - buf.length
    match _h : Entry.decode buf with
    | .error f => ⟨[], some (.corrupt offset f), offset, size⟩
    | .ok (e, rest) =>
      let later := decodeEntries size rest
      { later with pending := ⟨offset, e⟩ :: later.pending }
termination_by buf.length
decreasing_by exact Entry.length_decode_lt _h

/-- The entries from an offset on, each with where it starts, and the fault at which reading by
positions stops. -/
def entriesFrom? (buf : Bytes) (offset : Nat) : Option (List Placed × Option TreeError) :=
  if _h : buf.length ≤ offset then some ([], none)
  else
    match _hd : decodeAt? buf offset with
    | none => none
    | some (.error f) => some ([], some (.corrupt offset f))
    | some (.ok (e, length)) =>
      (entriesFrom? buf (offset + length)).map fun (later, fault) => (⟨offset, e⟩ :: later, fault)
termination_by buf.length - offset
decreasing_by
  have hpos := length_pos_of_decodeAt? _hd
  omega

namespace Cursor

/-- All entries of a buffer, and the fault after them. -/
def scan (buf : Bytes) : Cursor := decodeEntries buf.length buf

/-- A cursor at the first entry, which must be sound. -/
def ofBytes (buf : Bytes) : Except TreeError Cursor :=
  match scan buf with
  | ⟨[], some e, _, _⟩ => .error e
  | c => .ok c

/-- A cursor without entries. -/
def empty : Cursor := ⟨[], none, 0, 0⟩

/-- The current entry. -/
def current? (c : Cursor) : Option Entry := c.pending.head?.map Placed.entry

/-- Where the current entry starts, or where the entries end. -/
def offset (c : Cursor) : Nat :=
  match c.pending with
  | [] => c.stop
  | p :: _ => p.offset

/-- The number of bytes from the current entry on. -/
def remaining (c : Cursor) : Nat := c.size - c.offset

/-- The cursor behind the current entry. -/
def dropFirst (c : Cursor) : Cursor := { c with pending := c.pending.tail }

/-- The fault met by moving behind the current entry. -/
def faultAhead (c : Cursor) : Option TreeError :=
  match c.pending with
  | [_] => c.fault
  | _ => none

/-- Moves behind the current entry, if there is one. -/
def advance (c : Cursor) : Except TreeError Cursor :=
  match c.faultAhead with
  | some e => .error e
  | none => .ok c.dropFirst

/-- Moves behind a number of entries. -/
def advanceBy : Nat → Cursor → Except TreeError Cursor
  | 0, c => .ok c
  | n + 1, c =>
    match c.advance with
    | .error e => .error e
    | .ok c => advanceBy n c

/-- The entries from the current one on. -/
def entries (c : Cursor) : List Entry := c.pending.map Placed.entry

end Cursor

/-- The first pair of neighbours that is not in strictly ascending stored order. -/
def firstDisorder? : List Entry → Option (Entry × Entry)
  | a :: b :: rest =>
    if compareStored a.name a.isDir b.name b.isDir = .lt then firstDisorder? (b :: rest)
    else some (a, b)
  | _ => none

/-- Checks that all entries ahead decode and are in strictly ascending stored order; of two faults
the first counts. -/
def Cursor.verifyOrder (c : Cursor) : Except TreeError Unit :=
  match firstDisorder? c.entries with
  | some (a, b) => .error (.outOfOrder (Utf8.decodeLossy a.name) (Utf8.decodeLossy b.name))
  | none =>
    match c.fault with
    | some e => .error e
    | none => .ok ()

end GitRemote
