import GitRemote.Tree.Frame
import Mathlib.Data.Nat.PSub

/-!
# Paths that are written into a buffer

`Frame.writtenPath?` writes the path of a directory into a blank buffer of its length, from the last
name back to the first. Neither an offset below zero nor a write outside of the buffer has a result.
-/

namespace GitRemote

/-- A buffer with other bytes from an offset on, if they lie inside of it. -/
def overwrite? (buf : Bytes) (start : Nat) (bytes : Bytes) : Option Bytes :=
  if start + bytes.length ≤ buf.length then
    some (buf.take start ++ bytes ++ buf.drop (start + bytes.length))
  else none

namespace Frame

/-- Writes names, innermost first, so that the first ends at `stop`, each with a slash before it. This
stops above the last name, at an empty name, or at the start of the buffer. There is no result if an
offset falls below zero, or if bytes reach out of the buffer. -/
def fillBuffer? : List Bytes → Nat → Bytes → Option Bytes
  | [], _, buf => some buf
  | name :: outer, stop, buf =>
    if name.isEmpty then some buf
    else do
      let start ← stop.psub name.length
      let named ← overwrite? buf start name
      if start = 0 then return named
      let slash ← start.psub 1
      fillBuffer? outer slash (← overwrite? named slash [0x2F])

/-- The path of a directory as written into a blank buffer that has its length. -/
def writtenPath? (f : Frame) : Option Bytes :=
  fillBuffer? f.names (pathLength f.names) (List.replicate (pathLength f.names) 0)

end Frame

end GitRemote
