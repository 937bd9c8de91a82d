import GitRemote.Pathspec.Basic
import GitRemote.Pathspec.Wildcard
import GitRemote.Tree.Entry

/-!
# Matching entries against pathspecs

`Pathspec.interest` says how interesting an entry is, given the path of its directory, which is empty
or ends in a slash. Items are asked from the last to the first; one that answers ends the search. The
answer that nothing later in the directory can match holds only while every item asked so far sorts
before the entry.
-/

namespace GitRemote

/-- The byte of an ASCII letter in lower case. -/
def lowerByte (b : UInt8) : UInt8 := if 0x41 ≤ b ∧ b ≤ 0x5A then b + 0x20 else b

/-- A byte as it is compared. -/
def foldByte (icase : Bool) (b : UInt8) : UInt8 := if icase then lowerByte b else b

/-- Compares at most `n` bytes. Either side counts as continued by NULs, and a NUL on both ends the
comparison. -/
def compareUpTo (icase : Bool) : Nat → Bytes → Bytes → Ordering
  | 0, _, _ => .eq
  | n + 1, a, b =>
    let x := foldByte icase (a.headD 0)
    let y := foldByte icase (b.headD 0)
    if x = y then
      if x = 0 then .eq else compareUpTo icase n a.tail b.tail
    else compare x y

/-- Whether at most `n` bytes agree. -/
def agreeUpTo (icase : Bool) (n : Nat) (a b : Bytes) : Bool := compareUpTo icase n a b == .eq

/-- Whether no directory of a path is deeper than `limit`, counting up from `depth`. -/
def withinDepth (limit : Nat) : Nat → Bytes → Bool
  | _, [] => true
  | depth, b :: rest =>
    if b = 0x2F then depth + 1 ≤ limit && withinDepth limit (depth + 1) rest
    else withinDepth limit depth rest

namespace PathspecItem

/-- Whether the pattern names the directory `base` or one that contains it. -/
def matchesDirectory (item : PathspecItem) (base : Bytes) : Bool :=
  let n := item.pattern.length
  agreeUpTo item.magic.icase n base item.pattern &&
    (n == 0 || base[n]? == some 0x2F || item.pattern.getLast? == some 0x2F)

/-- Whether a name matches a wildcard pattern of which the first `plain` bytes are plain. -/
def matchesWildcard (item : PathspecItem) (pattern name : Bytes) (plain : Nat) : Bool :=
  agreeUpTo item.magic.icase plain pattern name &&
    (let pattern := pattern.drop plain
     let name := name.drop plain
     if item.isOneStar && pattern.head? == some 0x2A then
       let tail := pattern.tail
       tail.length ≤ name.length &&
         agreeUpTo item.magic.icase tail.length tail (name.drop (name.length - tail.length))
     else Wildcard.matchesBytes pattern name item.magic.glob item.magic.icase)

/-- Whether the directory `base` agrees with the plain part of a wildcard pattern as far as both
reach. -/
def matchesWildcardBase (item : PathspecItem) (base : Bytes) : Bool :=
  agreeUpTo item.magic.icase (min base.length item.plainLength) base item.pattern

/-- Matches what the pattern has below the entry's directory, `pattern`, against the entry. The
second component is the answer that is left if no item matches: it no longer rules out later entries
once a pattern sorts at or behind the entry, and folded patterns have no place in the order. -/
def matchEntry (item : PathspecItem) (e : Entry) (pattern : Bytes) (otherwise : Interest) :
    Bool × Interest :=
  let strict := !item.magic.icase && otherwise != .notInteresting
  let order := compareUpTo false (min pattern.length e.name.length) pattern e.name
  if strict && order == .lt then (false, otherwise)
  else if pattern.length < e.name.length then (false, .notInteresting)
  else if e.name.length < pattern.length &&
      (pattern[e.name.length]? != some 0x2F || !(e.isDir || e.isGitlink)) then
    (false, .notInteresting)
  else if strict then (order == .eq, .notInteresting)
  else (agreeUpTo item.magic.icase e.name.length pattern e.name, .notInteresting)

/-- What an item says about an entry: an answer, or what is left to answer if the others are silent
too. -/
inductive Say where
  | answer (i : Interest)
  | pass (otherwise : Interest)
  deriving DecidableEq, Repr

/-- Asks one item about an entry of the directory `base`. -/
def ask (item : PathspecItem) (recursive : Bool) (limit : Option Nat) (e : Entry) (base : Bytes)
    (otherwise : Interest) : Say :=
  if item.pattern.length ≤ base.length && item.matchesDirectory base then
    match limit with
    | none => .answer .allInteresting
    | some limit =>
      if withinDepth limit e.isDir.toNat (base.drop (item.pattern.length + 1)) then
        .answer .interesting
      else .answer .notInteresting
  else if base.length < item.pattern.length &&
      agreeUpTo item.magic.icase base.length base item.pattern then
    let below := item.pattern.drop base.length
    let (found, otherwise) := item.matchEntry e below otherwise
    if found then .answer .interesting
    else if item.hasWildcard &&
        (item.matchesWildcard below e.name (item.plainLength - base.length) ||
          (recursive && e.isDir)) then
      .answer .interesting
    else .pass otherwise
  else if item.hasWildcard && (item.plainLength == 0 || item.matchesWildcardBase base) &&
      (item.matchesWildcard item.pattern (base ++ e.name) item.plainLength ||
        (recursive && e.isDir)) then
    .answer .interesting
  else .pass otherwise

end PathspecItem

namespace Pathspec

/-- Asks items in turn. -/
def askItems (recursive : Bool) (limit : Option Nat) (e : Entry) (base : Bytes) :
    List PathspecItem → Interest → Interest
  | [], otherwise => otherwise
  | item :: rest, otherwise =>
    match item.ask recursive limit e base otherwise with
    | .answer i => i
    | .pass otherwise => askItems recursive limit e base rest otherwise

/-- The answer of the items that exclude, or of those that do not. -/
def sideInterest (spec : Pathspec) (exclude : Bool) (e : Entry) (base : Bytes) : Interest :=
  if spec.items.isEmpty then
    match spec.depthLimit with
    | none => .allInteresting
    | some limit =>
      if withinDepth limit e.isDir.toNat base then .interesting else .notInteresting
  else
    askItems spec.recursive spec.depthLimit e base
      (spec.items.reverse.filter (·.magic.exclude == exclude))
      (if spec.hasWildcard then .notInteresting else .allNotInteresting)

/-- What is left of an answer when the exclusions give theirs. A directory that is excluded in part
stays interesting. -/
def remove (isDir : Bool) : Interest → Interest → Interest
  | .allInteresting, .allNotInteresting => .allInteresting
  | .allInteresting, .notInteresting => .interesting
  | .allInteresting, .interesting => if isDir then .interesting else .notInteresting
  | .allInteresting, .allInteresting => .allNotInteresting
  | .interesting, .allNotInteresting => .interesting
  | .interesting, .notInteresting => .interesting
  | .interesting, .interesting => if isDir then .interesting else .notInteresting
  | .interesting, .allInteresting => .notInteresting
  | i, _ => i

/-- How interesting an entry of the directory `base` is. -/
def interest (spec : Pathspec) (e : Entry) (base : Bytes) : Interest :=
  let positive := spec.sideInterest false e base
  if spec.hasExclude then remove e.isDir positive (spec.sideInterest true e base) else positive

end Pathspec

end GitRemote
