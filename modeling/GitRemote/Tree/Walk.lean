import GitRemote.Pathspec.Match
import GitRemote.Tree.Cursor
import GitRemote.Tree.Frame

/-!
# Walking trees in step

`walk` goes through up to sixty-four trees at once. Each round takes the least name at hand, gathers
the entry of that name from every tree that has one, and offers them to a visitor, who says which of
them are consumed; the others are offered again.

A directory is stored behind files whose names continue its own with a byte below the slash. So the
entry that a round asks for can lie behind other entries of its tree. A lane looks ahead for it, and
remembers the offsets of entries that were taken early.
-/

namespace GitRemote

/-- The most trees that one walk can hold. -/
def maxTrees : Nat := 64

/-- How an entry's name bears on the search for another name. -/
inductive Sighting where
  | found
  | keepLooking
  | absent
  deriving DecidableEq, Repr

/-- Looks for `first` and sees `name`. Behind a name that continues `first` with a byte below the
slash, `first` may still come as a directory. -/
def sight (first name : Bytes) : Sighting :=
  match compareNames first name with
  | .eq => .found
  | .gt => .keepLooking
  | .lt =>
    match Text.after? first name with
    | some (b :: _) => if b < 0x2F then .keepLooking else .absent
    | _ => .absent

/-- A tree that takes part in a walk: what is ahead, and the offsets taken early. -/
structure Lane where
  cursor : Cursor
  taken : List Nat := []
  deriving DecidableEq, Repr

/-- Moves over entries that were taken early. -/
def skipTaken (fault : Option TreeError) :
    List Placed → List Nat → Except TreeError (List Placed × List Nat)
  | [], taken => .ok ([], taken)
  | p :: rest, taken =>
    if taken.contains p.offset then
      match rest, fault with
      | [], some e => .error e
      | _, _ => skipTaken fault rest (taken.erase p.offset)
    else .ok (p :: rest, taken)

/-- Looks for a name from the first entry on. -/
def seek (fault : Option TreeError) (first : Bytes) :
    List Placed → Except TreeError (Option Placed)
  | [] => .ok none
  | p :: rest =>
    match sight first p.entry.name with
    | .found => .ok (some p)
    | .absent => .ok none
    | .keepLooking =>
      match rest, fault with
      | [], some e => .error e
      | _, _ => seek fault first rest

namespace Lane

/-- Moves to the first entry that was not taken early. -/
def settle (l : Lane) : Except TreeError Lane :=
  match skipTaken l.cursor.fault l.cursor.pending l.taken with
  | .error e => .error e
  | .ok (pending, taken) => .ok ⟨{ l.cursor with pending }, taken⟩

/-- The entry of a name, at the current place or ahead of it. -/
def find (l : Lane) (first : Bytes) : Except TreeError (Option Placed) :=
  seek l.cursor.fault first l.cursor.pending

/-- Consumes an entry: moves on if it is the current one, else remembers it. -/
def consume (l : Lane) (p : Placed) : Except TreeError Lane :=
  match l.cursor.pending with
  | [] => .ok { l with taken := l.taken ++ [p.offset] }
  | q :: _ =>
    if q.offset = p.offset then
      match l.cursor.advance with
      | .error e => .error e
      | .ok c => .ok { l with cursor := c }
    else .ok { l with taken := l.taken ++ [p.offset] }

end Lane

/-- One round: for each tree its entry of the round's name. -/
structure Round where
  slots : List (Option Placed)
  deriving DecidableEq, Repr

/-- The set of positions at which a list is true, as the bits of a number. -/
def bitSet : List Bool → Nat
  | [] => 0
  | b :: rest => b.toNat + 2 * bitSet rest

namespace Round

/-- The entries of the round, by tree. -/
def entries (r : Round) : List (Option Entry) := r.slots.map (·.map Placed.entry)

/-- The trees that have the name. -/
def mask (r : Round) : Nat := bitSet (r.slots.map Option.isSome)

/-- The trees in which the name is a directory. -/
def dirMask (r : Round) : Nat := bitSet (r.slots.map (·.any (·.entry.isDir)))

/-- The entry of the last tree that has the name. -/
def winner? (r : Round) : Option Entry := (r.slots.reverse.findSome? id).map Placed.entry

end Round

/-- Applies an operation that can fail to each member of a list in turn. -/
def attemptAll {α β ε : Type} (f : α → Except ε β) : List α → Except ε (List β)
  | [] => .ok []
  | a :: rest =>
    match f a with
    | .error e => .error e
    | .ok b =>
      match attemptAll f rest with
      | .error e => .error e
      | .ok bs => .ok (b :: bs)

/-- The least of some names; of equal ones the first. -/
def leastName : List Bytes → Option Bytes
  | [] => none
  | n :: rest => some (rest.foldl (fun a b => if compareNames b a = .lt then b else a) n)

/-- Prepares the next round: settles the lanes, takes the least name at hand and finds its entry in
every lane. There is no round once all lanes are used up. -/
def nextRound (lanes : List Lane) : Except TreeError (List Lane × Option Round) :=
  match attemptAll Lane.settle lanes with
  | .error e => .error e
  | .ok lanes =>
    match leastName (lanes.filterMap fun l => l.cursor.current?.map Entry.name) with
    | none => .ok (lanes, none)
    | some first =>
      match attemptAll (·.find first) lanes with
      | .error e => .error e
      | .ok slots => .ok (lanes, some ⟨slots⟩)

/-- Consumes the entries of a round in the trees of `mask`, which starts at the first lane. -/
def consumeRound (mask : Nat) :
    List Lane → List (Option Placed) → Except TreeError (List Lane)
  | [], _ => .ok []
  | lanes, [] => .ok lanes
  | l :: lanes, slot :: slots =>
    let moved :=
      match slot with
      | some p => if mask.testBit 0 then l.consume p else .ok l
      | none => .ok l
    match moved with
    | .error e => .error e
    | .ok l =>
      match consumeRound (mask / 2) lanes slots with
      | .error e => .error e
      | .ok lanes => .ok (l :: lanes)

/-- What a round's winner means for the rest of the directory, given what the one before meant. That
all is interesting stays so. -/
def narrow (f : Frame) (base : Bytes) (so : Interest) (winner : Entry) : Interest :=
  match f.pathspec with
  | none => .allInteresting
  | some spec => if so = .allInteresting then .allInteresting else spec.interest winner base

/-- A visitor with a state: what it does with a round, and which entries it consumed. -/
abbrev Visitor (σ ε : Type) := Frame → Round → σ → Except ε Nat × σ

/-- How a walk ends that met no error of the trees: with the first error of the visitor, if any. -/
def finish {ε : Type} : Option ε → Except ε Unit
  | none => .ok ()
  | some e => .error e

/-- Plays rounds until the lanes are used up or nothing further can match. -/
def rounds {σ ε : Type} (lift : TreeError → ε) (f : Frame) (visit : Visitor σ ε) :
    Nat → List Lane → Interest → Option ε → σ → Except ε Unit × σ
  | 0, _, _, _, s => (.error (lift .stalled), s)
  | fuel + 1, lanes, so, failed, s =>
    match nextRound lanes with
    | .error e => (.error (lift e), s)
    | .ok (lanes, round?) =>
      match round?.bind fun r => r.winner?.map fun w => (r, w) with
      | none => (finish failed, s)
      | some (round, winner) =>
        let so := narrow f f.base so winner
        let resume (mask : Nat) (failed : Option ε) (s : σ) : Except ε Unit × σ :=
          match consumeRound mask lanes round.slots with
          | .error e => (.error (lift e), s)
          | .ok lanes => rounds lift f visit fuel lanes so failed s
        if so = .allNotInteresting then (finish failed, s)
        else if so.isInteresting then
          match visit f round s with
          | (.ok used, s) => resume (round.mask &&& used) failed s
          | (.error e, s) =>
            if f.options.showAllErrors then resume round.mask (failed <|> some e) s
            else (.error e, s)
        else resume round.mask failed s

/-- The entries ahead in all lanes. -/
def workAhead (cursors : List Cursor) : Nat := (cursors.flatMap Cursor.pending).length

/-- Walks trees in step. A round in which everything is consumed takes an entry off some tree's
cursor; `patience` is the number of rounds beyond that in which the visitor may leave something. -/
def walk {σ ε : Type} (lift : TreeError → ε) (f : Frame) (cursors : List Cursor)
    (visit : Visitor σ ε) (s : σ) (patience : Nat := 0) : Except ε Unit × σ :=
  if maxTrees < cursors.length then (.error (lift (.tooManyTrees cursors.length)), s)
  else if f.options.maxDepth < f.depth then (.error (lift (.tooDeep f.options.maxDepth)), s)
  else
    rounds lift f visit (workAhead cursors + patience + 1) (cursors.map fun c => ⟨c, []⟩)
      .interesting none s

end GitRemote
