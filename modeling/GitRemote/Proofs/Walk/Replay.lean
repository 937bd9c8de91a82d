import GitRemote.Proofs.Walk.Coverage

/-!
# What a log says of the rounds to come

Whatever a visitor leaves, its log determines the walk. A tree is ahead from its first entry on that
no logged answer took, entries behind that one that were taken early included; the next round is
that of the least name at the front of the trees. A round preserves this, and a walk that ends well
has nothing ahead.
-/

namespace GitRemote

variable {σ ε : Type}

/-- A round that a visitor was handed, with its answer. -/
abbrev WalkStep (ε : Type) := Round × Except ε Nat

namespace WalkStep

/-- The visitor was handed the entry of the tree at a position. -/
def shows (w : WalkStep ε) (i : Nat) (p : Placed) : Bool := w.1.slots[i]? == some (some p)

/-- The visitor was handed the entry and consumed it. A round on which it fails is consumed. -/
def takes (w : WalkStep ε) (i : Nat) (p : Placed) : Bool :=
  w.shows i p &&
    match w.2 with
    | .ok used => used.testBit i
    | .error _ => true

/-- A step shows an entry if it stands in the slot of its tree. -/
theorem shows_iff {w : WalkStep ε} {i : Nat} {p : Placed} :
    w.shows i p = true ↔ w.1.slots[i]? = some (some p) := by
  rw [shows, beq_iff_eq]

/-- What a step takes it shows. -/
theorem shows_of_takes {w : WalkStep ε} {i : Nat} {p : Placed} (h : w.takes i p = true) :
    w.shows i p = true := by
  rw [takes, Bool.and_eq_true] at h
  exact h.1

/-- The trees of which the round's entry was consumed. -/
def consumed (w : WalkStep ε) : Nat :=
  match w.2 with
  | .ok used => w.1.mask &&& used
  | .error _ => w.1.mask

/-- A step takes the entry in a slot if its answer has the bit of the slot. -/
theorem takes_eq {w : WalkStep ε} {i : Nat} {slot : Option Placed}
    (hslot : w.1.slots[i]? = some slot) (p : Placed) :
    w.takes i p = (slot == some p && w.consumed.testBit i) := by
  rw [takes, shows, hslot, Option.some_beq_some]
  cases hp : slot == some p with
  | false => rfl
  | true =>
    have hmask : w.1.mask.testBit i = true := by
      rw [Round.testBit_mask hslot, eq_of_beq hp, Option.isSome_some]
    rw [consumed]
    cases w.2 <;> simp [hmask, Nat.testBit_and]

end WalkStep

/-- The entry of the tree at a position was consumed in some round of a log. -/
def takenIn (log : List (WalkStep ε)) (i : Nat) (p : Placed) : Bool := log.any (·.takes i p)

theorem takenIn_concat (log : List (WalkStep ε)) (w : WalkStep ε) (i : Nat) (p : Placed) :
    takenIn (log ++ [w]) i p = (takenIn log i p || w.takes i p) := by
  simp [takenIn]

/-- The trees from the first entry on that was not consumed. -/
def ahead (trees : List (List Placed)) (log : List (WalkStep ε)) : List (List Placed) :=
  trees.mapIdx fun i tree => tree.dropWhile (takenIn log i)

/-- The round that comes after a log. -/
def roundAfter (trees : List (List Placed)) (log : List (WalkStep ε)) : Option Round :=
  (leastName (frontNames (ahead trees log))).map (gather (ahead trees log))

/-- Each round of the log is the one that comes after the log before it. -/
def Replays (trees : List (List Placed)) (log : List (WalkStep ε)) : Prop :=
  ∀ k w, log[k]? = some w → roundAfter trees (log.take k) = some w.1

/-- What is ahead in a tree starts at the first entry that was not taken. -/
theorem getElem?_ahead {trees : List (List Placed)} {log : List (WalkStep ε)} {i : Nat} :
    (ahead trees log)[i]? = trees[i]?.map (·.dropWhile (takenIn log i)) :=
  List.getElem?_mapIdx

theorem Replays.nil (trees : List (List Placed)) : Replays trees ([] : List (WalkStep ε)) := by
  intro k w h
  cases h

/-- A log that goes on with the next round. -/
theorem Replays.concat {trees : List (List Placed)} {log : List (WalkStep ε)} {w : WalkStep ε}
    (h : Replays trees log) (hw : roundAfter trees log = some w.1) :
    Replays trees (log ++ [w]) := by
  intro k v hv
  rcases Nat.lt_trichotomy k log.length with hlt | rfl | hgt
  · rw [List.getElem?_append_left hlt] at hv
    rw [List.take_append_of_le_length (Nat.le_of_lt hlt)]
    exact h k v hv
  · rw [List.getElem?_concat_length, Option.some.injEq] at hv
    rw [List.take_left, ← hv, hw]
  · have hlen : (log ++ [w]).length ≤ k := by
      simp only [List.length_append, List.length_singleton]
      omega
    rw [List.getElem?_eq_none hlen] at hv
    cases hv

namespace Lane

variable {l : Lane} {tree : List Placed} {gone : Placed → Bool} {p : Placed}

/-- The lane has the entries of its tree to offer that are not gone, and is somewhere in the tree.
-/
structure Follows (l : Lane) (tree : List Placed) (gone : Placed → Bool) : Prop where
  sound : l.Sound
  left : l.left = tree.filter (!gone ·)
  suffix : l.cursor.pending <:+ tree

/-- A lane that stands at the first entry to offer stands at the first that is not gone. -/
theorem Follows.pending_eq (h : l.Follows tree gone) (hs : Stored tree)
    (hhead : l.cursor.pending.head? = l.left.head?) :
    l.cursor.pending = tree.dropWhile gone := by
  obtain ⟨before, htree⟩ := h.suffix
  have hgone : ∀ q ∈ before, gone q = true := by
    intro q hq
    by_contra hleft
    have hmem : q ∈ l.left := by
      rw [h.left, List.mem_filter, ← htree]
      exact ⟨List.mem_append_left _ hq, by simpa using hleft⟩
    have hnodup : (before ++ l.cursor.pending).Nodup := htree ▸ hs.offsets.of_map _
    exact (List.nodup_append.mp hnodup).2.2 q hq q (mem_left.mp hmem).1 rfl
  rw [← htree, List.dropWhile_append_of_pos hgone]
  cases hp : l.cursor.pending with
  | nil => rfl
  | cons q rest =>
    have hmem : q ∈ l.left := List.mem_of_mem_head? (by rw [← hhead, hp]; rfl)
    rw [h.left, List.mem_filter] at hmem
    rw [List.dropWhile_cons_of_neg (by simpa using hmem.2)]

/-- Settling brings the first entry that is not gone to the front. -/
theorem settle_follows (h : l.Sound) :
    ∃ l', l.settle = .ok l' ∧ ∀ tree gone, Stored tree → l.Follows tree gone →
      l'.Follows tree gone ∧ l'.cursor.pending = tree.dropWhile gone := by
  obtain ⟨l', hok, hsound, hleft, _, hhead⟩ := settle_spec h
  refine ⟨l', hok, fun tree gone hs hf => ?_⟩
  have hf' : l'.Follows tree gone :=
    ⟨hsound, hleft.trans hf.left, (settle_suffix hok).trans hf.suffix⟩
  exact ⟨hf', hf'.pending_eq hs hhead⟩

/-- Consuming an entry makes it gone. -/
theorem Follows.consume (h : l.Follows tree gone) (hs : Stored tree) (hp : p ∈ l.cursor.pending) :
    ∃ l', l.consume p = .ok l' ∧ l'.Follows tree fun q => gone q || q == p := by
  obtain ⟨l', hok, hsound, hleft, _⟩ := consume_spec h.sound hp
  refine ⟨l', hok, hsound, ?_, (consume_suffix hok).trans h.suffix⟩
  rw [hleft, h.left, List.filter_filter]
  apply List.filter_congr
  intro q hq
  by_cases hqp : q = p
  · simp [hqp]
  · have ho : q.offset ≠ p.offset := fun ho => hqp (hs.eq_of_offset hq (h.suffix.subset hp) ho)
    rw [bne_iff_ne.mpr ho, beq_eq_false_iff_ne.mpr hqp, Bool.or_false, Bool.true_and]

/-- Consumes what a slot holds, if it is to be consumed. -/
def consumeSlot (l : Lane) (slot : Option Placed) (used : Bool) : Except TreeError Lane :=
  match slot with
  | some p => if used then l.consume p else .ok l
  | none => .ok l

/-- Consuming a slot makes just its entry gone. -/
theorem Follows.consumeSlot (h : l.Follows tree gone) (hs : Stored tree) {slot : Option Placed}
    (hslot : ∀ p ∈ slot, p ∈ l.cursor.pending) (used : Bool) :
    ∃ l', l.consumeSlot slot used = .ok l' ∧
      l'.Follows tree fun q => gone q || (slot == some q && used) := by
  have hsame {gone' : Placed → Bool} (hg : ∀ q, gone' q = gone q) : l.Follows tree gone' :=
    (funext hg : gone' = gone) ▸ h
  cases slot with
  | none => exact ⟨l, rfl, hsame fun q => by simp⟩
  | some p =>
    cases used with
    | false => exact ⟨l, rfl, hsame fun q => by simp⟩
    | true =>
      obtain ⟨l', hok, hf⟩ := h.consume hs (hslot p rfl)
      refine ⟨l', hok, ?_⟩
      have hflip : (fun q => gone q || (some p == some q && true)) = fun q => gone q || q == p := by
        funext q
        rw [Option.some_beq_some, Bool.and_true, BEq.comm]
      rw [hflip]
      exact hf

end Lane

private theorem consumeRound_cons (mask : Nat) (l : Lane) (lanes : List Lane)
    (slot : Option Placed) (slots : List (Option Placed)) :
    consumeRound mask (l :: lanes) (slot :: slots) =
      match l.consumeSlot slot (mask.testBit 0) with
      | .error e => .error e
      | .ok l =>
        match consumeRound (mask / 2) lanes slots with
        | .error e => .error e
        | .ok lanes => .ok (l :: lanes) := rfl

/-- Consuming a round consumes the slots of which the bit is set. -/
theorem consumeRound_getElem? {P : Nat → Lane → Prop} {lanes : List Lane}
    {slots : List (Option Placed)} (mask : Nat) (hlen : lanes.length = slots.length)
    (h : ∀ i l slot, lanes[i]? = some l → slots[i]? = some slot →
      ∃ l', l.consumeSlot slot (mask.testBit i) = .ok l' ∧ P i l') :
    ∃ lanes', consumeRound mask lanes slots = .ok lanes' ∧ lanes'.length = lanes.length ∧
      ∀ i l', lanes'[i]? = some l' → P i l' := by
  induction lanes generalizing slots mask P with
  | nil => exact ⟨[], rfl, rfl, fun i l' hl' => by cases hl'⟩
  | cons l lanes ih =>
    cases slots with
    | nil => cases hlen
    | cons slot slots =>
      obtain ⟨l', hok, hP⟩ := h 0 l slot rfl rfl
      obtain ⟨lanes', hoks, hlen', hPs⟩ := ih (P := fun i => P (i + 1)) (mask / 2)
        (Nat.succ.inj hlen) fun i m slot' hm hslot => by
          rw [← Nat.testBit_add_one]
          exact h (i + 1) m slot' hm hslot
      refine ⟨l' :: lanes', by rw [consumeRound_cons, hok, hoks], congrArg (· + 1) hlen', ?_⟩
      intro i m hm
      cases i with
      | zero =>
        cases hm
        exact hP
      | succ i => exact hPs i m hm

/-- Lanes that stand where a log has brought them. -/
structure Tracks (lanes : List Lane) (trees : List (List Placed)) (log : List (WalkStep ε)) :
    Prop where
  length_eq : lanes.length = trees.length
  follows : ∀ (i : Nat) (l : Lane) (tree : List Placed), lanes[i]? = some l →
    trees[i]? = some tree → l.Follows tree (takenIn log i)

namespace Tracks

variable {lanes : List Lane} {trees : List (List Placed)} {log : List (WalkStep ε)}

/-- Cursors at the start of well-formed trees. -/
theorem start {cursors : List Cursor} (hw : ∀ c ∈ cursors, c.WellFormed) :
    Tracks (cursors.map fun c => ⟨c, []⟩) (cursors.map Cursor.pending)
      ([] : List (WalkStep ε)) where
  length_eq := by simp only [List.length_map]
  follows i l tree hl ht := by
    rw [List.getElem?_map, Option.map_eq_some_iff] at hl ht
    obtain ⟨c, hc, rfl⟩ := hl
    obtain ⟨c', hc', rfl⟩ := ht
    obtain rfl := Option.some.inj (hc.symm.trans hc')
    have hwf := hw c (List.mem_of_getElem? hc)
    exact ⟨⟨hwf.fault_eq_none, hwf.stored⟩, by simp [Lane.left, takenIn], List.suffix_rfl⟩

/-- Each lane belongs to a tree. -/
theorem getElem?_tree (h : Tracks lanes trees log) {i : Nat} {l : Lane} (hl : lanes[i]? = some l) :
    ∃ tree, trees[i]? = some tree := by
  have hlt := (List.getElem?_eq_some_iff.mp hl).1
  rw [h.length_eq] at hlt
  exact ⟨_, List.getElem?_eq_getElem hlt⟩

/-- Lanes that follow a log are sound. -/
theorem sound (h : Tracks lanes trees log) : ∀ l ∈ lanes, l.Sound := by
  intro l hl
  obtain ⟨i, hi⟩ := List.mem_iff_getElem?.mp hl
  obtain ⟨tree, ht⟩ := h.getElem?_tree hi
  exact (h.follows i l tree hi ht).sound

/-- Settling all lanes brings them to what is ahead. -/
theorem settle (h : Tracks lanes trees log) (hs : ∀ t ∈ trees, Stored t) :
    ∃ lanes', attemptAll Lane.settle lanes = .ok lanes' ∧ Tracks lanes' trees log ∧
      lanes'.map (·.cursor.pending) = ahead trees log := by
  obtain ⟨lanes', hok, hcount, hall⟩ :=
    attemptAll_getElem? fun l hl => Lane.settle_follows (h.sound l hl)
  have hlen : lanes'.length = trees.length := hcount.trans h.length_eq
  have hlane (i : Nat) (l' : Lane) (tree : List Placed) (hl' : lanes'[i]? = some l')
      (ht : trees[i]? = some tree) :
      l'.Follows tree (takenIn log i) ∧ l'.cursor.pending = tree.dropWhile (takenIn log i) := by
    have hlt : i < lanes.length := hcount ▸ (List.getElem?_eq_some_iff.mp hl').1
    have hl : lanes[i]? = some lanes[i] := List.getElem?_eq_getElem hlt
    exact hall i _ l' hl hl' tree _ (hs tree (List.mem_of_getElem? ht)) (h.follows i _ tree hl ht)
  refine ⟨lanes', hok, ⟨hlen, fun i l' tree hl' ht => (hlane i l' tree hl' ht).1⟩, ?_⟩
  apply List.ext_getElem?
  intro i
  rw [List.getElem?_map, getElem?_ahead]
  rcases Nat.lt_or_ge i trees.length with hlt | hge
  · have hl' : lanes'[i]? = some lanes'[i] := List.getElem?_eq_getElem (hlen ▸ hlt)
    have ht : trees[i]? = some trees[i] := List.getElem?_eq_getElem hlt
    rw [hl', ht, Option.map_some, Option.map_some, (hlane i _ _ hl' ht).2]
  · rw [List.getElem?_eq_none hge, List.getElem?_eq_none (hlen ▸ hge)]
    rfl

/-- The next round is the one that the log determines. -/
theorem nextRound (h : Tracks lanes trees log) (hs : ∀ t ∈ trees, Stored t) :
    ∃ lanes', GitRemote.nextRound lanes = .ok (lanes', roundAfter trees log) ∧
      Tracks lanes' trees log ∧ lanes'.map (·.cursor.pending) = ahead trees log := by
  obtain ⟨lanes', hok, htracks, hahead⟩ := h.settle hs
  refine ⟨lanes', ?_, htracks, hahead⟩
  rw [nextRound_of_settle hok htracks.sound, hahead, roundAfter]

/-- Consuming what the next step consumes brings the lanes to where the longer log says. -/
theorem consumeRound (h : Tracks lanes trees log) (hs : ∀ t ∈ trees, Stored t)
    (hahead : lanes.map (·.cursor.pending) = ahead trees log) {w : WalkStep ε} {n : Bytes}
    (hw : w.1 = gather (ahead trees log) n) :
    ∃ lanes', GitRemote.consumeRound w.consumed lanes w.1.slots = .ok lanes' ∧
      Tracks lanes' trees (log ++ [w]) := by
  have hfind : w.1.slots = lanes.map fun l => l.cursor.pending.find? (·.entry.name == n) := by
    rw [hw, gather, ← hahead, List.map_map]
    rfl
  have hlen : lanes.length = w.1.slots.length := by rw [hfind, List.length_map]
  have hlane (i : Nat) (l : Lane) (slot : Option Placed) (hl : lanes[i]? = some l)
      (hslot : w.1.slots[i]? = some slot) :
      ∃ l', l.consumeSlot slot (w.consumed.testBit i) = .ok l' ∧
        ∀ tree, trees[i]? = some tree → l'.Follows tree (takenIn (log ++ [w]) i) := by
    obtain ⟨tree, ht⟩ := h.getElem?_tree hl
    have hmem : ∀ p ∈ slot, p ∈ l.cursor.pending := by
      intro p hp
      rw [hfind, List.getElem?_map, hl, Option.map_some, Option.some.injEq] at hslot
      exact List.mem_of_find?_eq_some (hslot.trans hp)
    obtain ⟨l', hok, hf⟩ := (h.follows i l tree hl ht).consumeSlot
      (hs tree (List.mem_of_getElem? ht)) hmem (w.consumed.testBit i)
    refine ⟨l', hok, fun tree' ht' => ?_⟩
    have htaken : takenIn (log ++ [w]) i =
        fun q => takenIn log i q || (slot == some q && w.consumed.testBit i) := by
      funext q
      rw [takenIn_concat, WalkStep.takes_eq hslot]
    rw [← Option.some.inj (ht.symm.trans ht'), htaken]
    exact hf
  obtain ⟨lanes', hok, hlen', hfollows⟩ := consumeRound_getElem? w.consumed hlen hlane
  exact ⟨lanes', hok, hlen'.trans h.length_eq, fun i l tree hl ht => hfollows i l hl tree ht⟩

end Tracks

/-- Without a pathspec a walk's log replays the trees, and at the end of a walk that succeeds
nothing is ahead. -/
theorem rounds_replay {lift : TreeError → ε} {f : Frame} {visit : Visitor σ ε}
    (hp : f.pathspec = none) {trees : List (List Placed)} (hs : ∀ t ∈ trees, Stored t)
    {lanes : List Lane} {log : List (WalkStep ε)} (h : Tracks lanes trees log)
    (hlog : Replays trees log) (fuel : Nat) (so : Interest) (failed : Option ε) (s : σ) :
    Replays trees (rounds lift f visit.logged fuel lanes so failed (s, log)).2.2 ∧
      ((rounds lift f visit.logged fuel lanes so failed (s, log)).1 = .ok () →
        roundAfter trees (rounds lift f visit.logged fuel lanes so failed (s, log)).2.2 =
          none) := by
  -- The lanes track the log: a round is the one the log determines, and both go on with its answer.
  induction fuel generalizing lanes log so failed s with
  | zero => exact ⟨hlog, fun hok => by cases hok⟩
  | succ fuel ih =>
    obtain ⟨lanes', hnext, htracks, hahead⟩ := h.nextRound hs
    rw [rounds, hnext]
    cases hround : roundAfter trees log with
    | none => exact ⟨hlog, fun _ => hround⟩
    | some r =>
      obtain ⟨n, hn, rfl⟩ := Option.map_eq_some_iff.mp hround
      obtain ⟨w, hw⟩ := exists_winner (occurs_of_leastName hn)
      have hstep (answer : Except ε Nat) :
          Replays trees (log ++ [(gather (ahead trees log) n, answer)]) := hlog.concat hround
      simp only [Option.bind_some, hw, Option.map_some, narrow, hp, reduceCtorEq, ite_false,
        Interest.isInteresting, ite_true, Visitor.logged]
      cases hvis : visit f (gather (ahead trees log) n) s with
      | mk answer s' =>
        obtain ⟨lanes'', hconsume, htracks'⟩ := htracks.consumeRound hs hahead
          (w := (gather (ahead trees log) n, answer)) rfl
        cases answer with
        | ok used =>
          simp only [WalkStep.consumed] at hconsume
          simp only [hconsume]
          exact ih htracks' (hstep _) _ _ _
        | error e =>
          simp only [WalkStep.consumed] at hconsume
          by_cases hshow : f.options.showAllErrors = true
          · simp only [hshow, ite_true, hconsume]
            exact ih htracks' (hstep _) _ _ _
          · simp only [hshow]
            exact ⟨hstep _, fun hok => by cases hok⟩

/-- What a walk hands to its visitor, with the answers. -/
def walkLog (lift : TreeError → ε) (f : Frame) (cursors : List Cursor) (visit : Visitor σ ε)
    (s : σ) (patience : Nat) : List (WalkStep ε) :=
  (walk lift f cursors visit.logged (s, []) patience).2.2

/-- The log of a walk over well-formed trees replays them, whatever the visitor leaves. -/
theorem walkLog_replays {lift : TreeError → ε} {f : Frame} {visit : Visitor σ ε}
    {cursors : List Cursor} (hw : ∀ c ∈ cursors, c.WellFormed) (hp : f.pathspec = none) (s : σ)
    (patience : Nat) :
    Replays (cursors.map Cursor.pending) (walkLog lift f cursors visit s patience) ∧
      ((walk lift f cursors visit s patience).1 = .ok () →
        roundAfter (cursors.map Cursor.pending) (walkLog lift f cursors visit s patience) =
          none) := by
  rw [← (walk_logged lift f cursors visit s [] patience).1, walkLog, walk]
  split
  · exact ⟨.nil _, fun hok => by cases hok⟩
  · split
    · exact ⟨.nil _, fun hok => by cases hok⟩
    · exact rounds_replay hp (Cursor.stored_pending hw) (Tracks.start hw) (.nil _) _ _ _ _

end GitRemote
