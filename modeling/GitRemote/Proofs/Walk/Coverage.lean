import GitRemote.Proofs.Tree.Written
import GitRemote.Proofs.Walk.Log

/-!
# Every name once

Without a pathspec, a walk over well-formed trees presents each name that occurs in some tree
exactly once, with the entry of every tree that has it, to a visitor that consumes what it is
offered. A name comes behind a greater one only if that one continues it with a byte below the
slash.
-/

namespace GitRemote

variable {σ ε : Type}

/-- A round that shows a name as these trees have it. -/
structure Round.Presents (r : Round) (cursors : List Cursor) (name : Bytes) : Prop where
  length_eq : r.entries.length = cursors.length
  entry : ∀ (i : Nat) (e : Entry), r.entries[i]? = some (some e) ↔
    ∃ c, cursors[i]? = some c ∧ e ∈ c.entries ∧ e.name = name
  mask : ∀ i, r.mask.testBit i = true ↔
    ∃ c, cursors[i]? = some c ∧ ∃ e ∈ c.entries, e.name = name
  dirMask : ∀ i, r.dirMask.testBit i = true ↔
    ∃ c, cursors[i]? = some c ∧ ∃ e ∈ c.entries, e.name = name ∧ e.isDir = true

/-- A bit of a set tells whether the list is true there. -/
theorem testBit_bitSet (l : List Bool) (i : Nat) :
    (bitSet l).testBit i = true ↔ l[i]? = some true := by
  induction l generalizing i with
  | nil => simp [bitSet]
  | cons b l ih =>
    cases i with
    | zero => cases b <;> simp [bitSet, Nat.testBit_zero]
    | succ i =>
      have hhalf : (b.toNat + 2 * bitSet l) / 2 = bitSet l := by
        have hb := Bool.toNat_le b
        omega
      rw [bitSet, Nat.testBit_add_one, hhalf, ih, List.getElem?_cons_succ]

/-- A round's mask tells which slots hold an entry. -/
theorem Round.testBit_mask {r : Round} {i : Nat} {slot : Option Placed}
    (h : r.slots[i]? = some slot) : r.mask.testBit i = slot.isSome := by
  rw [Bool.eq_iff_iff, Round.mask, testBit_bitSet, List.getElem?_map, h, Option.map_some,
    Option.some.injEq]

/-- The slot of a tree holds its entry of the name, if it has one. -/
theorem getElem?_slots_gather {cursors : List Cursor} {name : Bytes} {i : Nat}
    {slot : Option Placed} :
    (gather (cursors.map Cursor.pending) name).slots[i]? = some slot ↔
      ∃ c, cursors[i]? = some c ∧ c.pending.find? (·.entry.name == name) = slot := by
  simp only [gather, List.map_map, List.getElem?_map, Option.map_eq_some_iff,
    Function.comp_apply]

/-- What a slot holds is what the tree has of that name. -/
theorem slot_gather {cursors : List Cursor} (hw : ∀ c ∈ cursors, c.WellFormed) {name : Bytes}
    {i : Nat} {p : Placed} :
    (gather (cursors.map Cursor.pending) name).slots[i]? = some (some p) ↔
      ∃ c, cursors[i]? = some c ∧ p ∈ c.pending ∧ p.entry.name = name := by
  rw [getElem?_slots_gather]
  refine exists_congr fun c => and_congr_right fun hc => ?_
  exact (hw c (List.mem_of_getElem? hc)).stored.find?_eq_some

/-- A mask of what slots hold tells which trees have such an entry of that name. -/
theorem testBit_gather {cursors : List Cursor} (hw : ∀ c ∈ cursors, c.WellFormed) {name : Bytes}
    (P : Entry → Bool) (i : Nat) :
    (bitSet ((gather (cursors.map Cursor.pending) name).slots.map
        (·.any fun p => P p.entry))).testBit i = true ↔
      ∃ c, cursors[i]? = some c ∧ ∃ e ∈ c.entries, e.name = name ∧ P e = true := by
  rw [testBit_bitSet, List.getElem?_map, Option.map_eq_some_iff]
  constructor
  · rintro ⟨slot | p, hs, hP⟩
    · cases hP
    obtain ⟨c, hc, hp, hname⟩ := (slot_gather hw).mp hs
    exact ⟨c, hc, p.entry, List.mem_map_of_mem hp, hname, hP⟩
  · rintro ⟨c, hc, e, he, hname, hP⟩
    obtain ⟨p, hp, rfl⟩ := List.mem_map.mp he
    exact ⟨some p, (slot_gather hw).mpr ⟨c, hc, hp, hname⟩, hP⟩

/-- The round of a name shows it as the trees have it. -/
theorem presents_gather {cursors : List Cursor} (hw : ∀ c ∈ cursors, c.WellFormed)
    (name : Bytes) : (gather (cursors.map Cursor.pending) name).Presents cursors name := by
  refine ⟨by simp [Round.entries, gather], ?_, ?_, testBit_gather hw _⟩
  · intro i e
    rw [Round.entries, List.getElem?_map, Option.map_eq_some_iff]
    constructor
    · rintro ⟨slot, hs, he⟩
      obtain ⟨p, rfl, rfl⟩ := Option.map_eq_some_iff.mp he
      obtain ⟨c, hc, hp, hname⟩ := (slot_gather hw).mp hs
      exact ⟨c, hc, List.mem_map_of_mem hp, hname⟩
    · rintro ⟨c, hc, he, hname⟩
      obtain ⟨p, hp, rfl⟩ := List.mem_map.mp he
      exact ⟨some p, (slot_gather hw).mpr ⟨c, hc, hp, hname⟩, rfl⟩
  · intro i
    have hsome : (Option.isSome : Option Placed → Bool) = (·.any fun _ => true) :=
      funext fun slot => by cases slot <;> rfl
    rw [Round.mask, hsome, testBit_gather hw fun _ => true]
    simp only [and_true]

/-- Of two members of a list, one comes before the other. -/
theorem sublist_or_of_pairwise {names : List Bytes} {R : Bytes → Bytes → Prop}
    (h : names.Pairwise R) {x y : Bytes} (hx : x ∈ names) (hy : y ∈ names) (hne : x ≠ y) :
    [x, y].Sublist names ∨ R y x := by
  induction names with
  | nil => cases hx
  | cons n names ih =>
    rw [List.pairwise_cons] at h
    rcases List.mem_cons.mp hx with rfl | hx'
    · rcases List.mem_cons.mp hy with rfl | hy'
      · exact absurd rfl hne
      · exact Or.inl ((List.singleton_sublist.mpr hy').cons_cons x)
    · rcases List.mem_cons.mp hy with rfl | hy'
      · exact Or.inr (h.1 x hx')
      · exact (ih h.2 hx' hy').imp (fun hs => hs.cons n) id

/-- Without a pathspec, a visitor that consumes what it is offered is shown each name in the trees
once. Of two names the lesser comes first, unless the greater continues it with a byte below the
slash. -/
theorem walk_presents_each_name_once {lift : TreeError → ε} {f : Frame} {visit : Visitor σ ε}
    {cursors : List Cursor} (hw : ∀ c ∈ cursors, c.WellFormed) (hn : cursors.length ≤ maxTrees)
    (hd : f.depth ≤ f.options.maxDepth) (hp : f.pathspec = none)
    (hv : visit.ConsumesAll f cursors.length) (s : σ) (patience : Nat) :
    ∃ names : List Bytes, names.Nodup ∧
      (∀ n, n ∈ names ↔ ∃ c ∈ cursors, ∃ e ∈ c.entries, e.name = n) ∧
      List.Forall₂ (fun r n => r.Presents cursors n)
        (walkedRounds lift f cursors visit s patience) names ∧
      ∀ x ∈ names, ∀ y ∈ names, x < y → [x, y].Sublist names ∨ Continues x y := by
  have hst := Cursor.stored_pending hw
  refine ⟨nameOrder (cursors.map Cursor.pending), nodup_nameOrder _, ?_, ?_, ?_⟩
  · intro n
    simp only [mem_nameOrder, Occurs, Cursor.entries, List.mem_map, exists_exists_and_eq_and]
  · rw [walkedRounds_eq hw hn hd hv,
      offered_of_pathspec_none hp fun r hr => exists_winner_of_mem_levelRounds hr,
      levelRounds, List.forall₂_map_left_iff, List.forall₂_same]
    exact fun n _ => presents_gather hw n
  · intro x hx y hy hlt
    have hne : x ≠ y := fun he => Std.lt_irrefl (he ▸ hlt)
    exact (sublist_or_of_pairwise (pairwise_nameOrder _ hst) hx hy hne).imp id fun hc => hc hlt

/-- The file `t-2` stored before the directory `t`, and a tree that starts with the directory `t`.
-/
def lookaheadTrees : List Cursor :=
  [Cursor.scan (treeOf [.file [0x74, 0x2D, 0x32] 1, .directory [0x74] 2]),
    Cursor.scan (treeOf [.directory [0x74] 3])]

theorem wellFormed_lookaheadTrees : ∀ c ∈ lookaheadTrees, c.WellFormed := by
  simp only [lookaheadTrees, List.mem_cons, List.not_mem_nil, or_false, forall_eq_or_imp, forall_eq]
  exact ⟨wellFormed_treeOf (by decide) (by decide) (by decide),
    wellFormed_treeOf (by decide) (by decide) (by decide)⟩

/-- Fails on the first round it is offered, and consumes all others. -/
def failsOnce : Visitor Bool TreeError :=
  fun _ r failed => if failed then (.ok r.mask, true) else (.error .stalled, true)

/-- Where all errors are shown, a visitor that fails once counts as one that consumes everything. -/
theorem consumesAll_failsOnce {f : Frame} (h : f.options.showAllErrors = true) (n : Nat) :
    failsOnce.ConsumesAll f n := by
  refine ⟨?_, fun _ _ _ _ _ => h⟩
  intro r failed used _ hused
  cases failed with
  | false => cases hused
  | true =>
    cases hused
    exact Nat.and_self r.mask

/-- The walk over a name that hides behind another, with a visitor that fails once. -/
theorem walk_presents_each_name_once_lookahead :
    ∃ names : List Bytes, names.Nodup ∧
      (∀ n, n ∈ names ↔ ∃ c ∈ lookaheadTrees, ∃ e ∈ c.entries, e.name = n) ∧
      List.Forall₂ (fun r n => r.Presents lookaheadTrees n)
        (walkedRounds id { options := { showAllErrors := true } } lookaheadTrees failsOnce false 0)
        names ∧
      ∀ x ∈ names, ∀ y ∈ names, x < y → [x, y].Sublist names ∨ Continues x y :=
  walk_presents_each_name_once wellFormed_lookaheadTrees (by decide) (by decide) rfl
    (consumesAll_failsOnce rfl 2) false 0

end GitRemote
