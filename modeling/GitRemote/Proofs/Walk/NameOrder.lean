import GitRemote.Proofs.Tree.WellFormed

/-!
# The order in which a walk offers names

Each round takes the least of the names at the front of what is left of the trees, and removes it
everywhere. `nameOrder` is the resulting list of names. Every name comes exactly once, and a greater
name comes before a lesser one only if it continues that one with a byte below the slash.
-/

namespace GitRemote

/-- What is left of a tree without the entry of a name. -/
def without (name : Bytes) (tree : List Placed) : List Placed :=
  tree.filter (·.entry.name != name)

/-- What is left of some trees without a name. -/
def dropName (name : Bytes) (trees : List (List Placed)) : List (List Placed) :=
  trees.map (without name)

/-- The names at the front of some trees. -/
def frontNames (trees : List (List Placed)) : List Bytes :=
  trees.filterMap fun t => t.head?.map (·.entry.name)

/-- Whether a name occurs in some tree. -/
def Occurs (trees : List (List Placed)) (name : Bytes) : Prop :=
  ∃ t ∈ trees, ∃ p ∈ t, p.entry.name = name

/-- The number of entries in some trees. -/
def treeSize (trees : List (List Placed)) : Nat := trees.flatten.length

theorem without_sublist (name : Bytes) (tree : List Placed) : (without name tree).Sublist tree :=
  List.filter_sublist

theorem mem_without {name : Bytes} {tree : List Placed} {p : Placed} :
    p ∈ without name tree ↔ p ∈ tree ∧ p.entry.name ≠ name := by
  simp [without]

/-- By induction over the names, the least one so far is one of them and no more than any. -/
private theorem foldl_least (names : List Bytes) (n : Bytes) :
    (names.foldl (fun a b => if compareNames b a = .lt then b else a) n ∈ n :: names) ∧
      ∀ m ∈ n :: names,
        names.foldl (fun a b => if compareNames b a = .lt then b else a) n ≤ m := by
  induction names generalizing n with
  | nil => simp [Std.le_refl]
  | cons b names ih =>
    rw [List.foldl_cons]
    by_cases hlt : compareNames b n = .lt
    · obtain ⟨hmem, hle⟩ := ih b
      rw [if_pos hlt]
      refine ⟨List.mem_cons_of_mem n hmem, ?_⟩
      intro m hm
      rcases List.mem_cons.mp hm with rfl | hm
      · exact Std.le_trans (hle b (List.mem_cons_self ..))
          (Std.le_of_lt (compareNames_eq_lt.mp hlt))
      · exact hle m hm
    · obtain ⟨hmem, hle⟩ := ih n
      rw [if_neg hlt]
      constructor
      · rcases List.mem_cons.mp hmem with he | hmem
        · rw [he]
          exact List.mem_cons_self ..
        · exact List.mem_cons_of_mem n (List.mem_cons_of_mem b hmem)
      · intro m hm
        rcases List.mem_cons.mp hm with rfl | hm
        · exact hle m (List.mem_cons_self ..)
        · rcases List.mem_cons.mp hm with rfl | hm
          · have hnb : n ≤ m := Std.not_lt.mp fun h => hlt (compareNames_eq_lt.mpr h)
            exact Std.le_trans (hle n (List.mem_cons_self ..)) hnb
          · exact hle m (List.mem_cons_of_mem n hm)

/-- The least name is one of the names, and none is less. -/
theorem leastName_eq_some {names : List Bytes} {n : Bytes} (h : leastName names = some n) :
    n ∈ names ∧ ∀ m ∈ names, n ≤ m := by
  cases names with
  | nil => cases h
  | cons m names =>
    cases h
    exact foldl_least names m

theorem leastName_eq_none {names : List Bytes} : leastName names = none ↔ names = [] := by
  cases names <;> simp [leastName]

/-- A name at the front of a tree occurs. -/
theorem occurs_of_mem_frontNames {trees : List (List Placed)} {name : Bytes}
    (h : name ∈ frontNames trees) : Occurs trees name := by
  obtain ⟨t, ht, hhead⟩ := List.mem_filterMap.mp h
  obtain ⟨p, hp, hname⟩ := Option.map_eq_some_iff.mp hhead
  exact ⟨t, ht, p, List.mem_of_mem_head? hp, hname⟩

theorem occurs_of_leastName {trees : List (List Placed)} {name : Bytes}
    (h : leastName (frontNames trees) = some name) : Occurs trees name :=
  occurs_of_mem_frontNames (leastName_eq_some h).1

/-- Taking away a name that a tree has makes it shorter. -/
private theorem length_without_lt {name : Bytes} {tree : List Placed} {p : Placed}
    (hp : p ∈ tree) (hname : p.entry.name = name) : (without name tree).length < tree.length := by
  refine Nat.lt_of_le_of_ne (without_sublist name tree).length_le ?_
  intro he
  have hall := (without_sublist name tree).eq_of_length he
  have hmem : p ∈ without name tree := by rwa [hall]
  exact (mem_without.mp hmem).2 hname

/-- Taking away a name makes no tree longer. -/
theorem treeSize_dropName_le (name : Bytes) (trees : List (List Placed)) :
    treeSize (dropName name trees) ≤ treeSize trees := by
  induction trees with
  | nil => exact Nat.le_refl _
  | cons t trees ih =>
    have ht := (without_sublist name t).length_le
    simp only [treeSize, dropName, List.map_cons, List.flatten_cons, List.length_append] at ih ⊢
    omega

/-- A round takes something away. -/
theorem treeSize_dropName_lt {trees : List (List Placed)} {name : Bytes}
    (h : Occurs trees name) : treeSize (dropName name trees) < treeSize trees := by
  obtain ⟨t, ht, p, hp, hname⟩ := h
  obtain ⟨before, after, rfl⟩ := List.append_of_mem ht
  have hlt := length_without_lt hp hname
  have hb := treeSize_dropName_le name before
  have ha := treeSize_dropName_le name after
  simp only [treeSize, dropName, List.map_append, List.map_cons, List.flatten_append,
    List.flatten_cons, List.length_append] at ha hb ⊢
  omega

/-- The names of some trees in the order in which a walk offers them. -/
def nameOrder (trees : List (List Placed)) : List Bytes :=
  match _h : leastName (frontNames trees) with
  | none => []
  | some n => n :: nameOrder (dropName n trees)
termination_by treeSize trees
decreasing_by exact treeSize_dropName_lt (occurs_of_leastName _h)

theorem nameOrder_of_none {trees : List (List Placed)}
    (h : leastName (frontNames trees) = none) : nameOrder trees = [] := by
  rw [nameOrder]
  split
  · rfl
  · next n hn => rw [h] at hn; cases hn

/-- The least name comes first, and then those of the trees without it. -/
theorem nameOrder_of_some {trees : List (List Placed)} {n : Bytes}
    (h : leastName (frontNames trees) = some n) :
    nameOrder trees = n :: nameOrder (dropName n trees) := by
  rw [nameOrder]
  split
  · next hn => rw [h] at hn; cases hn
  · next m hm =>
    rw [h] at hm
    cases hm
    rfl

/-- Induction along the rounds of a walk. -/
theorem nameOrder_induction {motive : List (List Placed) → Prop}
    (done : ∀ trees, leastName (frontNames trees) = none → motive trees)
    (round : ∀ trees n, leastName (frontNames trees) = some n →
      motive (dropName n trees) → motive trees)
    (trees : List (List Placed)) : motive trees := by
  induction hs : treeSize trees using Nat.strongRecOn generalizing trees with
  | ind size ih =>
    cases hl : leastName (frontNames trees) with
    | none => exact done trees hl
    | some n =>
      refine round trees n hl (ih _ ?_ _ rfl)
      rw [← hs]
      exact treeSize_dropName_lt (occurs_of_leastName hl)

/-- Taking away a name leaves all others. -/
theorem occurs_dropName {trees : List (List Placed)} {name m : Bytes} :
    Occurs (dropName name trees) m ↔ Occurs trees m ∧ m ≠ name := by
  constructor
  · rintro ⟨t', ht', p, hp, rfl⟩
    obtain ⟨t, ht, rfl⟩ := List.mem_map.mp ht'
    obtain ⟨hpt, hne⟩ := mem_without.mp hp
    exact ⟨⟨t, ht, p, hpt, rfl⟩, hne⟩
  · rintro ⟨⟨t, ht, p, hp, rfl⟩, hne⟩
    exact ⟨_, List.mem_map_of_mem ht, p, mem_without.mpr ⟨hp, hne⟩, rfl⟩

/-- Nothing is at the front only if nothing is left. -/
theorem not_occurs_of_leastName {trees : List (List Placed)}
    (h : leastName (frontNames trees) = none) (name : Bytes) : ¬ Occurs trees name := by
  rintro ⟨t, ht, p, hp, _⟩
  have hempty := leastName_eq_none.mp h
  cases hc : t with
  | nil => simp [hc] at hp
  | cons q rest =>
    have hq : q.entry.name ∈ frontNames trees := List.mem_filterMap.mpr ⟨t, ht, by simp [hc]⟩
    rw [hempty] at hq
    cases hq

/-- A walk offers the names that occur. -/
theorem mem_nameOrder {trees : List (List Placed)} {name : Bytes} :
    name ∈ nameOrder trees ↔ Occurs trees name := by
  induction trees using nameOrder_induction with
  | done trees h =>
    rw [nameOrder_of_none h]
    simpa using not_occurs_of_leastName h name
  | round trees n h ih =>
    rw [nameOrder_of_some h, List.mem_cons, ih, occurs_dropName]
    constructor
    · rintro (rfl | ⟨hocc, _⟩)
      · exact occurs_of_leastName h
      · exact hocc
    · intro hocc
      by_cases hn : name = n
      · exact Or.inl hn
      · exact Or.inr ⟨hocc, hn⟩

/-- A walk offers no name twice. -/
theorem nodup_nameOrder (trees : List (List Placed)) : (nameOrder trees).Nodup := by
  induction trees using nameOrder_induction with
  | done trees h => rw [nameOrder_of_none h]; exact List.nodup_nil
  | round trees n h ih =>
    rw [nameOrder_of_some h, List.nodup_cons]
    refine ⟨?_, ih⟩
    intro hn
    exact (occurs_dropName.mp (mem_nameOrder.mp hn)).2 rfl

/-- A walk has at most as many rounds as there are entries. -/
theorem length_nameOrder_le (trees : List (List Placed)) :
    (nameOrder trees).length ≤ treeSize trees := by
  induction trees using nameOrder_induction with
  | done trees h => rw [nameOrder_of_none h]; exact Nat.zero_le _
  | round trees n h ih =>
    rw [nameOrder_of_some h, List.length_cons]
    have hlt := treeSize_dropName_lt (occurs_of_leastName h)
    omega

theorem Stored.without {tree : List Placed} (h : Stored tree) (name : Bytes) :
    Stored (without name tree) :=
  h.sublist (without_sublist name tree)

/-- While a name is the least at the front, a lesser one is hidden behind names that continue it. -/
theorem continues_of_leastName {trees : List (List Placed)} (hs : ∀ t ∈ trees, Stored t)
    {n m : Bytes} (h : leastName (frontNames trees) = some n) (hm : Occurs trees m)
    (hlt : m < n) : Continues m n := by
  obtain ⟨t, ht, q, hq, rfl⟩ := hm
  cases hc : t with
  | nil => simp [hc] at hq
  | cons p rest =>
    have hst := hs t ht
    rw [hc] at hst hq
    have hfront : n ≤ p.entry.name :=
      (leastName_eq_some h).2 _ (List.mem_filterMap.mpr ⟨t, ht, by simp [hc]⟩)
    have hqp : q.entry.name < p.entry.name := Std.lt_of_lt_of_le hlt hfront
    have hrest : q ∈ rest := by
      rcases List.mem_cons.mp hq with rfl | hq
      · exact absurd hqp Std.lt_irrefl
      · exact hq
    have hcont := continues_of_storedKey_lt (hst.plain p (List.mem_cons_self ..))
      (List.rel_of_pairwise_cons hst.keys hrest) hqp
    exact hcont.of_between hlt hfront

/-- Names come in byte order, save that a name can come before one that it continues. -/
theorem pairwise_nameOrder (trees : List (List Placed)) (hs : ∀ t ∈ trees, Stored t) :
    (nameOrder trees).Pairwise fun n m => m < n → Continues m n := by
  induction trees using nameOrder_induction with
  | done trees h => rw [nameOrder_of_none h]; exact .nil
  | round trees n h ih =>
    rw [nameOrder_of_some h]
    refine List.pairwise_cons.mpr ⟨?_, ih ?_⟩
    · intro m hm
      exact continues_of_leastName hs h (occurs_dropName.mp (mem_nameOrder.mp hm)).1
    · intro t' ht'
      obtain ⟨t, ht, rfl⟩ := List.mem_map.mp ht'
      exact (hs t ht).without n

/-- The round in which a name is offered. -/
def gather (trees : List (List Placed)) (name : Bytes) : Round :=
  ⟨trees.map (·.find? (·.entry.name == name))⟩

/-- The rounds of a walk, if everything offered is consumed. -/
def levelRounds (trees : List (List Placed)) : List Round := (nameOrder trees).map (gather trees)

/-- Taking away a name does not change where another one is found. -/
theorem find?_without {name m : Bytes} (h : m ≠ name) (tree : List Placed) :
    (without name tree).find? (·.entry.name == m) = tree.find? (·.entry.name == m) := by
  rw [without, List.find?_filter]
  congr 1
  funext p
  by_cases hp : p.entry.name = m <;> simp [hp, h]

/-- Taking away a name does not change the round of another one. -/
theorem gather_dropName {name m : Bytes} (h : m ≠ name) (trees : List (List Placed)) :
    gather (dropName name trees) m = gather trees m := by
  simp only [gather, dropName, List.map_map, Round.mk.injEq]
  exact List.map_congr_left fun t _ => find?_without h t

theorem levelRounds_of_none {trees : List (List Placed)}
    (h : leastName (frontNames trees) = none) : levelRounds trees = [] := by
  rw [levelRounds, nameOrder_of_none h, List.map_nil]

/-- The round of the least name comes first, and then those of the trees without it. -/
theorem levelRounds_of_some {trees : List (List Placed)} {n : Bytes}
    (h : leastName (frontNames trees) = some n) :
    levelRounds trees = gather trees n :: levelRounds (dropName n trees) := by
  rw [levelRounds, nameOrder_of_some h, List.map_cons, levelRounds]
  congr 1
  apply List.map_congr_left
  intro m hm
  exact (gather_dropName (occurs_dropName.mp (mem_nameOrder.mp hm)).2 trees).symm

end GitRemote
