import GitRemote.Proofs.Diff.Differs
import GitRemote.Proofs.Diff.Kept
import GitRemote.Proofs.Diff.Sides
import Mathlib.Data.List.Nodup

/-!
# Differences are exact

Without a pathspec, the changes between two trees are the differences of their leaves: what a round
yields are the differences of the leaves under its name, and the names of a directory are kept apart
by the first name in a path.
-/

namespace GitRemote

variable {source : ObjectSource} {f : Frame} {o n c : Cursor} {name : Bytes}
  {old new root : Option ObjectId} {levels : Nat}

/-- A frame without a pathspec whose walk ends at the first error. -/
structure Frame.Whole (f : Frame) : Prop where
  pathspec : f.pathspec = none
  strict : f.options.showAllErrors = false
  named : ∀ name ∈ f.names, name ≠ []

/-- Entering a directory leaves a frame without limits. -/
theorem Frame.Whole.child (h : f.Whole) (hn : name ≠ []) : (f.child name).Whole where
  pathspec := h.pathspec
  strict := h.strict
  named := List.forall_mem_cons.mpr ⟨hn, h.named⟩

/-- That comparing goes on without a failure as long as there are levels left. -/
def Succeeds (source : ObjectSource) (levels : Nat) : Prop :=
  ∀ (f : Frame) (old new : Option ObjectId) (o n : Cursor), f.Whole →
    f.depth + levels ≤ f.options.maxDepth → Sides source old new o n →
      source.Nested levels old → source.Nested levels new →
        ∃ changes, diffBelow source (levels + 1) f o n [] = (.ok (), changes)

/-- That comparing lists the differences of leaves, if it meets no failure. -/
def ListsDifferences (source : ObjectSource) (levels : Nat) : Prop :=
  ∀ (f : Frame) (old new : Option ObjectId) (o n : Cursor) (changes : List Change), f.Whole →
    Sides source old new o n → diffBelow source levels f o n [] = (.ok (), changes) →
      Exact (Leaf source f.base old) (Leaf source f.base new) changes

/-- Under a name whose entries are the same there is no difference. -/
theorem not_differs_of_unchanged (h : Sides source old new o n) {base : Bytes} {change : Change}
    (hs : unchanged (o.entryOf name) (n.entryOf name) = true) :
    ¬ Differs (SideLeaf source base (o.entryOf name)) (SideLeaf source base (n.entryOf name))
      change := by
  have hsame : o.entryOf name = n.entryOf name := by
    cases ho : o.entryOf name with
    | none => rw [ho] at hs; cases hs
    | some e =>
      cases hn : n.entryOf name with
      | none => rw [ho, hn] at hs; cases hs
      | some e' =>
        rw [ho, hn] at hs
        simp only [unchanged, Bool.and_eq_true, beq_iff_eq] at hs
        have hnames := (h.wellFormedOld.name_of_entryOf name e ho).trans
          (h.wellFormedNew.name_of_entryOf name e' hn).symm
        cases e
        cases e'
        simp only at hs hnames
        rw [hs.1, hs.2, hnames]
  rw [hsame]
  refine not_differs_self fun p m i m' i' hl hl' => ?_
  obtain ⟨e, he, hin⟩ := hl
  obtain ⟨e', he', hin'⟩ := hl'
  have hmem := (h.wellFormedNew.entryOf_eq_some.mp he).1
  obtain rfl := Option.some.inj (he.symm.trans he')
  exact ((leaf_iff h.opensNew).mpr ⟨e, hmem, hin⟩).unique h.soundNew
    ((leaf_iff h.opensNew).mpr ⟨e, hmem, hin'⟩)

/-- What is found below a name and the change of the name itself are exact together. -/
theorem exact_append (h : Sides source old new o n)
    (hs : unchanged (o.entryOf name) (n.entryOf name) = false) {inner : List Change}
    (hin : Exact (Leaf source (f.base ++ name ++ [0x2F]) (dirId (o.entryOf name)))
      (Leaf source (f.base ++ name ++ [0x2F]) (dirId (n.entryOf name))) inner) :
    Exact (SideLeaf source f.base (o.entryOf name)) (SideLeaf source f.base (n.entryOf name))
      (inner ++ ownChange f o n name) := by
  have hon := h.wellFormedOld.name_of_entryOf name
  have hnn := h.wellFormedNew.name_of_entryOf name
  constructor
  · intro change
    rw [List.mem_append, ownChange, Option.mem_toList, differs_sides_iff hon hnn hs, hin.mem_iff]
  · rw [List.map_append, List.nodup_append]
    refine ⟨hin.nodup, ?_, ?_⟩
    · rw [ownChange]
      cases Change.between? f (o.entryOf name) (n.entryOf name) <;> simp
    · intro path hpath path' hpath'
      obtain ⟨change, hmem, rfl⟩ := List.mem_map.mp hpath
      obtain ⟨change', hmem', rfl⟩ := List.mem_map.mp hpath'
      have hself : change'.path = f.base ++ name := by
        have hd := (differs_leaves_iff hon hnn hs).mpr (Option.mem_toList.mp hmem')
        rcases hd.exists_leaf with ⟨_, _, _, _, he, _⟩ | ⟨_, _, _, _, he, _⟩ <;> exact he
      rw [hself]
      rcases ((hin.mem_iff change).mp hmem).exists_leaf with ⟨_, _, hl⟩ | ⟨_, _, hl⟩ <;>
        exact hl.path_ne

/-- No leaves, no difference. -/
theorem exact_nil (base : Bytes) :
    Exact (Leaf source base none) (Leaf source base none) [] where
  mem_iff change := by
    simp only [List.not_mem_nil, false_iff]
    exact not_differs_self fun _ _ _ _ _ hl => absurd hl not_leaf_none
  nodup := List.nodup_nil

/-- A name yields the differences of the leaves under it if the directories below do. -/
theorem exact_round (h : Sides source old new o n) (hf : f.Whole)
    (ih : ListsDifferences source levels) {used : Nat}
    (hok : (diffRound source levels f (pairRound o n name)).1 = .ok used) :
    Exact (SideLeaf source f.base (o.entryOf name)) (SideLeaf source f.base (n.entryOf name))
      (diffRound source levels f (pairRound o n name)).2 := by
  cases hs : unchanged (o.entryOf name) (n.entryOf name) with
  | true =>
    rw [diffRound_of_unchanged hs]
    refine ⟨fun change => ?_, List.nodup_nil⟩
    simp only [List.not_mem_nil, false_iff]
    exact not_differs_of_unchanged h hs
  | false =>
    cases hd : entered? (o.entryOf name) (n.entryOf name) with
    | none =>
      obtain ⟨hold, hnew⟩ := dirId_of_not_entered hd
      have hnone : Exact (Leaf source (f.base ++ name ++ [0x2F]) (dirId (o.entryOf name)))
          (Leaf source (f.base ++ name ++ [0x2F]) (dirId (n.entryOf name))) [] := by
        rw [hold, hnew]
        exact exact_nil _
      rw [diffRound_of_not_entered hs hd]
      exact exact_append h hs hnone
    | some dir =>
      obtain ⟨_, hname⟩ := h.entered_name hd
      obtain ⟨rfl, _, _⟩ := h.entered_cases hd
      obtain ⟨o', n', hload, hsides⟩ := h.child dir.name
      obtain ⟨inner, hrun⟩ := diffBelow_of_diffRound hs hd hload hok
      have hexact := ih (f.child dir.name) _ _ o' n' inner (hf.child hname) hsides hrun
      rw [Frame.base_child hf.named hname] at hexact
      rw [diffRound_of_entered hs hd hload hrun]
      exact exact_append h hs hexact

/-- A name is compared without a failure if the directories below it are. -/
theorem diffRound_ok (h : Sides source old new o n) (hf : f.Whole)
    (hroom : f.depth + levels ≤ f.options.maxDepth) (hno : source.Nested levels old)
    (hnn : source.Nested levels new) (ih : ∀ less, levels = less + 1 → Succeeds source less)
    (name : Bytes) : ∃ used, (diffRound source levels f (pairRound o n name)).1 = .ok used := by
  cases hs : unchanged (o.entryOf name) (n.entryOf name) with
  | true => exact ⟨_, by rw [diffRound_of_unchanged hs]⟩
  | false =>
    cases hd : entered? (o.entryOf name) (n.entryOf name) with
    | none => exact ⟨_, by rw [diffRound_of_not_entered hs hd]⟩
    | some dir =>
      obtain ⟨_, hname⟩ := h.entered_name hd
      obtain ⟨rfl, hdir, hmem⟩ := h.entered_cases hd
      obtain ⟨less, rfl⟩ : ∃ less, levels = less + 1 := by
        rcases hmem with hmem | hmem
        · obtain ⟨less, hless, _⟩ := hno.child h.opensOld hmem hdir
          exact ⟨less, hless⟩
        · obtain ⟨less, hless, _⟩ := hnn.child h.opensNew hmem hdir
          exact ⟨less, hless⟩
      obtain ⟨o', n', hload, hsides⟩ := h.child dir.name
      have hroom' : (f.child dir.name).depth + less ≤ (f.child dir.name).options.maxDepth := by
        simp only [Frame.depth, Frame.child, List.length_cons] at hroom ⊢
        omega
      obtain ⟨inner, hrun⟩ := ih less rfl (f.child dir.name) _ _ o' n' (hf.child hname) hroom'
        hsides (hno.dirId h.wellFormedOld h.opensOld dir.name)
        (hnn.dirId h.wellFormedNew h.opensNew dir.name)
      exact ⟨_, by rw [diffRound_of_entered hs hd hload hrun]⟩

/-- A difference under a name has a path that goes on with the name. -/
theorem nameAt_of_differs (h : Sides source old new o n) {base : Bytes} {change : Change}
    (hd : Differs (SideLeaf source base (o.entryOf name)) (SideLeaf source base (n.entryOf name))
      change) : nameAt base change.path = name := by
  rcases hd.exists_leaf with ⟨_, _, e, he, hl⟩ | ⟨_, _, e, he, hl⟩
  · obtain ⟨hmem, hname⟩ := h.wellFormedOld.entryOf_eq_some.mp he
    rw [hl.nameAt_eq (h.wellFormedOld.slashFree e hmem), hname]
  · obtain ⟨hmem, hname⟩ := h.wellFormedNew.entryOf_eq_some.mp he
    rw [hl.nameAt_eq (h.wellFormedNew.slashFree e hmem), hname]

/-- The differences under all names of a directory are those of the directory. -/
theorem exact_flatMap (h : Sides source old new o n) {base : Bytes} {out : Bytes → List Change}
    (hout : ∀ name ∈ pairNames o n,
      Exact (SideLeaf source base (o.entryOf name)) (SideLeaf source base (n.entryOf name))
        (out name)) :
    Exact (Leaf source base old) (Leaf source base new) ((pairNames o n).flatMap out) := by
  have hkey : ∀ name ∈ pairNames o n, ∀ change ∈ out name, nameAt base change.path = name :=
    fun name hn change hmem => nameAt_of_differs h (((hout name hn).mem_iff change).mp hmem)
  have hsame (change : Change) :
      Differs (SideLeaf source base (o.entryOf (nameAt base change.path)))
          (SideLeaf source base (n.entryOf (nameAt base change.path))) change ↔
        Differs (Leaf source base old) (Leaf source base new) change :=
    differs_congr (fun _ _ => (leaf_iff_entryOf h.opensOld h.wellFormedOld).symm)
      fun _ _ => (leaf_iff_entryOf h.opensNew h.wellFormedNew).symm
  constructor
  · intro change
    rw [List.mem_flatMap, ← hsame]
    constructor
    · rintro ⟨name, hn, hmem⟩
      rw [hkey name hn change hmem]
      exact ((hout name hn).mem_iff change).mp hmem
    · intro hd
      have hn : nameAt base change.path ∈ pairNames o n := by
        rw [mem_pairNames]
        exact hd.exists_leaf.imp (fun ⟨_, _, e, he, _⟩ => ⟨e, he⟩) fun ⟨_, _, e, he, _⟩ => ⟨e, he⟩
      exact ⟨_, hn, ((hout _ hn).mem_iff change).mpr hd⟩
  · rw [List.map_flatMap, List.nodup_flatMap]
    refine ⟨fun name hn => (hout name hn).nodup,
      List.Pairwise.imp_of_mem ?_ (nodup_nameOrder [o.pending, n.pending])⟩
    intro name name' hn hn' hne path hpath hpath'
    obtain ⟨change, hmem, rfl⟩ := List.mem_map.mp hpath
    obtain ⟨change', hmem', hpe⟩ := List.mem_map.mp hpath'
    have hk := hkey name hn change hmem
    rw [← hpe, hkey name' hn' change' hmem'] at hk
    exact hne hk.symm

/-- At every number of levels a comparison lists exactly the differences. -/
theorem listsDifferences (source : ObjectSource) (levels : Nat) :
    ListsDifferences source levels := by
  induction levels with
  | zero =>
    intro f old new o n changes _ _ hrun
    cases hrun
  | succ levels ih =>
    intro f old new o n changes hf hsides hrun
    obtain ⟨_, hok, rfl⟩ := (diffBelow_eq_ok_iff hsides.wellFormedOld hsides.wellFormedNew
      hf.strict).mp hrun
    rw [comparedRounds_of_pathspec_none hf.pathspec] at hok ⊢
    rw [List.flatMap_map]
    refine exact_flatMap hsides fun name hn => ?_
    obtain ⟨used, hused⟩ := hok _ (List.mem_map_of_mem hn)
    exact exact_round hsides hf ih hused

/-- A comparison comes to its end if those of the directories inside do. -/
private theorem succeeds_of_less (ih : ∀ less, levels = less + 1 → Succeeds source less) :
    Succeeds source levels := by
  intro f old new o n hf hroom hsides hno hnn
  refine ⟨_, (diffBelow_eq_ok_iff hsides.wellFormedOld hsides.wellFormedNew hf.strict).mpr
    ⟨by omega, ?_, rfl⟩⟩
  rw [comparedRounds_of_pathspec_none hf.pathspec]
  intro r hr
  obtain ⟨name, _, rfl⟩ := List.mem_map.mp hr
  exact diffRound_ok hsides hf hroom hno hnn ih name

/-- Trees that are nested no deeper than there are levels can be compared. -/
theorem succeeds (source : ObjectSource) (levels : Nat) : Succeeds source levels := by
  induction levels with
  | zero => exact succeeds_of_less fun less h => absurd h (by omega)
  | succ levels ih => exact succeeds_of_less fun less h => Nat.succ.inj h ▸ ih

/-- Comparing two roots of well-formed trees that are not nested too deep gives exact changes. -/
theorem exists_exact_diff (hso : source.Sound old) (hsn : source.Sound new)
    (hno : source.Nested ({} : WalkOptions).maxDepth old)
    (hnn : source.Nested ({} : WalkOptions).maxDepth new) :
    ∃ changes, diff source old new none = .ok changes ∧
      Exact (Leaf source [] old) (Leaf source [] new) changes := by
  obtain ⟨o, ho, _⟩ := hso.opens
  obtain ⟨n, hn, _⟩ := hsn.opens
  have hf : ({} : Frame).Whole := ⟨rfl, rfl, by simp⟩
  have hsides : Sides source old new o n := ⟨ho, hn, hso, hsn⟩
  obtain ⟨changes, hrun⟩ := succeeds source _ {} old new o n hf (Nat.le_of_eq (Nat.zero_add _))
    hsides hno hnn
  have hdiff : diff source old new none = .ok changes := by
    rw [diff, loadSides_eq_ok.mpr ⟨ho, hn⟩]
    simp only [hrun]
  exact ⟨changes, hdiff, listsDifferences source _ {} old new o n changes hf hsides hrun⟩

/-- Where all trees are there, well-formed and not nested too deep, comparing them succeeds and
lists every difference of their leaves, and no path twice. -/
theorem diff_lists_each_difference_once (hso : source.Sound old) (hsn : source.Sound new)
    (hno : source.Nested ({} : WalkOptions).maxDepth old)
    (hnn : source.Nested ({} : WalkOptions).maxDepth new) :
    ∃ changes, diff source old new none = .ok changes ∧
      (∀ change, change ∈ changes ↔ Differs (Leaf source [] old) (Leaf source [] new) change) ∧
        (changes.map Change.path).Nodup := by
  obtain ⟨changes, hdiff, hexact⟩ := exists_exact_diff hso hsn hno hnn
  exact ⟨changes, hdiff, hexact.mem_iff, hexact.nodup⟩

/-- The comparison of a directory with the file that it turned into. -/
theorem diff_lists_each_difference_once_turned :
    ∃ changes, diff turnedSource (some (plainId 1)) (some (plainId 2)) none = .ok changes ∧
      (∀ change, change ∈ changes ↔
        Differs (Leaf turnedSource [] (some (plainId 1))) (Leaf turnedSource [] (some (plainId 2)))
          change) ∧
        (changes.map Change.path).Nodup :=
  diff_lists_each_difference_once sound_turnedSource_old sound_turnedSource_new
    (nested_turnedSource_old _) (nested_turnedSource_new _)

end GitRemote
