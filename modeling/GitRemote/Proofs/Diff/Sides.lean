import GitRemote.Proofs.Diff.Leaves
import GitRemote.Proofs.Diff.Level
import GitRemote.Proofs.Tree.Path

/-!
# The two sides of a comparison

Two sound roots, read as cursors, are what a level of a difference compares. The directories under a
name are two sound roots again, so that entering them cannot fail.
-/

namespace GitRemote

variable {source : ObjectSource} {f : Frame} {o n c : Cursor} {name : Bytes} {e : Entry}
  {old new root : Option ObjectId}

/-- Two roots of well-formed trees, and the cursors as which they read. -/
structure Sides (source : ObjectSource) (old new : Option ObjectId) (o n : Cursor) : Prop where
  opensOld : source.Opens old o
  opensNew : source.Opens new n
  soundOld : source.Sound old
  soundNew : source.Sound new

theorem Sides.wellFormedOld (h : Sides source old new o n) : o.WellFormed :=
  h.soundOld.wellFormed h.opensOld

theorem Sides.wellFormedNew (h : Sides source old new o n) : n.WellFormed :=
  h.soundNew.wellFormed h.opensNew

/-- The round of a name in two trees. -/
def pairRound (o n : Cursor) (name : Bytes) : Round := gather [o.pending, n.pending] name

/-- The names of two trees, in the order in which a walk offers them. -/
def pairNames (o n : Cursor) : List Bytes := nameOrder [o.pending, n.pending]

theorem side_pairRound_zero : (pairRound o n name).side 0 = o.entryOf name := rfl

theorem side_pairRound_one : (pairRound o n name).side 1 = n.entryOf name := rfl

theorem Cursor.WellFormed.name_of_entryOf (hw : c.WellFormed) (name : Bytes) :
    ∀ e, c.entryOf name = some e → e.name = name :=
  fun _ he => (hw.entryOf_eq_some.mp he).2

/-- A directory under a name is one of the tree's. -/
theorem dirId_entryOf (hw : c.WellFormed) {id : ObjectId} (h : dirId (c.entryOf name) = some id) :
    ∃ e ∈ c.entries, e.isDir = true ∧ e.id = id := by
  obtain ⟨e, he, rfl⟩ := Option.map_eq_some_iff.mp h
  obtain ⟨hentry, hd⟩ := Option.filter_eq_some_iff.mp he
  exact ⟨e, (hw.entryOf_eq_some.mp hentry).1, hd, rfl⟩

/-- What is entered under a name of a sound tree is sound. -/
theorem ObjectSource.Sound.dirId (hs : source.Sound root) (hc : source.Opens root c)
    (name : Bytes) : source.Sound (dirId (c.entryOf name)) := by
  cases h : GitRemote.dirId (c.entryOf name) with
  | none => exact .none
  | some id =>
    obtain ⟨e, he, hd, rfl⟩ := dirId_entryOf (hs.wellFormed hc) h
    exact hs.child hc he hd

/-- What is entered under a name is nested one level less deep. -/
theorem ObjectSource.Nested.dirId {less : Nat} (hn : source.Nested (less + 1) root)
    (hw : c.WellFormed) (hc : source.Opens root c) (name : Bytes) :
    source.Nested less (dirId (c.entryOf name)) := by
  cases h : GitRemote.dirId (c.entryOf name) with
  | none => exact .none less
  | some id =>
    obtain ⟨e, he, hd, rfl⟩ := dirId_entryOf hw h
    obtain ⟨less', hless, hnest⟩ := hn.child hc he hd
    rwa [Nat.succ.inj hless]

/-- Where nothing is entered, neither side is a directory. -/
theorem dirId_of_not_entered {oldSide newSide : Option Entry} (h : entered? oldSide newSide = none) :
    dirId oldSide = none ∧ dirId newSide = none := by
  rw [entered?, Option.orElse_eq_orElse, Option.orElse_eq_or, Option.or_eq_none_iff] at h
  rw [dirId, dirId, h.1, h.2]
  exact ⟨rfl, rfl⟩

/-- The directories under a name can be compared. -/
theorem Sides.child (h : Sides source old new o n) (name : Bytes) :
    ∃ o' n', loadSides source (dirId (o.entryOf name)) (dirId (n.entryOf name)) = .ok (o', n') ∧
      Sides source (dirId (o.entryOf name)) (dirId (n.entryOf name)) o' n' := by
  have hso := h.soundOld.dirId h.opensOld name
  have hsn := h.soundNew.dirId h.opensNew name
  obtain ⟨o', ho', _⟩ := hso.opens
  obtain ⟨n', hn', _⟩ := hsn.opens
  exact ⟨o', n', loadSides_eq_ok.mpr ⟨ho', hn'⟩, ho', hn', hso, hsn⟩

/-- What is entered under a name is a directory of that name on one of the sides. -/
theorem Sides.entered_cases (h : Sides source old new o n) {dir : Entry}
    (hd : entered? (o.entryOf name) (n.entryOf name) = some dir) :
    dir.name = name ∧ dir.isDir = true ∧ (dir ∈ o.entries ∨ dir ∈ n.entries) := by
  rw [entered?, Option.orElse_eq_orElse, Option.orElse_eq_or, Option.or_eq_some_iff] at hd
  rcases hd with hd | ⟨_, hd⟩
  · obtain ⟨he, hdir⟩ := Option.filter_eq_some_iff.mp hd
    obtain ⟨hmem, hname⟩ := h.wellFormedOld.entryOf_eq_some.mp he
    exact ⟨hname, hdir, Or.inl hmem⟩
  · obtain ⟨he, hdir⟩ := Option.filter_eq_some_iff.mp hd
    obtain ⟨hmem, hname⟩ := h.wellFormedNew.entryOf_eq_some.mp he
    exact ⟨hname, hdir, Or.inr hmem⟩

/-- The name of a directory that is entered is a plain one. -/
theorem Sides.entered_name (h : Sides source old new o n) {dir : Entry}
    (hd : entered? (o.entryOf name) (n.entryOf name) = some dir) :
    PlainName name ∧ name ≠ [] := by
  obtain ⟨rfl, _, hmem⟩ := h.entered_cases hd
  exact hmem.elim (fun hin => ⟨h.wellFormedOld.plain hin, h.wellFormedOld.name_ne_nil hin⟩)
    fun hin => ⟨h.wellFormedNew.plain hin, h.wellFormedNew.name_ne_nil hin⟩

/-- A name has an entry if one that is still pending bears it. -/
theorem exists_entryOf : (∃ e, c.entryOf name = some e) ↔ ∃ p ∈ c.pending, p.entry.name = name := by
  rw [← Option.isSome_iff_exists, Cursor.entryOf, Option.isSome_map, List.find?_isSome]
  simp only [beq_iff_eq]

/-- The names that come up are those that one of the sides has. -/
theorem mem_pairNames :
    name ∈ pairNames o n ↔
      (∃ e, o.entryOf name = some e) ∨ ∃ e, n.entryOf name = some e := by
  rw [pairNames, mem_nameOrder, exists_entryOf, exists_entryOf]
  simp only [Occurs, List.mem_cons, List.not_mem_nil, or_false, exists_eq_or_imp, exists_eq_left]

/-- Without a pathspec all names are compared. -/
theorem comparedRounds_of_pathspec_none (hf : f.pathspec = none) :
    comparedRounds f o n = (pairNames o n).map (pairRound o n) :=
  offered_of_pathspec_none hf (fun _ hr => exists_winner_of_mem_levelRounds hr) .interesting

/-- The change of a name itself, if there is one. -/
def ownChange (f : Frame) (o n : Cursor) (name : Bytes) : List Change :=
  (Change.between? f (o.entryOf name) (n.entryOf name)).toList

theorem diffRound_of_unchanged {levels : Nat}
    (hs : unchanged (o.entryOf name) (n.entryOf name) = true) :
    diffRound source levels f (pairRound o n name) = (.ok (pairRound o n name).mask, []) := by
  rw [diffRound, diffVisit_of_unchanged (r := pairRound o n name) hs]

/-- The round of a name where no directory is entered makes the change of the entry itself. -/
theorem diffRound_of_not_entered {levels : Nat}
    (hs : unchanged (o.entryOf name) (n.entryOf name) = false)
    (hd : entered? (o.entryOf name) (n.entryOf name) = none) :
    diffRound source levels f (pairRound o n name) =
      (.ok (pairRound o n name).mask, ownChange f o n name) := by
  rw [diffRound, diffVisit_of_not_entered (r := pairRound o n name) hs hd, List.nil_append]
  rfl

/-- A name under which directories are compared yields what these yield, and its own change. -/
theorem diffRound_of_entered {levels : Nat} {dir : Entry} {o' n' : Cursor} {inner : List Change}
    (hs : unchanged (o.entryOf name) (n.entryOf name) = false)
    (hd : entered? (o.entryOf name) (n.entryOf name) = some dir)
    (hl : loadSides source (dirId (o.entryOf name)) (dirId (n.entryOf name)) = .ok (o', n'))
    (hb : diffBelow source levels (f.child dir.name) o' n' [] = (.ok (), inner)) :
    diffRound source levels f (pairRound o n name) =
      (.ok (pairRound o n name).mask, inner ++ ownChange f o n name) := by
  rw [diffRound, diffVisit_of_entered (r := pairRound o n name) hs hd, side_pairRound_zero,
    side_pairRound_one, hl]
  simp only [hb]
  rfl

/-- Directories under a name without a failure are compared without one. -/
theorem diffBelow_of_diffRound {levels used : Nat} {dir : Entry} {o' n' : Cursor}
    (hs : unchanged (o.entryOf name) (n.entryOf name) = false)
    (hd : entered? (o.entryOf name) (n.entryOf name) = some dir)
    (hl : loadSides source (dirId (o.entryOf name)) (dirId (n.entryOf name)) = .ok (o', n'))
    (hok : (diffRound source levels f (pairRound o n name)).1 = .ok used) :
    ∃ inner, diffBelow source levels (f.child dir.name) o' n' [] = (.ok (), inner) := by
  rw [diffRound, diffVisit_of_entered (r := pairRound o n name) hs hd, side_pairRound_zero,
    side_pairRound_one, hl] at hok
  simp only at hok
  cases hb : diffBelow source levels (f.child dir.name) o' n' [] with
  | mk answer inner =>
    cases answer with
    | ok _ => exact ⟨inner, rfl⟩
    | error e => rw [hb] at hok; cases hok

end GitRemote
