import GitRemote.Proofs.Diff.Passed

/-!
# Sides that agree about a pathspec

A limited comparison asks the pathspec about one side of a name and goes by the answer on both. The
sides agree if this does no harm wherever a directory meets what is no directory: no wanted leaf is
below a directory whose place is taken by an entry that is not interesting, and what a directory
takes the place of is interesting just if the directory is taken up.
-/

namespace GitRemote

/-- That one side of a name can be asked for both. -/
structure NameAgrees (source : ObjectSource) (spec : Pathspec) (base : Bytes)
    (old new : Option Entry) (passed : Prop) : Prop where
  /-- A new entry in the place of a directory speaks for the leaves that go. -/
  leaf : ∀ d e, old = some d → new = some e → d.isDir = true → e.isDir = false →
    (∃ path mode id, d.LeafIn source base path mode id ∧ spec.wantsLeaf path mode id = true) →
      (spec.interest e base).isInteresting = true
  /-- A new directory is taken up just if the entry that goes is interesting. -/
  directory : ∀ e d, old = some e → new = some d → e.isDir = false → d.isDir = true →
    ((spec.interest e base).isInteresting = true ↔ passed)

/-- The pairs of directories that a limited comparison comes to, from one pair down. -/
inductive Entered (source : ObjectSource) (spec : Pathspec) :
    Bytes → Option ObjectId → Option ObjectId → Bytes → Option ObjectId → Option ObjectId → Prop
  | refl (base : Bytes) (old new : Option ObjectId) : Entered source spec base old new base old new
  | step {base base' name : Bytes} {old new old' new' : Option ObjectId} {o n : Cursor} :
    source.Opens old o → source.Opens new n → name ∈ passedNames spec base o n →
      unchanged (o.entryOf name) (n.entryOf name) = false →
        Entered source spec (base ++ name ++ [0x2F]) (dirId (o.entryOf name))
          (dirId (n.entryOf name)) base' old' new' →
          Entered source spec base old new base' old' new'

/-- That the sides agree about every name that a limited comparison comes to. -/
def SidesAgree (source : ObjectSource) (spec : Pathspec) (base : Bytes)
    (old new : Option ObjectId) : Prop :=
  ∀ base' old' new' o n, Entered source spec base old new base' old' new' →
    source.Opens old' o → source.Opens new' n → ∀ name ∈ pairNames o n,
      NameAgrees source spec base' (o.entryOf name) (n.entryOf name)
        (name ∈ passedNames spec base' o n)

variable {source : ObjectSource} {spec : Pathspec} {base base' name : Bytes} {o n : Cursor}
  {old new old' new' : Option ObjectId} {oldSide newSide : Option Entry} {passed : Prop}

/-- The sides agree if they do about each name and below each name that is let through. -/
theorem sidesAgree_iff (ho : source.Opens old o) (hn : source.Opens new n) :
    SidesAgree source spec base old new ↔
      ∀ name ∈ pairNames o n,
        NameAgrees source spec base (o.entryOf name) (n.entryOf name)
            (name ∈ passedNames spec base o n) ∧
          (name ∈ passedNames spec base o n →
            unchanged (o.entryOf name) (n.entryOf name) = false →
              SidesAgree source spec (base ++ name ++ [0x2F]) (dirId (o.entryOf name))
                (dirId (n.entryOf name))) := by
  constructor
  · intro h name hmem
    refine ⟨h base old new o n (.refl _ _ _) ho hn name hmem, fun hpass hs => ?_⟩
    intro base' old' new' o' n' hin ho' hn'
    exact h base' old' new' o' n' (.step ho hn hpass hs hin) ho' hn'
  · intro h base' old' new' o' n' hin ho' hn' name hmem
    cases hin with
    | refl =>
      obtain rfl := ho.unique ho'
      obtain rfl := hn.unique hn'
      exact (h name hmem).1
    | step ho₁ hn₁ hpass hs hin =>
      obtain rfl := ho.unique ho₁
      obtain rfl := hn.unique hn₁
      exact (h _ (passedNames_sublist.subset hpass)).2 hpass hs base' old' new' o' n' hin ho' hn'
        name hmem

theorem NameAgrees.of_old_none : NameAgrees source spec base none newSide passed where
  leaf _ _ h := by cases h
  directory _ _ h := by cases h

theorem NameAgrees.of_new_none : NameAgrees source spec base oldSide none passed where
  leaf _ _ _ h := by cases h
  directory _ _ _ h := by cases h

/-- Sides of one kind agree. -/
theorem NameAgrees.of_same_kind
    (h : ∀ d e, oldSide = some d → newSide = some e → d.isDir = e.isDir) :
    NameAgrees source spec base oldSide newSide passed where
  leaf d e hd he hdir hfile := by
    rw [h d e hd he, hfile] at hdir
    cases hdir
  directory e d he hd hfile hdir := by
    rw [h e d he hd, hdir] at hfile
    cases hfile

/-- Trees that never have a directory and something else under one name agree. -/
theorem sidesAgree_of_same_kinds
    (h : ∀ base' old' new' o n, Entered source spec base old new base' old' new' →
      source.Opens old' o → source.Opens new' n → ∀ name d e, o.entryOf name = some d →
        n.entryOf name = some e → d.isDir = e.isDir) :
    SidesAgree source spec base old new :=
  fun base' old' new' o n hin ho hn name _ =>
    .of_same_kind fun d e hd he => h base' old' new' o n hin ho hn name d e hd he

/-- A directory that becomes a leaf is agreed on if it is of interest whenever one of its leaves is
wanted. -/
theorem nameAgrees_leaf_iff {d e : Entry} (hd : d.isDir = true) (he : e.isDir = false) :
    NameAgrees source spec base (some d) (some e) passed ↔
      ((∃ path mode id, d.LeafIn source base path mode id ∧ spec.wantsLeaf path mode id = true) →
        (spec.interest e base).isInteresting = true) := by
  refine ⟨fun h => h.leaf d e rfl rfl hd he, fun h => ⟨?_, ?_⟩⟩
  · rintro _ _ ⟨⟩ ⟨⟩ _ _
    exact h
  · rintro _ _ ⟨⟩ ⟨⟩ hfile _
    rw [hd] at hfile
    cases hfile

/-- A leaf that becomes a directory is agreed on if it is of interest just when the name is passed. -/
theorem nameAgrees_directory_iff {d e : Entry} (he : e.isDir = false) (hd : d.isDir = true) :
    NameAgrees source spec base (some e) (some d) passed ↔
      ((spec.interest e base).isInteresting = true ↔ passed) := by
  refine ⟨fun h => h.directory e d rfl rfl he hd, fun h => ⟨?_, ?_⟩⟩
  · rintro _ _ ⟨⟩ ⟨⟩ hdir _
    rw [he] at hdir
    cases hdir
  · rintro _ _ ⟨⟩ ⟨⟩ _ _
    exact h

theorem entryOf_empty (name : Bytes) : Cursor.empty.entryOf name = none := rfl

/-- Where there is nothing on one side, there is nothing below either. -/
theorem Entered.none (h : Entered source spec base old new base' old' new') :
    (old = none → old' = none) ∧ (new = none → new' = none) := by
  induction h with
  | refl => exact ⟨id, id⟩
  | step ho hn _ _ _ ih =>
    constructor
    · rintro rfl
      exact ih.1 (by rw [ho.eq_empty]; rfl)
    · rintro rfl
      exact ih.2 (by rw [hn.eq_empty]; rfl)

/-- With nothing on one side there is nothing to agree about. -/
theorem sidesAgree_of_none (h : old = none ∨ new = none) :
    SidesAgree source spec base old new := by
  intro base' old' new' o n hin ho hn name _
  rcases h with h | h
  · obtain rfl := hin.none.1 h
    rw [ho.eq_empty, entryOf_empty]
    exact .of_old_none
  · obtain rfl := hin.none.2 h
    rw [hn.eq_empty, entryOf_empty]
    exact .of_new_none

end GitRemote
