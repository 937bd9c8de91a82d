import GitRemote.Proofs.Diff.Leaves
import GitRemote.Proofs.Diff.Level

/-!
# Differences of leaves

How the leaves of two trees differ, as changes. The two sides of a name differ in the leaves below
their directories, and in at most one change besides: that of what they are themselves.
-/

namespace GitRemote

/-- The path that changes. -/
def Change.path : Change → Bytes
  | .added path _ _ => path
  | .deleted path _ _ => path
  | .modified path _ _ _ _ => path

/-- How the leaves of two trees differ at one path. -/
def Differs (old new : Bytes → Nat → ObjectId → Prop) : Change → Prop
  | .added path mode id => new path mode id ∧ ∀ m i, ¬ old path m i
  | .deleted path mode id => old path mode id ∧ ∀ m i, ¬ new path m i
  | .modified path oldMode oldId newMode newId =>
    old path oldMode oldId ∧ new path newMode newId ∧ (oldId ≠ newId ∨ oldMode ≠ newMode)

/-- Changes that list every difference of leaves, and no path twice. -/
structure Exact (old new : Bytes → Nat → ObjectId → Prop) (changes : List Change) : Prop where
  mem_iff : ∀ change, change ∈ changes ↔ Differs old new change
  nodup : (changes.map Change.path).Nodup

/-- The leaves under one side's entry of a name. -/
def SideLeaf (source : ObjectSource) (base : Bytes) (side : Option Entry) (path : Bytes)
    (mode : Nat) (id : ObjectId) : Prop :=
  ∃ e, side = some e ∧ e.LeafIn source base path mode id

variable {source : ObjectSource} {old new old' new' : Bytes → Nat → ObjectId → Prop}
  {change : Change} {base path name : Bytes} {side oldSide newSide : Option Entry} {mode : Nat}
  {id : ObjectId} {root : Option ObjectId} {c : Cursor} {e : Entry}

/-- A difference at a path depends on the leaves at that path alone. -/
theorem differs_congr (ho : ∀ m i, old change.path m i ↔ old' change.path m i)
    (hn : ∀ m i, new change.path m i ↔ new' change.path m i) :
    Differs old new change ↔ Differs old' new' change := by
  cases change <;> simp only [Differs, Change.path] at ho hn ⊢ <;> simp only [ho, hn]

/-- There is a leaf where there is a difference. -/
theorem Differs.exists_leaf (h : Differs old new change) :
    (∃ m i, old change.path m i) ∨ ∃ m i, new change.path m i := by
  cases change with
  | added path mode id => exact Or.inr ⟨mode, id, h.1⟩
  | deleted path mode id => exact Or.inl ⟨mode, id, h.1⟩
  | modified path om oi nm ni => exact Or.inl ⟨om, oi, h.1⟩

/-- Leaves that lie below the same trees do not differ. -/
theorem not_differs_self (h : ∀ p m i m' i', old p m i → old p m' i' → m = m' ∧ i = i') :
    ¬ Differs old old change := by
  cases change with
  | added path mode id => exact fun hd => hd.2 mode id hd.1
  | deleted path mode id => exact fun hd => hd.2 mode id hd.1
  | modified path om oi nm ni =>
    rintro ⟨ho, hn, hne⟩
    obtain ⟨hm, hi⟩ := h path om oi nm ni ho hn
    exact hne.elim (fun h => h hi) fun h => h hm

/-- The leaves under a name lie below its directory, or its entry is the leaf. -/
theorem sideLeaf_iff (hname : ∀ e, side = some e → e.name = name) :
    SideLeaf source base side path mode id ↔
      Leaf source (base ++ name ++ [0x2F]) (dirId side) path mode id ∨
        ∃ e, side.filter (!·.isDir) = some e ∧ path = base ++ name ∧ mode = e.mode ∧ id = e.id := by
  cases side with
  | none =>
    simp only [SideLeaf, dirId, Option.filter_none, Option.map_none, not_leaf_none, reduceCtorEq,
      false_and, exists_false, or_self]
  | some e =>
    have hn := hname e rfl
    cases hd : e.isDir with
    | true => simp [SideLeaf, dirId_some, Entry.LeafIn, Option.filter_some, hd, hn]
    | false => simp [SideLeaf, dirId_some, Entry.LeafIn, Option.filter_some, hd, hn, not_leaf_none]

/-- What is below a directory has a longer path. -/
theorem Leaf.path_ne (h : Leaf source (base ++ name ++ [0x2F]) root path mode id) :
    path ≠ base ++ name := by
  obtain ⟨rest, rfl⟩ := h.base_append
  simp

/-- The path of an entry itself is no difference of what is below it. -/
theorem not_differs_below {oldRoot newRoot : Option ObjectId} (h : change.path = base ++ name) :
    ¬ Differs (Leaf source (base ++ name ++ [0x2F]) oldRoot)
      (Leaf source (base ++ name ++ [0x2F]) newRoot) change := by
  intro hd
  rcases hd.exists_leaf with ⟨_, _, hl⟩ | ⟨_, _, hl⟩ <;> exact hl.path_ne h

/-- What the two sides of a name have as leaves themselves differs in one change. -/
theorem differs_leaves_iff {f : Frame} (ho : ∀ e, oldSide = some e → e.name = name)
    (hn : ∀ e, newSide = some e → e.name = name) (hs : unchanged oldSide newSide = false) :
    Differs
        (fun path mode id => ∃ e, oldSide.filter (!·.isDir) = some e ∧ path = f.base ++ name ∧
          mode = e.mode ∧ id = e.id)
        (fun path mode id => ∃ e, newSide.filter (!·.isDir) = some e ∧ path = f.base ++ name ∧
          mode = e.mode ∧ id = e.id) change ↔
      Change.between? f oldSide newSide = some change := by
  have hname {side : Option Entry} (h : ∀ e, side = some e → e.name = name) {e : Entry}
      (he : side.filter (!·.isDir) = some e) : f.pathOf e.name = f.base ++ name := by
    rw [Frame.pathOf, h e (Option.filter_eq_some_iff.mp he).1]
  rw [Change.between?]
  cases ho' : oldSide.filter (!·.isDir) with
  | none =>
    cases hn' : newSide.filter (!·.isDir) with
    | none => cases change <;> simp [Differs]
    | some n =>
      simp only [hname hn hn']
      cases change <;> simp [Differs, eq_comm, and_assoc]
  | some o =>
    have hpath := hname ho ho'
    cases hn' : newSide.filter (!·.isDir) with
    | none =>
      simp only [hpath]
      cases change <;> simp [Differs, eq_comm]
    | some n =>
      have hne : o.id ≠ n.id ∨ o.mode ≠ n.mode := by
        rw [(Option.filter_eq_some_iff.mp ho').1, (Option.filter_eq_some_iff.mp hn').1] at hs
        simpa [unchanged, or_iff_not_imp_left] using hs
      simp only [hpath]
      cases change with
      | added path mode id => simp +contextual [Differs]
      | deleted path mode id => simp +contextual [Differs]
      | modified path om oi nm ni =>
        simp only [Differs]
        constructor
        · rintro ⟨⟨o', heo, rfl, rfl, rfl⟩, ⟨n', hen, _, rfl, rfl⟩, _⟩
          cases heo
          cases hen
          rfl
        · intro h
          cases h
          exact ⟨⟨o, rfl, rfl, rfl, rfl⟩, ⟨n, rfl, rfl, rfl, rfl⟩, hne⟩

/-- The two sides of a name differ below their directories and in what they are themselves. -/
theorem differs_sides_iff {f : Frame} (ho : ∀ e, oldSide = some e → e.name = name)
    (hn : ∀ e, newSide = some e → e.name = name) (hs : unchanged oldSide newSide = false) :
    Differs (SideLeaf source f.base oldSide) (SideLeaf source f.base newSide) change ↔
      Differs (Leaf source (f.base ++ name ++ [0x2F]) (dirId oldSide))
          (Leaf source (f.base ++ name ++ [0x2F]) (dirId newSide)) change ∨
        Change.between? f oldSide newSide = some change := by
  rw [← differs_leaves_iff ho hn hs]
  by_cases hp : change.path = f.base ++ name
  · rw [or_iff_right (not_differs_below hp)]
    refine differs_congr (fun m i => ?_) fun m i => ?_
    · rw [sideLeaf_iff ho, or_iff_right fun hl => hl.path_ne hp]
    · rw [sideLeaf_iff hn, or_iff_right fun hl => hl.path_ne hp]
  · rw [or_iff_left]
    · refine differs_congr (fun m i => ?_) fun m i => ?_
      · rw [sideLeaf_iff ho, or_iff_left fun ⟨_, _, he, _⟩ => hp he]
      · rw [sideLeaf_iff hn, or_iff_left fun ⟨_, _, he, _⟩ => hp he]
    · intro hd
      rcases hd.exists_leaf with ⟨_, _, _, _, he, _⟩ | ⟨_, _, _, _, he, _⟩ <;> exact hp he

end GitRemote
