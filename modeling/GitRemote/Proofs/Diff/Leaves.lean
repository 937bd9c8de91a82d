import GitRemote.Proofs.Tree.WellFormed
import GitRemote.Tree.Diff

/-!
# Leaves

The leaves of a tree are its entries that are no directories, and those of the trees below it, each
under its path. Where all trees that are reached are well-formed, a path leads to one leaf at most.
-/

namespace GitRemote

/-- The tree of an id, or the empty one, reads as this cursor. -/
def ObjectSource.Opens (source : ObjectSource) (root : Option ObjectId) (c : Cursor) : Prop :=
  ∃ buf, loadTree source root = .ok buf ∧ Cursor.ofBytes buf = .ok c

/-- A tree that is found by going down from a root through this number of directories. -/
inductive ObjectSource.Reaches (source : ObjectSource) :
    Option ObjectId → Nat → Option ObjectId → Prop
  | refl (root : Option ObjectId) : source.Reaches root 0 root
  | step {root target : Option ObjectId} {c : Cursor} {e : Entry} {depth : Nat} :
    source.Opens root c → e ∈ c.entries → e.isDir = true →
      source.Reaches (some e.id) depth target → source.Reaches root (depth + 1) target

/-- All trees that are reached from a root are there and well-formed. -/
def ObjectSource.Sound (source : ObjectSource) (root : Option ObjectId) : Prop :=
  ∀ depth target, source.Reaches root depth target → ∃ c, source.Opens target c ∧ c.WellFormed

/-- Directories are nested no deeper than this below a root. -/
def ObjectSource.Nested (source : ObjectSource) (limit : Nat) (root : Option ObjectId) : Prop :=
  ∀ depth target, source.Reaches root depth target → depth ≤ limit

/-- What is at the end of a path and no directory. All paths start with `base`. -/
inductive Leaf (source : ObjectSource) : Bytes → Option ObjectId → Bytes → Nat → ObjectId → Prop
  | here {base : Bytes} {root : Option ObjectId} {c : Cursor} {e : Entry} :
    source.Opens root c → e ∈ c.entries → e.isDir = false →
      Leaf source base root (base ++ e.name) e.mode e.id
  | deeper {base path : Bytes} {root : Option ObjectId} {c : Cursor} {e : Entry} {mode : Nat}
      {id : ObjectId} :
    source.Opens root c → e ∈ c.entries → e.isDir = true →
      Leaf source (base ++ e.name ++ [0x2F]) (some e.id) path mode id →
        Leaf source base root path mode id

/-- The leaf that an entry is, or one below it. -/
def Entry.LeafIn (e : Entry) (source : ObjectSource) (base path : Bytes) (mode : Nat)
    (id : ObjectId) : Prop :=
  if e.isDir then Leaf source (base ++ e.name ++ [0x2F]) (some e.id) path mode id
  else path = base ++ e.name ∧ mode = e.mode ∧ id = e.id

/-- The first name of a path behind a base. -/
def nameAt (base path : Bytes) : Bytes := (path.drop base.length).takeWhile (· != 0x2F)

/-- The entry of a name. -/
def Cursor.entryOf (c : Cursor) (name : Bytes) : Option Entry :=
  (c.pending.find? (·.entry.name == name)).map Placed.entry

variable {source : ObjectSource} {root : Option ObjectId} {c : Cursor} {e : Entry}
  {base path : Bytes} {mode : Nat} {id : ObjectId}

/-- A root opens in one way only. -/
theorem ObjectSource.Opens.unique {c' : Cursor} (h : source.Opens root c)
    (h' : source.Opens root c') : c = c' := by
  obtain ⟨buf, hload, hof⟩ := h
  obtain ⟨buf', hload', hof'⟩ := h'
  rw [hload] at hload'
  cases hload'
  rw [hof] at hof'
  exact Except.ok.inj hof'

theorem Cursor.scan_nil : Cursor.scan [] = .empty := decodeEntries_nil 0

theorem ObjectSource.opens_none : source.Opens none .empty :=
  ⟨[], rfl, by rw [Cursor.ofBytes, Cursor.scan_nil]; rfl⟩

theorem ObjectSource.Opens.eq_empty (h : source.Opens none c) : c = .empty := h.unique opens_none

/-- Both sides are loaded if each can be. -/
theorem loadSides_eq_ok {old new : Option ObjectId} {o n : Cursor} :
    loadSides source old new = .ok (o, n) ↔ source.Opens old o ∧ source.Opens new n := by
  simp only [loadSides, ObjectSource.Opens]
  cases loadTree source old with
  | error e => simp
  | ok b =>
    cases loadTree source new with
    | error e => simp
    | ok b' =>
      simp only [Except.ok.injEq, exists_eq_left']
      cases Cursor.ofBytes b with
      | error e => simp
      | ok c =>
        cases Cursor.ofBytes b' with
        | error e => simp
        | ok c' => simp

theorem ObjectSource.Sound.opens (h : source.Sound root) :
    ∃ c, source.Opens root c ∧ c.WellFormed :=
  h 0 root (.refl root)

theorem ObjectSource.Sound.wellFormed (h : source.Sound root) (hc : source.Opens root c) :
    c.WellFormed := by
  obtain ⟨c', hc', hw⟩ := h.opens
  rwa [hc.unique hc']

theorem ObjectSource.Sound.child (h : source.Sound root) (hc : source.Opens root c)
    (he : e ∈ c.entries) (hd : e.isDir = true) : source.Sound (some e.id) :=
  fun depth target hr => h (depth + 1) target (.step hc he hd hr)

/-- The empty tree is well-formed and leads nowhere. -/
theorem ObjectSource.Sound.none : source.Sound none := by
  intro depth target hr
  cases hr with
  | refl => exact ⟨_, opens_none, Cursor.scan_nil ▸ Cursor.wellFormed_nil⟩
  | step hc he => rw [hc.eq_empty] at he; cases he

/-- A directory in a tree is nested one level less deep than the tree. -/
theorem ObjectSource.Nested.child {limit : Nat} (h : source.Nested limit root)
    (hc : source.Opens root c) (he : e ∈ c.entries) (hd : e.isDir = true) :
    ∃ less, limit = less + 1 ∧ source.Nested less (some e.id) := by
  cases limit with
  | zero => exact absurd (h 1 (some e.id) (.step hc he hd (.refl _))) (by omega)
  | succ less =>
    refine ⟨less, rfl, fun depth target hr => ?_⟩
    have hle := h (depth + 1) target (.step hc he hd hr)
    omega

theorem ObjectSource.Nested.none (limit : Nat) : source.Nested limit none := by
  intro depth target hr
  cases hr with
  | refl => exact Nat.zero_le _
  | step hc he => rw [hc.eq_empty] at he; cases he

/-- The leaves of a tree are those of its entries. -/
theorem leaf_iff (hc : source.Opens root c) :
    Leaf source base root path mode id ↔ ∃ e ∈ c.entries, e.LeafIn source base path mode id := by
  constructor
  · intro h
    cases h with
    | here hc' he hd =>
      refine ⟨_, hc.unique hc' ▸ he, ?_⟩
      rw [Entry.LeafIn, hd]
      exact ⟨rfl, rfl, rfl⟩
    | deeper hc' he hd hleaf =>
      refine ⟨_, hc.unique hc' ▸ he, ?_⟩
      rw [Entry.LeafIn, if_pos hd]
      exact hleaf
  · rintro ⟨e, he, hleaf⟩
    rw [Entry.LeafIn] at hleaf
    split at hleaf
    · next hd => exact .deeper hc he hd hleaf
    · next hd =>
      obtain ⟨rfl, rfl, rfl⟩ := hleaf
      exact .here hc he (by simpa using hd)

theorem not_leaf_none : ¬ Leaf source base none path mode id := by
  rw [leaf_iff ObjectSource.opens_none]
  rintro ⟨e, he, _⟩
  cases he

/-- Every path starts with the base. -/
theorem Leaf.base_append (h : Leaf source base root path mode id) : ∃ rest, path = base ++ rest := by
  induction h with
  | here => exact ⟨_, rfl⟩
  | @deeper base path root c e mode id _ _ _ _ ih =>
    obtain ⟨rest, rfl⟩ := ih
    exact ⟨e.name ++ 0x2F :: rest, by simp⟩

/-- The first component of a path below a base is what stands up to the next slash. -/
theorem nameAt_append (base : Bytes) {name rest : Bytes} (hn : 0x2F ∉ name)
    (hr : rest = [] ∨ ∃ r, rest = 0x2F :: r) : nameAt base (base ++ (name ++ rest)) = name := by
  have hall : ∀ b ∈ name, (b != 0x2F) = true := by
    intro b hb
    simpa using fun he : b = 0x2F => hn (he ▸ hb)
  rw [nameAt, List.drop_left, List.takeWhile_append_of_pos hall]
  rcases hr with rfl | ⟨r, rfl⟩
  · simp
  · simp

/-- A path of an entry's leaf goes on with the entry's name. -/
theorem Entry.LeafIn.nameAt_eq (h : e.LeafIn source base path mode id) (hn : 0x2F ∉ e.name) :
    nameAt base path = e.name := by
  rw [Entry.LeafIn] at h
  split at h
  · obtain ⟨rest, rfl⟩ := h.base_append
    have hsplit : base ++ e.name ++ [0x2F] ++ rest = base ++ (e.name ++ 0x2F :: rest) := by simp
    rw [hsplit]
    exact nameAt_append base hn (Or.inr ⟨rest, rfl⟩)
  · rw [h.1]
    simpa only [List.append_nil] using nameAt_append base hn (Or.inl rfl)

/-- A name comes once in a well-formed tree. -/
theorem Cursor.WellFormed.eq_of_name {e' : Entry} (h : c.WellFormed) (he : e ∈ c.entries)
    (he' : e' ∈ c.entries) (hn : e.name = e'.name) : e = e' :=
  List.inj_on_of_nodup_map h.distinct he he' hn

/-- Entries have names. -/
theorem Cursor.WellFormed.name_ne_nil (hw : c.WellFormed) (he : e ∈ c.entries) : e.name ≠ [] := by
  obtain ⟨p, hp, rfl⟩ := List.mem_map.mp he
  exact hw.stored.nonempty p hp

theorem Cursor.WellFormed.plain (hw : c.WellFormed) (he : e ∈ c.entries) : PlainName e.name := by
  obtain ⟨p, hp, rfl⟩ := List.mem_map.mp he
  exact hw.stored.plain p hp

/-- Looking up a name in a well-formed tree finds the entry that bears it. -/
theorem Cursor.WellFormed.entryOf_eq_some {name : Bytes} (h : c.WellFormed) :
    c.entryOf name = some e ↔ e ∈ c.entries ∧ e.name = name := by
  simp only [Cursor.entryOf, Option.map_eq_some_iff, h.stored.find?_eq_some, Cursor.entries,
    List.mem_map]
  constructor
  · rintro ⟨p, ⟨hp, hname⟩, rfl⟩
    exact ⟨⟨p, hp, rfl⟩, hname⟩
  · rintro ⟨⟨p, hp, rfl⟩, hname⟩
    exact ⟨p, ⟨hp, hname⟩, rfl⟩

/-- The leaves under a path are those of the entry whose name comes first in it. -/
theorem leaf_iff_entryOf (hc : source.Opens root c) (hw : c.WellFormed) :
    Leaf source base root path mode id ↔
      ∃ e, c.entryOf (nameAt base path) = some e ∧ e.LeafIn source base path mode id := by
  rw [leaf_iff hc]
  refine exists_congr fun e => ?_
  rw [hw.entryOf_eq_some, and_assoc]
  refine and_congr_right fun he => ⟨fun h => ⟨?_, h⟩, fun h => h.2⟩
  exact (h.nameAt_eq (hw.slashFree e he)).symm

/-- A path leads to one leaf at most. -/
theorem Leaf.unique {mode' : Nat} {id' : ObjectId} (h : Leaf source base root path mode id)
    (hs : source.Sound root) (h' : Leaf source base root path mode' id') :
    mode = mode' ∧ id = id' := by
  induction h with
  | @here base root c e hc he hd =>
    obtain ⟨e', he', hin⟩ := (leaf_iff hc).mp h'
    have hw := hs.wellFormed hc
    have hname : nameAt base (base ++ e.name) = e.name := by
      simpa only [List.append_nil] using
        nameAt_append base (hw.slashFree e he) (Or.inl rfl)
    rw [hin.nameAt_eq (hw.slashFree e' he')] at hname
    obtain rfl := hw.eq_of_name he' he hname
    rw [Entry.LeafIn, hd] at hin
    exact ⟨hin.2.1.symm, hin.2.2.symm⟩
  | @deeper base path root c e mode id hc he hd hleaf ih =>
    obtain ⟨e', he', hin⟩ := (leaf_iff hc).mp h'
    have hw := hs.wellFormed hc
    have hdeep : e.LeafIn source base path mode id := by
      rw [Entry.LeafIn, if_pos hd]
      exact hleaf
    have hname : e.name = e'.name :=
      (hdeep.nameAt_eq (hw.slashFree e he)).symm.trans (hin.nameAt_eq (hw.slashFree e' he'))
    obtain rfl := hw.eq_of_name he he' hname
    rw [Entry.LeafIn, if_pos hd] at hin
    exact ih (hs.child hc he hd) hin

end GitRemote
