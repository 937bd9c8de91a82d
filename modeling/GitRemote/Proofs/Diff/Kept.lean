import GitRemote.Proofs.Diff.Leaves
import GitRemote.Proofs.Tree.Written

/-!
# Sources that keep trees as they are written

A source whose trees are the written form of entries in stored order is sound, and how deep its
directories are nested is seen from the entries.
-/

namespace GitRemote

variable {source : ObjectSource} {id : ObjectId} {es : List Entry}

/-- The source has the written form of these entries under an id, and they are in stored order. -/
structure ObjectSource.Keeps (source : ObjectSource) (id : ObjectId) (es : List Entry) : Prop where
  load : loadTree source (some id) = .ok (treeOf es)
  writable : ∀ e ∈ es, e.Writable
  distinct : (es.map Entry.name).Nodup
  ordered : firstDisorder? es = none

theorem ObjectSource.Keeps.opens (h : source.Keeps id es) :
    source.Opens (some id) (Cursor.scan (treeOf es)) :=
  ⟨_, h.load, ofBytes_treeOf h.writable⟩

/-- A tree that is kept has no other entries than those it was made of. -/
theorem ObjectSource.Keeps.mem_of_opens {c : Cursor} {e : Entry} (h : source.Keeps id es)
    (hc : source.Opens (some id) c) (he : e ∈ c.entries) : e ∈ es := by
  rwa [hc.unique h.opens, entries_treeOf h.writable] at he

/-- A kept tree is sound if the trees below it are. -/
theorem ObjectSource.Keeps.sound (h : source.Keeps id es)
    (hes : ∀ e ∈ es, e.isDir = true → source.Sound (some e.id)) : source.Sound (some id) := by
  intro depth target hr
  cases hr with
  | refl => exact ⟨_, h.opens, wellFormed_treeOf h.writable h.distinct h.ordered⟩
  | step hc he hd hr => exact hes _ (h.mem_of_opens hc he) hd _ _ hr

/-- A kept tree is nested one level deeper than the trees below it. -/
theorem ObjectSource.Keeps.nested {less : Nat} (h : source.Keeps id es)
    (hes : ∀ e ∈ es, e.isDir = true → source.Nested less (some e.id)) :
    source.Nested (less + 1) (some id) := by
  intro depth target hr
  cases hr with
  | refl => exact Nat.zero_le _
  | step hc he hd hr => exact Nat.succ_le_succ (hes _ (h.mem_of_opens hc he) hd _ _ hr)

/-- A tree of files alone is sound, since nothing is below it. -/
theorem ObjectSource.Keeps.sound_of_files (h : source.Keeps id es)
    (hes : ∀ e ∈ es, e.isDir = false) : source.Sound (some id) :=
  h.sound fun e he hd => absurd hd (by simp [hes e he])

/-- A tree of files alone is within any limit. -/
theorem ObjectSource.Keeps.nested_of_files (h : source.Keeps id es)
    (hes : ∀ e ∈ es, e.isDir = false) (limit : Nat) : source.Nested limit (some id) := by
  intro depth target hr
  cases hr with
  | refl => exact Nat.zero_le _
  | step hc he hd => rw [hes _ (h.mem_of_opens hc he)] at hd; cases hd

theorem length_plain (b : UInt8) : (List.replicate 20 b).length = 20 := List.length_replicate

/-- An id of equal bytes. -/
def plainId (b : UInt8) : ObjectId := ⟨List.replicate 20 b, length_plain b⟩

/-- A source with a directory `p` of one file `x` in one tree, and a file `p` in another. -/
def turnedSource : ObjectSource where
  read id :=
    match id.octets.head? with
    | some 1 => .ok (some (.tree (treeOf [.directory [0x70] 3])))
    | some 2 => .ok (some (.tree (treeOf [.file [0x70] 4])))
    | some 3 => .ok (some (.tree (treeOf [.file [0x78] 5])))
    | _ => .ok none

theorem keeps_turnedSource_inner : turnedSource.Keeps (plainId 3) [.file [0x78] 5] :=
  ⟨rfl, by decide, by decide, by decide⟩

theorem keeps_turnedSource_old : turnedSource.Keeps (plainId 1) [.directory [0x70] 3] :=
  ⟨rfl, by decide, by decide, by decide⟩

theorem keeps_turnedSource_new : turnedSource.Keeps (plainId 2) [.file [0x70] 4] :=
  ⟨rfl, by decide, by decide, by decide⟩

theorem sound_turnedSource_old : turnedSource.Sound (some (plainId 1)) := by
  refine keeps_turnedSource_old.sound fun e he _ => ?_
  rw [List.mem_singleton.mp he]
  exact keeps_turnedSource_inner.sound_of_files (by decide)

theorem sound_turnedSource_new : turnedSource.Sound (some (plainId 2)) :=
  keeps_turnedSource_new.sound_of_files (by decide)

theorem nested_turnedSource_old (less : Nat) :
    turnedSource.Nested (less + 1) (some (plainId 1)) := by
  refine keeps_turnedSource_old.nested fun e he _ => ?_
  rw [List.mem_singleton.mp he]
  exact keeps_turnedSource_inner.nested_of_files (by decide) less

theorem nested_turnedSource_new (limit : Nat) : turnedSource.Nested limit (some (plainId 2)) :=
  keeps_turnedSource_new.nested_of_files (by decide) limit

end GitRemote
