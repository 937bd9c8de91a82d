import GitRemote.Proofs.Diff.Differs
import GitRemote.Proofs.Pathspec.Reach
import Mathlib.Data.List.DropRight

/-!
# Leaves that a pathspec wants

A pathspec wants a leaf if it finds the leaf's entry interesting in the directory that the leaf lies
in. A directory above a wanted leaf is interesting, and none lies behind an entry that ends its
directory.
-/

namespace GitRemote

/-- The last name of a path. -/
def lastName (path : Bytes) : Bytes := path.rtakeWhile (· != 0x2F)

/-- The base of the directory in which a path lies. -/
def baseOf (path : Bytes) : Bytes := path.rdropWhile (· != 0x2F)

/-- Whether the leaf of a path is interesting in its own directory. -/
def Pathspec.wantsLeaf (spec : Pathspec) (path : Bytes) (mode : Nat) (id : ObjectId) : Bool :=
  (spec.interest ⟨mode, lastName path, id⟩ (baseOf path)).isInteresting

/-- Whether the leaf that changes is interesting, as it is now if it still is there. -/
def Change.wanted (spec : Pathspec) : Change → Bool
  | .added path mode id => spec.wantsLeaf path mode id
  | .deleted path mode id => spec.wantsLeaf path mode id
  | .modified path _ _ mode id => spec.wantsLeaf path mode id

/-- The base of a directory: empty, or with a slash at its end, and without NUL. -/
structure DirBase (base : Bytes) : Prop where
  closed : base = [] ∨ ∃ b, base = b ++ [0x2F]
  free : 0 ∉ base

variable {source : ObjectSource} {spec : Pathspec} {base path name : Bytes} {mode : Nat}
  {id : ObjectId} {root : Option ObjectId} {d e : Entry}

theorem DirBase.nil : DirBase [] := ⟨Or.inl rfl, List.not_mem_nil⟩

theorem DirBase.child (h : DirBase base) (hn : 0 ∉ name) : DirBase (base ++ name ++ [0x2F]) :=
  ⟨Or.inr ⟨_, rfl⟩, by simp [h.free, hn]⟩

private theorem ne_slash {name : Bytes} (h : 0x2F ∉ name) :
    ∀ b ∈ name.reverse, (b != 0x2F) = true := by
  intro b hb
  simpa using fun he : b = 0x2F => h (he ▸ List.mem_reverse.mp hb)

/-- The base of a path is what stands up to its last slash. -/
theorem baseOf_append (hb : DirBase base) (hn : 0x2F ∉ name) : baseOf (base ++ name) = base := by
  have hself : base.rdropWhile (· != 0x2F) = base := by
    rcases hb.closed with rfl | ⟨b, rfl⟩
    · rfl
    · exact List.rdropWhile_concat_neg _ _ _ (by decide)
  rw [baseOf, List.rdropWhile, List.reverse_append, List.dropWhile_append_of_pos (ne_slash hn)]
  exact hself

/-- The last name of a path is what stands behind its last slash. -/
theorem lastName_append (hb : DirBase base) (hn : 0x2F ∉ name) : lastName (base ++ name) = name := by
  have hnone : base.reverse.takeWhile (· != 0x2F) = [] := by
    rcases hb.closed with rfl | ⟨b, rfl⟩
    · rfl
    · simp
  rw [lastName, List.rtakeWhile, List.reverse_append, List.takeWhile_append_of_pos (ne_slash hn),
    hnone, List.append_nil, List.reverse_reverse]

/-- A pathspec wants an entry that is a leaf if it finds the entry interesting. -/
theorem wantsLeaf_append (hb : DirBase base) (hn : 0x2F ∉ e.name) :
    spec.wantsLeaf (base ++ e.name) e.mode e.id = (spec.interest e base).isInteresting := by
  rw [Pathspec.wantsLeaf, baseOf_append hb hn, lastName_append hb hn]

/-- A leaf lies in a directory at or below the base. -/
theorem Leaf.split (h : Leaf source base root path mode id) (hs : source.Sound root)
    (hb : DirBase base) :
    ∃ inner name, path = base ++ inner ++ name ∧ 0x2F ∉ name ∧ DirBase (base ++ inner) ∧
      (⟨mode, name, id⟩ : Entry).isDir = false := by
  induction h with
  | @here base root c e hc he hd =>
    have hw := hs.wellFormed hc
    exact ⟨[], e.name, by simp, hw.slashFree e he, by simpa using hb, hd⟩
  | @deeper base path root c e mode id hc he hd _ ih =>
    have hplain := (hs.wellFormed hc).plain he
    obtain ⟨inner, name, rfl, hn, hbase, hfile⟩ := ih (hs.child hc he hd) (hb.child hplain.1)
    exact ⟨e.name ++ [0x2F] ++ inner, name, by simp, hn, by simpa using hbase, hfile⟩

/-- Whether a leaf below a directory is wanted depends on an entry there. -/
theorem exists_entry_of_leaf (h : Leaf source (base ++ d.name ++ [0x2F]) root path mode id)
    (hs : source.Sound root) (hb : DirBase base) (hd : d.isDir = true) (hplain : PlainName d.name)
    (hne : d.name ≠ []) :
    ∃ inner x, Leads base d inner ∧ x.isDir = false ∧
      spec.wantsLeaf path mode id = (spec.interest x (baseBelow base d inner)).isInteresting := by
  obtain ⟨inner, name, rfl, hn, hbase, hfile⟩ := h.split hs (hb.child hplain.1)
  have hfree : 0 ∉ inner := fun h0 => hbase.free (List.mem_append_right _ h0)
  have hat : baseBelow base d inner = base ++ d.name ++ [0x2F] ++ inner := by simp [baseBelow]
  refine ⟨inner, ⟨mode, name, id⟩, ⟨hd, hplain, hne, hb.free, hfree⟩, hfile, ?_⟩
  rw [hat]
  exact wantsLeaf_append (e := ⟨mode, name, id⟩) hbase hn

/-- A directory above a wanted leaf is interesting. -/
theorem interest_of_wantsLeaf (h : Leaf source (base ++ d.name ++ [0x2F]) root path mode id)
    (hs : source.Sound root) (hb : DirBase base) (hd : d.isDir = true) (hplain : PlainName d.name)
    (hne : d.name ≠ []) (hw : spec.recursive = true ∨ spec.hasWildcard = false)
    (hwant : spec.wantsLeaf path mode id = true) :
    (spec.interest d base).isInteresting = true := by
  obtain ⟨inner, x, hl, hx, heq⟩ := exists_entry_of_leaf h hs hb hd hplain hne
  exact Pathspec.interest_directory hl hx hw (heq ▸ hwant)

/-- No leaf is wanted that lies below a directory behind an entry that ends the walk there. -/
theorem not_wantsLeaf_of_later (h : Leaf source (base ++ d.name ++ [0x2F]) root path mode id)
    (hs : source.Sound root) (hb : DirBase base) (hd : d.isDir = true) (hplain : PlainName d.name)
    (hne : d.name ≠ []) (hw : spec.recursive = true ∨ spec.hasWildcard = false)
    (hend : spec.interest e base = .allNotInteresting) (hlater : Later e.name d.name) :
    spec.wantsLeaf path mode id = false := by
  obtain ⟨inner, x, hl, hx, heq⟩ := exists_entry_of_leaf h hs hb hd hplain hne
  rw [heq]
  exact Pathspec.interest_below_later hl hx hw hend hlater

end GitRemote
