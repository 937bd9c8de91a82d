import GitRemote.Proofs.Text.Lines
import GitRemote.Tree.Entry
import GitRemote.Tree.Written

/-!
# Paths of frames

As long as no name is empty, a directory's base is its parent's base, its name and a slash, and the
path of a directory that is reached from the root spells the names on the way.

The path is also written into a blank buffer of its length, from the last name back to the first, where
neither an offset below zero nor a write outside of the buffer has a result. The two agree for every
frame: the offset at which a name ends is the length that was reckoned on the way down to it.
-/

namespace GitRemote

/-- Bytes that end a blank space take their place in front of what follows it. -/
theorem overwrite?_blank (free : Nat) (bytes tail : Bytes) :
    overwrite? (List.replicate (free + bytes.length) 0 ++ tail) free bytes =
      some (List.replicate free 0 ++ (bytes ++ tail)) := by
  have hroom : free + bytes.length ≤ (List.replicate (free + bytes.length) 0 ++ tail).length := by
    simp
  have hfront : (List.replicate (free + bytes.length) (0 : UInt8) ++ tail).take free =
      List.replicate free 0 := by
    rw [List.take_append_of_le_length (by simp), List.take_replicate,
      Nat.min_eq_left (Nat.le_add_right _ _)]
  have hback : (List.replicate (free + bytes.length) (0 : UInt8) ++ tail).drop
      (free + bytes.length) = tail :=
    List.drop_left' List.length_replicate
  rw [overwrite?, if_pos hroom, hfront, hback, List.append_assoc]

namespace Frame

/-! ### Joined names -/

/-- The path of some names, innermost first. -/
def joined : List Bytes → Bytes
  | [] => []
  | [name] => name
  | name :: outer => joined outer ++ 0x2F :: name

theorem joined_cons {name : Bytes} {outer : List Bytes} (h : outer ≠ []) :
    joined (name :: outer) = joined outer ++ 0x2F :: name := by
  cases outer with
  | nil => exact absurd rfl h
  | cons n outer => rfl

/-- Names that are not empty make a path that is not. -/
theorem joined_ne_nil {names : List Bytes} (h : ∀ n ∈ names, n ≠ []) (hne : names ≠ []) :
    joined names ≠ [] := by
  cases names with
  | nil => exact absurd rfl hne
  | cons name outer =>
    cases outer with
    | nil => exact h name (List.mem_singleton_self name)
    | cons n outer => simp [joined]

/-- The room before the last name of a path: the path of the directory above and a slash, or none. -/
def roomBefore (outer : List Bytes) : Nat := if pathLength outer = 0 then 0 else pathLength outer + 1

theorem pathLength_cons (name : Bytes) (outer : List Bytes) :
    pathLength (name :: outer) = roomBefore outer + name.length := by
  rw [pathLength, roomBefore]
  split <;> omega

theorem pathLength_sub_length (name : Bytes) (outer : List Bytes) :
    pathLength (name :: outer) - name.length = roomBefore outer := by
  rw [pathLength_cons, Nat.add_sub_cancel]

/-- In front of a name below others there is room for their path and a slash. -/
theorem roomBefore_of_named {outer : List Bytes} (h : ∀ n ∈ outer, n ≠ []) (hne : outer ≠ []) :
    roomBefore outer = pathLength outer + 1 := by
  cases outer with
  | nil => exact absurd rfl hne
  | cons n outer =>
    have hn : 0 < n.length := List.length_pos_iff.mpr (h n (List.mem_cons_self ..))
    have hpos : pathLength (n :: outer) ≠ 0 := by
      rw [pathLength_cons]
      omega
    rw [roomBefore, if_neg hpos]

/-- The length that is set aside is the length of the path, so that it is filled up exactly. -/
theorem fillPath_pathLength {names : List Bytes} (h : ∀ n ∈ names, n ≠ []) (tail : Bytes) :
    fillPath names (pathLength names) tail = joined names ++ tail := by
  induction names generalizing tail with
  | nil => rfl
  | cons name outer ih =>
    have hname : name.isEmpty = false := by simpa using h name (List.mem_cons_self ..)
    have houter : ∀ n ∈ outer, n ≠ [] := fun n hn => h n (List.mem_cons_of_mem name hn)
    rw [fillPath, hname, pathLength_sub_length]
    simp only [Bool.false_eq_true, ite_false]
    by_cases hne : outer = []
    · subst hne
      rfl
    · rw [roomBefore_of_named houter hne, joined_cons hne, List.append_assoc, List.cons_append]
      exact ih houter _

theorem path_eq_joined {f : Frame} (h : ∀ n ∈ f.names, n ≠ []) : f.path = joined f.names := by
  rw [path, fillPath_pathLength h, List.append_nil]

/-- A directory's base is its parent's, its name and a slash. -/
theorem base_child {f : Frame} (h : ∀ n ∈ f.names, n ≠ []) {name : Bytes} (hn : name ≠ []) :
    (f.child name).base = f.base ++ name ++ [0x2F] := by
  have hall : ∀ n ∈ (f.child name).names, n ≠ [] := List.forall_mem_cons.mpr ⟨hn, h⟩
  have hchild : joined (f.child name).names ≠ [] := joined_ne_nil hall (List.cons_ne_nil _ _)
  have hbase : (f.child name).base = joined (name :: f.names) ++ [0x2F] := by
    rw [base, path_eq_joined hall, if_neg (by simpa using hchild)]
    rfl
  rw [hbase, base, path_eq_joined h]
  by_cases hne : f.names = []
  · rw [hne]
    rfl
  · have hout : (joined f.names).isEmpty = false := by simpa using joined_ne_nil h hne
    rw [joined_cons hne, hout]
    simp

/-! ### The buffer -/

/-- While a path is written, the blank bytes of the buffer are as many as the path of what is left
has, so that no offset falls below zero. That holds of empty names as well. -/
theorem fillBuffer?_pathLength (names : List Bytes) (tail : Bytes) :
    fillBuffer? names (pathLength names) (List.replicate (pathLength names) 0 ++ tail) =
      some (fillPath names (pathLength names) tail) := by
  induction names generalizing tail with
  | nil => rfl
  | cons name outer ih =>
    rw [fillBuffer?, fillPath]
    by_cases hname : name.isEmpty
    · rw [if_pos hname, if_pos hname]
    have hstart : (pathLength (name :: outer)).psub name.length = some (roomBefore outer) :=
      Nat.psub_eq_some.mpr (pathLength_cons name outer).symm
    have hwrite : overwrite? (List.replicate (pathLength (name :: outer)) 0 ++ tail)
        (roomBefore outer) name = some (List.replicate (roomBefore outer) 0 ++ (name ++ tail)) := by
      rw [pathLength_cons, overwrite?_blank]
    rw [if_neg hname, if_neg hname, pathLength_sub_length]
    simp only [hstart, hwrite, Option.bind_eq_bind, Option.bind_some]
    -- A slash is written only where the path of the directory above ends, which the root's does not.
    by_cases hroot : pathLength outer = 0
    · have hroom : roomBefore outer = 0 := if_pos hroot
      rw [hroom]
      rfl
    · have hroom : roomBefore outer = pathLength outer + 1 := if_neg hroot
      have hslash : (pathLength outer + 1).psub 1 = some (pathLength outer) :=
        Nat.psub_eq_some.mpr rfl
      have hmark : overwrite? (List.replicate (pathLength outer + 1) 0 ++ (name ++ tail))
          (pathLength outer) [0x2F] =
            some (List.replicate (pathLength outer) 0 ++ 0x2F :: (name ++ tail)) :=
        overwrite?_blank (pathLength outer) [0x2F] (name ++ tail)
      rw [hroom, if_neg (Nat.succ_ne_zero _)]
      simp only [hslash, hmark, Option.bind_some]
      exact ih _

/-- A buffer that is too short for the last name fails. -/
example : fillBuffer? [bytesOf "bee", bytesOf "a"] 2 [0, 0] = none := by decide

/-- The path of every directory can be written into its buffer. -/
theorem writtenPath?_eq (f : Frame) : f.writtenPath? = some f.path := by
  have hfill := fillBuffer?_pathLength f.names []
  rwa [List.append_nil] at hfill

/-! ### The names on the way -/

/-- The root of a walk. -/
def root (pathspec : Option Pathspec) (options : WalkOptions) : Frame := { pathspec, options }

/-- The directory that is reached by going down by names, outermost first. -/
def descend (f : Frame) (names : List Bytes) : Frame := names.foldl child f

/-- Descending adds the names, the innermost first. -/
theorem names_descend (f : Frame) (names : List Bytes) :
    (f.descend names).names = names.reverse ++ f.names := by
  induction names generalizing f with
  | nil => rfl
  | cons name names ih =>
    have hnext : (f.descend (name :: names)).names = names.reverse ++ name :: f.names :=
      ih (f.child name)
    rw [hnext, List.reverse_cons, List.append_assoc, List.singleton_append]

/-- Names that are kept innermost first are joined outermost first. -/
theorem joined_eq_intercalate (names : List Bytes) :
    joined names = [0x2F].intercalate names.reverse := by
  induction names with
  | nil => rfl
  | cons name outer ih =>
    by_cases hne : outer = []
    · subst hne
      simp [joined]
    · have hreversed : outer.reverse ≠ [] := by simpa using hne
      rw [joined_cons hne, ih, List.reverse_cons, intercalate_concat,
        ← intercalate_append_singleton 0x2F hreversed, List.append_assoc, List.singleton_append]

/-- Names that are not empty are joined to something. -/
theorem intercalate_eq_nil_iff {names : List Bytes} (h : ∀ n ∈ names, n ≠ []) :
    [0x2F].intercalate names = [] ↔ names = [] := by
  constructor
  · intro hjoin
    by_contra hne
    have hreversed : ∀ n ∈ names.reverse, n ≠ [] := fun n hn => h n (List.mem_reverse.mp hn)
    have hjoined : joined names.reverse ≠ [] := joined_ne_nil hreversed (by simpa using hne)
    rw [joined_eq_intercalate, List.reverse_reverse] at hjoined
    exact hjoined hjoin
  · rintro rfl
    rfl

variable {pathspec : Option Pathspec} {options : WalkOptions} {names : List Bytes}

theorem names_root_descend : ((root pathspec options).descend names).names = names.reverse := by
  rw [names_descend, root, List.append_nil]

/-- The path of a frame below the root is its names with slashes between them. -/
theorem path_root_descend (h : ∀ n ∈ names, n ≠ []) :
    ((root pathspec options).descend names).path = [0x2F].intercalate names := by
  have hall : ∀ n ∈ ((root pathspec options).descend names).names, n ≠ [] := by
    rw [names_root_descend]
    exact fun n hn => h n (List.mem_reverse.mp hn)
  rw [path_eq_joined hall, joined_eq_intercalate, names_root_descend, List.reverse_reverse]

/-- The base of a frame below the root is its path with a slash behind it. -/
theorem base_root_descend (h : ∀ n ∈ names, n ≠ []) :
    ((root pathspec options).descend names).base =
      if names = [] then [] else [0x2F].intercalate names ++ [0x2F] := by
  rw [base, path_root_descend h]
  simp only [List.isEmpty_iff, intercalate_eq_nil_iff h]

/-- The path of an entry is that of its name below those on the way. -/
theorem pathOf_root_descend (h : ∀ n ∈ names, n ≠ []) (name : Bytes) :
    ((root pathspec options).descend names).pathOf name = [0x2F].intercalate (names ++ [name]) := by
  rw [pathOf, base_root_descend h, intercalate_concat]
  by_cases hne : names = []
  · subst hne
    rfl
  · rw [if_neg hne, intercalate_append_singleton 0x2F hne]

/-- Going down from the root by names that are not empty leads to the directory whose path is these
names with slashes between them. Its base is the path and a slash, or empty at the root; an entry's
path is the base and the entry's name; its depth is the number of names; and its path is written into
a buffer of its length without an offset below zero. -/
theorem paths_spell_names (pathspec : Option Pathspec) (options : WalkOptions) {names : List Bytes}
    (h : ∀ n ∈ names, n ≠ []) :
    let f := (root pathspec options).descend names
    f.path = [0x2F].intercalate names ∧
      f.base = (if names = [] then [] else [0x2F].intercalate names ++ [0x2F]) ∧
      (∀ e : Entry, f.pathOf e.name = f.base ++ e.name ∧
        f.pathOf e.name = [0x2F].intercalate (names ++ [e.name])) ∧
      f.depth = names.length ∧
      f.writtenPath? = some f.path := by
  intro f
  have hdepth : f.depth = names.length := by
    rw [depth, names_root_descend, List.length_reverse]
  exact ⟨path_root_descend h, base_root_descend h,
    fun e => ⟨rfl, pathOf_root_descend h e.name⟩, hdepth, writtenPath?_eq f⟩

/-- Two directories down, the path is written back to front. -/
theorem paths_spell_names_two :
    (∀ n ∈ [bytesOf "a", bytesOf "bee"], n ≠ []) ∧
      ((root none {}).descend [bytesOf "a", bytesOf "bee"]).writtenPath? =
        some (bytesOf "a/bee") ∧
      ((root none {}).descend [bytesOf "a", bytesOf "bee"]).base = bytesOf "a/bee/" ∧
      ((root none {}).descend [bytesOf "a", bytesOf "bee"]).depth = 2 := by
  have hnames : ∀ n ∈ [bytesOf "a", bytesOf "bee"], n ≠ [] := by decide
  obtain ⟨hpath, hbase, -, hdepth, hwritten⟩ := paths_spell_names none {} hnames
  refine ⟨hnames, ?_, ?_, hdepth⟩
  · rw [hwritten, hpath]
    decide
  · rw [hbase]
    decide

end Frame

end GitRemote
