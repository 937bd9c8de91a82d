import GitRemote.Proofs.Pathspec.Reach

/-!
# All directories above a match

A path leads through a chain of directories. If the file at its end is interesting in the last of
them, each of the directories is interesting in the one before, unless wildcards are not followed
into directories. So a walk that enters interesting directories only comes to every match.
-/

namespace GitRemote

/-- The base of the directory that some names lead to from the root, outermost first. -/
def dirBase (names : List Bytes) : Bytes := names.flatMap (· ++ [0x2F])

theorem dirBase_append (outer inner : List Bytes) :
    dirBase (outer ++ inner) = dirBase outer ++ dirBase inner :=
  List.flatMap_append

theorem dirBase_cons (name : Bytes) (inner : List Bytes) :
    dirBase (name :: inner) = name ++ 0x2F :: dirBase inner := by
  rw [dirBase, List.flatMap_cons, List.append_assoc]
  rfl

/-- Names without a zero byte make a base without one. -/
theorem dirBase_free {names : List Bytes} (h : ∀ n ∈ names, 0 ∉ n) : 0 ∉ dirBase names := by
  simp only [dirBase, List.mem_flatMap, List.mem_append, List.mem_singleton, not_exists, not_and,
    not_or]
  exact fun n hn => ⟨h n hn, by decide⟩

/-- A directory on a path, seen from the file at its end. -/
theorem leads_of_getElem? {names : List Bytes} (h : ∀ n ∈ names, PlainName n ∧ n ≠ []) {i : Nat}
    {d : Entry} (hi : names[i]? = some d.name) (hd : d.isDir = true) :
    Leads (dirBase (names.take i)) d (dirBase (names.drop (i + 1))) where
  isDir := hd
  plain := (h d.name (List.mem_of_getElem? hi)).1
  nonempty := (h d.name (List.mem_of_getElem? hi)).2
  base_free := dirBase_free fun n hn => (h n (List.mem_of_mem_take hn)).1.1
  inner_free := dirBase_free fun n hn => (h n (List.mem_of_mem_drop hn)).1.1

/-- A base is cut at any directory on the way to it. -/
theorem dirBase_eq_baseBelow {names : List Bytes} {i : Nat} {d : Entry}
    (hi : names[i]? = some d.name) :
    dirBase names = baseBelow (dirBase (names.take i)) d (dirBase (names.drop (i + 1))) := by
  have hsplit : names = names.take i ++ d.name :: names.drop (i + 1) := by
    obtain ⟨hlt, hname⟩ := List.getElem?_eq_some_iff.mp hi
    rw [← hname, List.getElem_cons_drop hlt, List.take_append_drop]
  conv_lhs => rw [hsplit, dirBase_append, dirBase_cons]
  rfl

/-- Each directory on the path to an interesting file is interesting in the one before. -/
theorem directories_above_match_are_interesting {spec : Pathspec}
    (hw : spec.recursive = true ∨ spec.hasWildcard = false) {names : List Bytes}
    (hn : ∀ n ∈ names, PlainName n ∧ n ≠ []) {x : Entry} (hx : x.isDir = false)
    (h : (spec.interest x (dirBase names)).isInteresting = true) (i : Nat) (d : Entry)
    (hi : names[i]? = some d.name) (hd : d.isDir = true) :
    (spec.interest d (dirBase (names.take i))).isInteresting = true := by
  have hl := leads_of_getElem? hn hi hd
  rw [dirBase_eq_baseBelow hi] at h
  exact Pathspec.interest_directory hl hx hw h

/-- Files that end in `.c`, at most two directories below `a`, but not those in `a/b/g`. -/
def sourcesBelow : Pathspec :=
  { items := [.ofPattern [0x61, 0x2F, 0x2A, 0x2E, 0x63] {},
      .ofPattern [0x41, 0x2F, 0x62] { literal := true, icase := true },
      .ofPattern [0x61, 0x2F, 0x62, 0x2F, 0x67] { exclude := true }]
    recursive := true
    maxDepth := some 2 }

/-- The path `a/b/c/m.c`, of which the second directory is looked at. -/
theorem directories_above_match_are_interesting_nested :
    (sourcesBelow.interest ⟨modeFile, [0x6D, 0x2E, 0x63], .null⟩
        (dirBase [[0x61], [0x62], [0x63]])).isInteresting = true ∧
      (sourcesBelow.interest ⟨modeTree, [0x62], .null⟩ (dirBase [[0x61]])).isInteresting =
        true := by
  have hmatch : (sourcesBelow.interest ⟨modeFile, [0x6D, 0x2E, 0x63], .null⟩
      (dirBase [[0x61], [0x62], [0x63]])).isInteresting = true := by decide +kernel
  exact ⟨hmatch, directories_above_match_are_interesting (Or.inl rfl) (by decide) rfl hmatch 1
    ⟨modeTree, [0x62], .null⟩ rfl rfl⟩

end GitRemote
