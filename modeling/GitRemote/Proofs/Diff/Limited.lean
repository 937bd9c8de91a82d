import GitRemote.Proofs.Diff.Agreement
import GitRemote.Proofs.Diff.Exact

/-!
# Limited differences

A comparison that is limited to a pathspec lists a part of the changes that the whole comparison
lists. It is the wanted part just if the sides agree about every name that it comes to. They need
not: a deletion can be lost, and one can be listed that is not wanted.
-/

namespace GitRemote

variable {source : ObjectSource} {spec : Pathspec} {f : Frame} {o n : Cursor} {base name : Bytes}
  {old new : Option ObjectId} {levels : Nat}

/-- The frame limited to a pathspec. -/
def Frame.limit (f : Frame) (spec : Pathspec) : Frame := { f with pathspec := some spec }

/-- That a limited comparison lists a part of the changes, which is the wanted part just if the
sides agree. -/
def Commutes (source : ObjectSource) (spec : Pathspec) (levels : Nat) : Prop :=
  ∀ (f : Frame) (old new : Option ObjectId) (o n : Cursor) (changes : List Change), f.Whole →
    DirBase f.base → Sides source old new o n →
      diffBelow source levels f o n [] = (.ok (), changes) →
        ∃ limited, diffBelow source levels (f.limit spec) o n [] = (.ok (), limited) ∧
          limited.Sublist changes ∧
            (limited = changes.filter (·.wanted spec) ↔ SidesAgree source spec f.base old new)

/-- The same of a single name. -/
structure RoundCommutes (source : ObjectSource) (spec : Pathspec) (levels : Nat) (f : Frame)
    (o n : Cursor) (name : Bytes) : Prop where
  ok : ∃ used, (diffRound source levels (f.limit spec) (pairRound o n name)).1 = .ok used
  sublist : (diffRound source levels (f.limit spec) (pairRound o n name)).2.Sublist
    (diffRound source levels f (pairRound o n name)).2
  agrees : (if name ∈ passedNames spec f.base o n then
      (diffRound source levels (f.limit spec) (pairRound o n name)).2 else []) =
      (diffRound source levels f (pairRound o n name)).2.filter (·.wanted spec) ↔
    NameAgrees source spec f.base (o.entryOf name) (n.entryOf name)
        (name ∈ passedNames spec f.base o n) ∧
      (name ∈ passedNames spec f.base o n →
        unchanged (o.entryOf name) (n.entryOf name) = false →
          SidesAgree source spec (f.base ++ name ++ [0x2F]) (dirId (o.entryOf name))
            (dirId (n.entryOf name)))

/-- The side of a name that is a leaf itself: the new one, if both are. -/
def leafSide (old new : Option Entry) : Option Entry :=
  (new.filter (!·.isDir)).or (old.filter (!·.isDir))

/-- The change of a name itself is wanted if the leaf that the name is is interesting. -/
theorem ownChange_cases (spec : Pathspec) (ho : o.WellFormed) (hn : n.WellFormed)
    (hb : DirBase f.base) :
    (leafSide (o.entryOf name) (n.entryOf name) = none ∧ ownChange f o n name = []) ∨
      ∃ e change, leafSide (o.entryOf name) (n.entryOf name) = some e ∧
        ownChange f o n name = [change] ∧
          change.wanted spec = (spec.interest e f.base).isInteresting := by
  have hleaf {c : Cursor} (hw : c.WellFormed) {e : Entry}
      (he : (c.entryOf name).filter (!·.isDir) = some e) : 0x2F ∉ e.name ∧ e.name = name := by
    obtain ⟨hmem, hname⟩ := hw.entryOf_eq_some.mp (Option.filter_eq_some_iff.mp he).1
    exact ⟨hw.slashFree e hmem, hname⟩
  rw [ownChange, Change.between?, leafSide]
  cases hoe : (o.entryOf name).filter (!·.isDir) with
  | none =>
    cases hne : (n.entryOf name).filter (!·.isDir) with
    | none => exact Or.inl ⟨rfl, rfl⟩
    | some e => exact Or.inr ⟨e, _, rfl, rfl, wantsLeaf_append hb (hleaf hn hne).1⟩
  | some e =>
    cases hne : (n.entryOf name).filter (!·.isDir) with
    | none => exact Or.inr ⟨e, _, rfl, rfl, wantsLeaf_append hb (hleaf ho hoe).1⟩
    | some e' =>
      refine Or.inr ⟨e', _, rfl, rfl, ?_⟩
      have hsame : e.name = e'.name := (hleaf ho hoe).2.trans (hleaf hn hne).2.symm
      rw [Frame.pathOf, hsame]
      exact wantsLeaf_append hb (hleaf hn hne).1

/-- Without a leaf of that name itself, all there is of the name are directories. -/
theorem isDir_of_leafSide {oldSide newSide : Option Entry} (h : leafSide oldSide newSide = none) :
    (∀ e, oldSide = some e → e.isDir = true) ∧ ∀ e, newSide = some e → e.isDir = true := by
  rw [leafSide, Option.or_eq_none_iff] at h
  constructor
  · rintro e rfl
    simpa [Option.filter_some] using h.2
  · rintro e rfl
    simpa [Option.filter_some] using h.1

/-- A name that is entered and a leaf too is a directory on one side and none on the other. -/
theorem turned_cases {oldSide newSide : Option Entry} {dir e : Entry}
    (hd : entered? oldSide newSide = some dir) (hl : leafSide oldSide newSide = some e) :
    (oldSide = some dir ∧ newSide = some e ∧ dir.isDir = true ∧ e.isDir = false) ∨
      (oldSide = some e ∧ newSide = some dir ∧ e.isDir = false ∧ dir.isDir = true) := by
  rw [entered?, Option.orElse_eq_orElse, Option.orElse_eq_or, Option.or_eq_some_iff] at hd
  rw [leafSide, Option.or_eq_some_iff] at hl
  simp only [Option.filter_eq_some_iff, Bool.not_eq_true'] at hd hl
  rcases hd with ⟨hold, hdir⟩ | ⟨_, hnew, hdir⟩
  · rcases hl with ⟨hnew, hfile⟩ | ⟨_, hold', hfile⟩
    · exact Or.inl ⟨hold, hnew, hdir, hfile⟩
    · rw [Option.some.inj (hold.symm.trans hold'), hfile] at hdir
      cases hdir
  · rcases hl with ⟨hnew', hfile⟩ | ⟨_, hold, hfile⟩
    · rw [Option.some.inj (hnew.symm.trans hnew'), hfile] at hdir
      cases hdir
    · exact Or.inr ⟨hold, hnew, hfile, hdir⟩

/-- A wanted change is one of a wanted leaf. -/
theorem exists_leaf_of_wanted {change : Change}
    (h : Differs (Leaf source base old) (Leaf source base new) change)
    (hw : change.wanted spec = true) :
    ∃ path mode id, (Leaf source base old path mode id ∨ Leaf source base new path mode id) ∧
      spec.wantsLeaf path mode id = true := by
  cases change with
  | added path mode id => exact ⟨path, mode, id, Or.inr h.1, hw⟩
  | deleted path mode id => exact ⟨path, mode, id, Or.inl h.1, hw⟩
  | modified path om oi nm ni => exact ⟨path, nm, ni, Or.inr h.2.1, hw⟩

/-- A name that did not change makes no change, whether limited or filtered. -/
theorem roundCommutes_of_unchanged (hs : unchanged (o.entryOf name) (n.entryOf name) = true) :
    RoundCommutes source spec levels f o n name := by
  have hmode : ∀ d e, o.entryOf name = some d → n.entryOf name = some e → d.isDir = e.isDir := by
    intro d e hd he
    rw [hd, he] at hs
    simp only [unchanged, Bool.and_eq_true, beq_iff_eq] at hs
    rw [Entry.isDir, Entry.isDir, hs.2]
  constructor
  · exact ⟨_, by rw [diffRound_of_unchanged hs]⟩
  · rw [diffRound_of_unchanged hs, diffRound_of_unchanged hs]
  · rw [diffRound_of_unchanged hs, diffRound_of_unchanged hs]
    simp only [ite_self, List.filter_nil, true_iff]
    refine ⟨.of_same_kind hmode, fun _ hno => ?_⟩
    rw [hs] at hno
    cases hno

/-- Where nothing is entered, the leaf that a name is is what the pathspec is asked about. -/
theorem leafSide_of_not_entered (hd : entered? (o.entryOf name) (n.entryOf name) = none) :
    leafSide (o.entryOf name) (n.entryOf name) = winnerOf o n name ∧
      ∀ e, winnerOf o n name = some e → e.isDir = false := by
  rw [entered?, Option.orElse_eq_orElse, Option.orElse_eq_or, Option.or_eq_none_iff] at hd
  have hfile {side : Option Entry} (h : side.filter (·.isDir) = none) :
      side.filter (!·.isDir) = side := by
    cases side with
    | none => rfl
    | some e => simpa [Option.filter_some] using h
  have hsame : leafSide (o.entryOf name) (n.entryOf name) = winnerOf o n name := by
    rw [leafSide, winnerOf, hfile hd.1, hfile hd.2]
  refine ⟨hsame, fun e he => ?_⟩
  rw [← hsame, leafSide, Option.or_eq_some_iff] at he
  have hnot {side : Option Entry} (h : side.filter (!·.isDir) = some e) : e.isDir = false := by
    simpa using (Option.filter_eq_some_iff.mp h).2
  exact he.elim hnot fun h => hnot h.2

/-- A change of two leaves is the same whether it is limited or filtered. -/
theorem roundCommutes_of_not_entered (h : Sides source old new o n) (hb : DirBase f.base)
    (hmem : name ∈ pairNames o n) (hs : unchanged (o.entryOf name) (n.entryOf name) = false)
    (hd : entered? (o.entryOf name) (n.entryOf name) = none) :
    RoundCommutes source spec levels f o n name := by
  obtain ⟨hold, hnew⟩ := dirId_of_not_entered hd
  obtain ⟨hside, hfile⟩ := leafSide_of_not_entered hd
  have hagrees : NameAgrees source spec f.base (o.entryOf name) (n.entryOf name)
      (name ∈ passedNames spec f.base o n) := by
    constructor
    · intro d e hod _ hdir _ _
      rw [hod, dirId_some, if_pos hdir] at hold
      cases hold
    · intro e d _ hnd _ hdir
      rw [hnd, dirId_some, if_pos hdir] at hnew
      cases hnew
  have hown : ownChange (f.limit spec) o n name = ownChange f o n name := rfl
  constructor
  · exact ⟨_, by rw [diffRound_of_not_entered hs hd]⟩
  · rw [diffRound_of_not_entered hs hd, diffRound_of_not_entered hs hd, hown]
  · rw [diffRound_of_not_entered hs hd, diffRound_of_not_entered hs hd, hown]
    refine iff_of_true ?_ ⟨hagrees, fun _ _ => sidesAgree_of_none (Or.inl hold)⟩
    rcases ownChange_cases spec h.wellFormedOld h.wellFormedNew hb with
      ⟨_, hnone⟩ | ⟨e, change, he, hone, hwanted⟩
    · rw [hnone, ite_self, List.filter_nil]
    · rw [hside] at he
      have hpass : name ∈ passedNames spec f.base o n ↔ change.wanted spec = true := by
        rw [hwanted]
        exact passed_iff_of_file h.wellFormedOld h.wellFormedNew hmem he (hfile e he)
      rw [hone]
      by_cases hp : name ∈ passedNames spec f.base o n
      · rw [if_pos hp, List.filter_cons_of_pos (hpass.mp hp), List.filter_nil]
      · rw [if_neg hp, List.filter_cons_of_neg fun hw => hp (hpass.mpr hw), List.filter_nil]

/-- A list of differences has no wanted change if no leaf is wanted. -/
theorem filter_eq_nil_of_not_wanted {changes : List Change}
    (hx : Exact (Leaf source base old) (Leaf source base new) changes)
    (hno : ∀ path mode id, Leaf source base old path mode id ∨ Leaf source base new path mode id →
      spec.wantsLeaf path mode id = false) : changes.filter (·.wanted spec) = [] := by
  rw [List.filter_eq_nil_iff]
  intro change hmem hwant
  obtain ⟨path, mode, id, hl, hw⟩ := exists_leaf_of_wanted ((hx.mem_iff change).mp hmem) hwant
  rw [hno path mode id hl] at hw
  cases hw

section Turned

variable {whole limited : List Change} {change : Change} {d e : Entry} {passed : Prop}
  [Decidable passed]

/-- Where all there is of a name are directories, it agrees if what is below does. -/
theorem agrees_of_directories {below : Prop} (hl : limited = whole.filter (·.wanted spec) ↔ below)
    (hnone : ¬ passed → whole.filter (·.wanted spec) = []) :
    (if passed then limited ++ [] else []) = (whole ++ []).filter (·.wanted spec) ↔
      (passed → below) := by
  rw [List.append_nil, List.append_nil]
  by_cases hp : passed
  · rw [if_pos hp, hl]
    exact ⟨fun h _ => h, fun h => h hp⟩
  · rw [if_neg hp, hnone hp]
    exact iff_of_true rfl fun h => absurd h hp

/-- Where a leaf takes the place of a directory, what goes with the directory is lost if the leaf is
not interesting. -/
theorem agrees_of_leaf (hd : d.isDir = true) (he : e.isDir = false)
    (hx : Exact (Leaf source (base ++ d.name ++ [0x2F]) (some d.id))
      (Leaf source (base ++ d.name ++ [0x2F]) none) whole)
    (hl : limited = whole.filter (·.wanted spec))
    (hpass : passed ↔ (spec.interest e base).isInteresting = true)
    (hc : change.wanted spec = (spec.interest e base).isInteresting) :
    (if passed then limited ++ [change] else []) = (whole ++ [change]).filter (·.wanted spec) ↔
      NameAgrees source spec base (some d) (some e) passed := by
  rw [nameAgrees_leaf_iff hd he, List.filter_append, hl]
  by_cases hp : passed
  · have hin := hpass.mp hp
    rw [if_pos hp, List.filter_cons_of_pos (hc.trans hin), List.filter_nil]
    exact iff_of_true rfl fun _ => hin
  · have hno : ¬ change.wanted spec = true := fun h => hp (hpass.mpr (hc ▸ h))
    rw [if_neg hp, List.filter_cons_of_neg hno, List.filter_nil, List.append_nil, eq_comm,
      List.filter_eq_nil_iff]
    constructor
    · rintro hnone ⟨path, mode, id, hleaf, hwant⟩
      rw [Entry.LeafIn, if_pos hd] at hleaf
      have hmem : Change.deleted path mode id ∈ whole :=
        (hx.mem_iff _).mpr ⟨hleaf, fun _ _ => not_leaf_none⟩
      exact absurd hwant (hnone _ hmem)
    · intro himp gone hmem hwant
      obtain ⟨path, mode, id, hleaf, hw⟩ := exists_leaf_of_wanted ((hx.mem_iff gone).mp hmem) hwant
      have hin : d.LeafIn source base path mode id := by
        rw [Entry.LeafIn, if_pos hd]
        exact hleaf.resolve_right not_leaf_none
      exact hp (hpass.mpr (himp ⟨path, mode, id, hin, hw⟩))

/-- Where a directory takes the place of a leaf, the leaf is listed just if the directory is taken
up. -/
theorem agrees_of_directory (he : e.isDir = false) (hd : d.isDir = true)
    (hl : limited = whole.filter (·.wanted spec))
    (hnone : ¬ passed → whole.filter (·.wanted spec) = [])
    (hc : change.wanted spec = (spec.interest e base).isInteresting) :
    (if passed then limited ++ [change] else []) = (whole ++ [change]).filter (·.wanted spec) ↔
      NameAgrees source spec base (some e) (some d) passed := by
  rw [nameAgrees_directory_iff he hd, ← hc, List.filter_append, hl]
  by_cases hp : passed
  · rw [if_pos hp, List.append_cancel_left_eq]
    cases hw : change.wanted spec <;> simp [hw, hp]
  · rw [if_neg hp, hnone hp, List.nil_append]
    cases hw : change.wanted spec <;> simp [hw, hp]

end Turned

/-- Under a directory that is not let through no change is wanted. -/
theorem filter_eq_nil_of_not_passed (h : Sides source old new o n) (hb : DirBase base)
    (hspec : spec.recursive = true ∨ spec.hasWildcard = false) (hmem : name ∈ pairNames o n)
    {changes : List Change}
    (hx : Exact (Leaf source (base ++ name ++ [0x2F]) (dirId (o.entryOf name)))
      (Leaf source (base ++ name ++ [0x2F]) (dirId (n.entryOf name))) changes)
    {w : Entry} (hw : winnerOf o n name = some w) (hd : w.isDir = true)
    (hnot : name ∉ passedNames spec base o n) : changes.filter (·.wanted spec) = [] := by
  refine filter_eq_nil_of_not_wanted hx fun path mode id hl => ?_
  have hlost {root : Option ObjectId} (hr : source.Sound root)
      (hl : Leaf source (base ++ name ++ [0x2F]) root path mode id) :=
    not_wantsLeaf_of_not_passed h.wellFormedOld h.wellFormedNew hb hspec hmem hnot hw hd hr hl
  exact hl.elim (hlost (h.soundOld.dirId h.opensOld name))
    (hlost (h.soundNew.dirId h.opensNew name))

/-- A name with directories that are compared agrees if both its sides and what is below them do. -/
theorem agrees_of_entered (h : Sides source old new o n) (hb : DirBase f.base)
    (hspec : spec.recursive = true ∨ spec.hasWildcard = false) (hmem : name ∈ pairNames o n)
    {dir : Entry} (hd : entered? (o.entryOf name) (n.entryOf name) = some dir)
    {whole limited : List Change}
    (hx : Exact (Leaf source (f.base ++ name ++ [0x2F]) (dirId (o.entryOf name)))
      (Leaf source (f.base ++ name ++ [0x2F]) (dirId (n.entryOf name))) whole)
    (hl : limited = whole.filter (·.wanted spec) ↔
      SidesAgree source spec (f.base ++ name ++ [0x2F]) (dirId (o.entryOf name))
        (dirId (n.entryOf name))) :
    (if name ∈ passedNames spec f.base o n then limited ++ ownChange f o n name else []) =
        (whole ++ ownChange f o n name).filter (·.wanted spec) ↔
      NameAgrees source spec f.base (o.entryOf name) (n.entryOf name)
          (name ∈ passedNames spec f.base o n) ∧
        (name ∈ passedNames spec f.base o n →
          SidesAgree source spec (f.base ++ name ++ [0x2F]) (dirId (o.entryOf name))
            (dirId (n.entryOf name))) := by
  have hnone {w : Entry} (hw : winnerOf o n name = some w) (hdw : w.isDir = true) :=
    filter_eq_nil_of_not_passed h hb hspec hmem hx hw hdw
  rcases ownChange_cases spec h.wellFormedOld h.wellFormedNew hb with
    ⟨hside, hempty⟩ | ⟨e, change, hside, hone, hwanted⟩
  · obtain ⟨hold, hnew⟩ := isDir_of_leafSide hside
    have hagrees : NameAgrees source spec f.base (o.entryOf name) (n.entryOf name)
        (name ∈ passedNames spec f.base o n) :=
      .of_same_kind fun d e hd he => (hold d hd).trans (hnew e he).symm
    obtain ⟨w, hw⟩ := exists_winnerOf hmem
    have hdw : w.isDir = true :=
      (Option.or_eq_some_iff.mp hw).elim (hnew w) fun hw => hold w hw.2
    rw [hempty, and_iff_right hagrees, agrees_of_directories hl (hnone hw hdw)]
  · rw [hone]
    rcases turned_cases hd hside with ⟨hold, hnew, hdir, hfile⟩ | ⟨hold, hnew, hfile, hdir⟩
    · have hchild : dirId (n.entryOf name) = none := by
        rw [hnew, dirId_some, hfile]
        rfl
      have hsame := hl.mpr (sidesAgree_of_none (Or.inr hchild))
      have hw : winnerOf o n name = some e := by
        rw [winnerOf, hnew, Option.some_or]
      obtain rfl := h.wellFormedOld.name_of_entryOf name dir hold
      rw [and_iff_left fun _ => hl.mp hsame, hold, hnew]
      rw [hchild, hold, dirId_some, if_pos hdir] at hx
      exact agrees_of_leaf hdir hfile hx hsame
        (passed_iff_of_file h.wellFormedOld h.wellFormedNew hmem hw hfile) hwanted
    · have hchild : dirId (o.entryOf name) = none := by
        rw [hold, dirId_some, hfile]
        rfl
      have hsame := hl.mpr (sidesAgree_of_none (Or.inl hchild))
      have hw : winnerOf o n name = some dir := by
        rw [winnerOf, hnew, Option.some_or]
      rw [and_iff_left fun _ => hl.mp hsame, hold, hnew]
      exact agrees_of_directory hfile hdir hsame (hnone hw hdir) hwanted

/-- Where a directory is entered, what holds below it and of the entry itself holds of the name. -/
theorem roundCommutes_of_entered (h : Sides source old new o n) (hf : f.Whole)
    (hb : DirBase f.base) (hspec : spec.recursive = true ∨ spec.hasWildcard = false)
    (hmem : name ∈ pairNames o n) (hs : unchanged (o.entryOf name) (n.entryOf name) = false)
    {dir : Entry} (hd : entered? (o.entryOf name) (n.entryOf name) = some dir)
    (ih : Commutes source spec levels) {used : Nat}
    (hok : (diffRound source levels f (pairRound o n name)).1 = .ok used) :
    RoundCommutes source spec levels f o n name := by
  obtain ⟨hplain, hname⟩ := h.entered_name hd
  obtain ⟨rfl, _, _⟩ := h.entered_cases hd
  have hbase : (f.child dir.name).base = f.base ++ dir.name ++ [0x2F] :=
    Frame.base_child hf.named hname
  obtain ⟨o', n', hload, hsides⟩ := h.child dir.name
  obtain ⟨whole, hrun⟩ := diffBelow_of_diffRound hs hd hload hok
  have hx := listsDifferences source levels _ _ _ o' n' whole (hf.child hname) hsides hrun
  obtain ⟨limited, hrun', hsub, hagree⟩ := ih _ _ _ o' n' whole (hf.child hname)
    (hbase ▸ hb.child hplain.1) hsides hrun
  rw [hbase] at hx hagree
  have hlimited : diffBelow source levels ((f.limit spec).child dir.name) o' n' [] =
      (.ok (), limited) := hrun'
  have hown : ownChange (f.limit spec) o n dir.name = ownChange f o n dir.name := rfl
  constructor
  · exact ⟨_, by rw [diffRound_of_entered hs hd hload hlimited]⟩
  · rw [diffRound_of_entered hs hd hload hlimited, diffRound_of_entered hs hd hload hrun, hown]
    exact hsub.append_right _
  · rw [diffRound_of_entered hs hd hload hlimited, diffRound_of_entered hs hd hload hrun, hown]
    simp only [hs, true_implies]
    exact agrees_of_entered h hb hspec hmem hd hx hagree

end GitRemote
