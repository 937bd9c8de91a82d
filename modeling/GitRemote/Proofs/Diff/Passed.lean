import GitRemote.Proofs.Diff.Sides
import GitRemote.Proofs.Diff.Wanted
import GitRemote.Proofs.Walk.Pruning

/-!
# Names that a pathspec lets through

A limited comparison takes up a name if the winner of the name's round is interesting and no name
before it ended the directory. Files are taken up just if they are interesting. Under a directory
that is not taken up, no leaf is wanted.
-/

namespace GitRemote

variable {source : ObjectSource} {spec : Pathspec} {f : Frame} {o n : Cursor} {base name : Bytes}
  {w : Entry}

/-- The names of a directory that a pathspec lets through. -/
def passedNames (spec : Pathspec) (base : Bytes) (o n : Cursor) : List Bytes :=
  ((pairNames o n).takeWhile fun name =>
    (pairRound o n name).interest spec base != .allNotInteresting).filter fun name =>
      spec.wants base (pairRound o n name)

/-- The entry of a name that a pathspec is asked about: the new one, if there is one. -/
def winnerOf (o n : Cursor) (name : Bytes) : Option Entry :=
  (n.entryOf name).or (o.entryOf name)

/-- The winner of a round of two trees is the first entry that one of them has of the name. -/
theorem winner?_pairRound : (pairRound o n name).winner? = winnerOf o n name := by
  simp only [Round.winner?, pairRound, gather, winnerOf, Cursor.entryOf, List.map_cons, List.map_nil,
    List.reverse_cons, List.reverse_nil, List.nil_append, List.cons_append, List.findSome?_cons,
    List.findSome?_nil, id]
  cases n.pending.find? (·.entry.name == name) with
  | some p => rfl
  | none => cases o.pending.find? (·.entry.name == name) <;> rfl

theorem interest_pairRound (spec : Pathspec) (base : Bytes) (hw : winnerOf o n name = some w) :
    (pairRound o n name).interest spec base = spec.interest w base := by
  simp only [Round.interest, winner?_pairRound, hw]

theorem stored_pair (ho : o.WellFormed) (hn : n.WellFormed) :
    ∀ t ∈ [o.pending, n.pending], Stored t := by
  simp only [List.forall_mem_cons, ho.stored, hn.stored, List.not_mem_nil, false_implies,
    implies_true, and_self]

/-- The rounds of a limited comparison are those of the names that are let through. -/
theorem comparedRounds_of_pathspec (hf : f.pathspec = some spec) (ho : o.WellFormed)
    (hn : n.WellFormed) :
    comparedRounds f o n = (passedNames spec f.base o n).map (pairRound o n) := by
  have hst := stored_pair ho hn
  rw [comparedRounds, offered_levelRounds hf hst, levelRounds, List.takeWhile_map, List.filter_map]
  rfl

theorem passedNames_sublist : (passedNames spec base o n).Sublist (pairNames o n) :=
  List.filter_sublist.trans (List.takeWhile_sublist _)

/-- Every name that is compared has an entry on one of the sides. -/
theorem exists_winnerOf (h : name ∈ pairNames o n) : ∃ w, winnerOf o n name = some w := by
  simp only [winnerOf, ← Option.isSome_iff_exists, Option.isSome_or, Bool.or_eq_true]
  simpa only [Option.isSome_iff_exists] using (mem_pairNames.mp h).symm

/-- The entry of a name bears it, and the name is a plain one. -/
theorem name_of_winnerOf (ho : o.WellFormed) (hn : n.WellFormed) (hw : winnerOf o n name = some w) :
    w.name = name ∧ PlainName name ∧ name ≠ [] := by
  rw [winnerOf, Option.or_eq_some_iff] at hw
  rcases hw with hw | ⟨_, hw⟩
  · obtain ⟨hmem, rfl⟩ := hn.entryOf_eq_some.mp hw
    exact ⟨rfl, hn.plain hmem, hn.name_ne_nil hmem⟩
  · obtain ⟨hmem, rfl⟩ := ho.entryOf_eq_some.mp hw
    exact ⟨rfl, ho.plain hmem, ho.name_ne_nil hmem⟩

/-- What is cut off fails the test, or comes behind something that does. -/
theorem not_mem_takeWhile {α : Type} {R : α → α → Prop} {go : α → Bool} {l : List α} {a : α}
    (hp : l.Pairwise R) (ha : a ∈ l) (h : a ∉ l.takeWhile go) :
    go a = false ∨ ∃ b ∈ l, go b = false ∧ R b a := by
  induction l with
  | nil => cases ha
  | cons x l ih =>
    rw [List.pairwise_cons] at hp
    cases hx : go x with
    | true =>
      rw [List.takeWhile_cons_of_pos hx, List.mem_cons, not_or] at h
      have hmem : a ∈ l := (List.mem_cons.mp ha).resolve_left h.1
      exact (ih hp.2 hmem h.2).imp id fun ⟨b, hb, hgo, hR⟩ =>
        ⟨b, List.mem_cons_of_mem x hb, hgo, hR⟩
    | false =>
      rcases List.mem_cons.mp ha with rfl | hmem
      · exact Or.inl hx
      · exact Or.inr ⟨x, List.mem_cons_self .., hx, hp.1 a hmem⟩

/-- What is let through is interesting. -/
theorem interest_of_passed (h : name ∈ passedNames spec base o n)
    (hw : winnerOf o n name = some w) : (spec.interest w base).isInteresting = true := by
  rw [← interest_pairRound spec base hw]
  exact (List.mem_filter.mp h).2

/-- What is not let through is not interesting, or comes behind what ended the directory. -/
theorem not_passed_cases (ho : o.WellFormed) (hn : n.WellFormed) (hmem : name ∈ pairNames o n)
    (hnot : name ∉ passedNames spec base o n) (hw : winnerOf o n name = some w) :
    (spec.interest w base).isInteresting = false ∨
      ∃ e, spec.interest e base = .allNotInteresting ∧ Later e.name name := by
  have hst := stored_pair ho hn
  have hown := interest_pairRound spec base hw
  by_cases hgo : name ∈ (pairNames o n).takeWhile fun name =>
      (pairRound o n name).interest spec base != .allNotInteresting
  · have hno : ¬ spec.wants base (pairRound o n name) = true := fun hwant =>
      hnot (List.mem_filter.mpr ⟨hgo, hwant⟩)
    rw [Pathspec.wants, hown, Bool.not_eq_true] at hno
    exact Or.inl hno
  · rcases not_mem_takeWhile (pairwise_later hst) hmem hgo with hend | ⟨before, hb, hend, hlater⟩
    · left
      rw [bne_eq_false_iff_eq, hown] at hend
      rw [hend]
      rfl
    · right
      obtain ⟨e, he⟩ := exists_winnerOf hb
      rw [bne_eq_false_iff_eq, interest_pairRound spec base he] at hend
      exact ⟨e, hend, (name_of_winnerOf ho hn he).1.symm ▸ hlater⟩

/-- A name whose winner is no directory is let through just if the winner is interesting. -/
theorem passed_iff_of_file (ho : o.WellFormed) (hn : n.WellFormed) (hmem : name ∈ pairNames o n)
    (hw : winnerOf o n name = some w) (hd : w.isDir = false) :
    name ∈ passedNames spec base o n ↔ (spec.interest w base).isInteresting = true := by
  refine ⟨fun h => interest_of_passed h hw, fun hin => ?_⟩
  by_contra hnot
  obtain ⟨hname, hplain, _⟩ := name_of_winnerOf ho hn hw
  rcases not_passed_cases ho hn hmem hnot hw with hno | ⟨e, hend, hlater⟩
  · rw [hno] at hin
    cases hin
  · have hno := Pathspec.interest_of_later hend (hname ▸ hplain) (hname ▸ hlater) (Or.inr hd)
    rw [hno] at hin
    cases hin

/-- Under a directory that is not let through no leaf is wanted. -/
theorem not_wantsLeaf_of_not_passed (ho : o.WellFormed) (hn : n.WellFormed) (hb : DirBase base)
    (hs : spec.recursive = true ∨ spec.hasWildcard = false) (hmem : name ∈ pairNames o n)
    (hnot : name ∉ passedNames spec base o n) (hw : winnerOf o n name = some w)
    (hd : w.isDir = true) {root : Option ObjectId} (hr : source.Sound root) {path : Bytes}
    {mode : Nat} {id : ObjectId} (hl : Leaf source (base ++ name ++ [0x2F]) root path mode id) :
    spec.wantsLeaf path mode id = false := by
  obtain ⟨rfl, hplain, hne⟩ := name_of_winnerOf ho hn hw
  rcases not_passed_cases ho hn hmem hnot hw with hno | ⟨e, hend, hlater⟩
  · by_contra hwant
    rw [Bool.not_eq_false] at hwant
    rw [interest_of_wantsLeaf hl hr hb hd hplain hne hs hwant] at hno
    cases hno
  · exact not_wantsLeaf_of_later hl hr hb hd hplain hne hs hend hlater

end GitRemote
