import GitRemote.Proofs.Pathspec.Exclusion

/-!
# A pathspec as a union of items

Each item on its own matches some entries. A pathspec matches what one of its items matches, less
what one of its exclusions matches. Only a depth limit brings in the order of the items: one that
names a directory far above an entry turns the entry down, and overrules the items in front of it
that match.
-/

namespace GitRemote

/-- Of two elements of a list either is behind the other, or they are at one place. -/
theorem mem_of_append_cons_eq {α : Type} {front behind before after : List α} {a b : α}
    (h : front ++ a :: behind = before ++ b :: after) : b ∈ behind ∨ a = b ∨ a ∈ after := by
  rcases List.append_eq_append_iff.mp h with ⟨c, _, hc⟩ | ⟨c, _, hc⟩
  · cases c with
    | nil => exact .inr (.inl (List.cons.inj hc).1)
    | cons a' c => exact .inl (by simp [(List.cons.inj hc).2])
  · cases c with
    | nil => exact .inr (.inl (List.cons.inj hc).1.symm)
    | cons b' c => exact .inr (.inr (by simp [(List.cons.inj hc).2]))

/-- An answer searched from the last on is that of an element behind which there is none. -/
theorem exists_last_answer {α : Type} {ask : α → Option Interest} {l : List α} {i : Interest}
    (h : l.reverse.findSome? ask = some i) :
    ∃ front a behind, l = front ++ a :: behind ∧ ask a = some i ∧ ∀ c ∈ behind, ask c = none := by
  obtain ⟨behind, a, front, hrev, ha, hsilent⟩ := List.findSome?_eq_some_iff.mp h
  exact ⟨front.reverse, a, behind.reverse, by simpa using List.reverse_eq_append_iff.mp hrev, ha,
    fun c hc => hsilent c (List.mem_reverse.mp hc)⟩

/-- Of answers searched from the last on, the first is interesting if there is an interesting one at
all and none that is not stands behind all of these. -/
theorem last_answer_isInteresting {α : Type} {ask : α → Option Interest} {l : List α} :
    (∃ i, l.reverse.findSome? ask = some i ∧ i.isInteresting = true) ↔
      (∃ a ∈ l, ∃ i, ask a = some i ∧ i.isInteresting = true) ∧
        ¬ ∃ before a after, l = before ++ a :: after ∧
          (∃ i, ask a = some i ∧ i.isInteresting = false) ∧
          (∃ b ∈ before, ∃ i, ask b = some i ∧ i.isInteresting = true) ∧
          ∀ c ∈ after, ¬ ∃ i, ask c = some i ∧ i.isInteresting = true := by
  cases hlast : l.reverse.findSome? ask with
  | none =>
    have hsilent := List.findSome?_eq_none_iff.mp hlast
    simp only [reduceCtorEq, false_and, exists_false, false_iff, not_and]
    rintro ⟨a, ha, i, hi, _⟩
    rw [hsilent a (List.mem_reverse.mpr ha)] at hi
    cases hi
  | some i =>
    obtain ⟨front, a, behind, hl, ha, hback⟩ := exists_last_answer hlast
    cases hi : i.isInteresting with
    | true =>
      refine iff_of_true ⟨i, rfl, hi⟩ ⟨⟨a, by simp [hl], i, ha, hi⟩, ?_⟩
      rintro ⟨before, b, after, hsplit, ⟨j, hb, hj⟩, _, hlater⟩
      rcases mem_of_append_cons_eq (hl.symm.trans hsplit) with hmem | rfl | hmem
      · rw [hback b hmem] at hb
        cases hb
      · rw [ha, Option.some.injEq] at hb
        rw [hb, hj] at hi
        cases hi
      · exact hlater a hmem ⟨i, ha, hi⟩
    | false =>
      refine iff_of_false ?_ ?_
      · rintro ⟨j, hj, hin⟩
        rw [← Option.some.inj hj, hi] at hin
        cases hin
      · rintro ⟨⟨b, hb, j, hbj, hj⟩, hnot⟩
        refine hnot ⟨front, a, behind, hl, ⟨i, ha, hi⟩, ⟨b, ?_, j, hbj, hj⟩, ?_⟩
        · rw [hl, List.mem_append, List.mem_cons] at hb
          rcases hb with hb | rfl | hb
          · exact hb
          · rw [ha, Option.some.injEq] at hbj
            rw [hbj, hj] at hi
            cases hi
          · rw [hback b hb] at hbj
            cases hbj
        · rintro c hc ⟨k, hk, _⟩
          rw [hback c hc] at hk
          cases hk

namespace Pathspec

variable {spec : Pathspec} {item : PathspecItem} {exclude : Bool} {e x : Entry} {base : Bytes}

/-- One item as a pathspec of its own, under the same flags. -/
def alone (spec : Pathspec) (item : PathspecItem) : Pathspec := { spec with items := [item] }

/-- The item matches the entry on its own. -/
def MatchedAlone (spec : Pathspec) (item : PathspecItem) (e : Entry) (base : Bytes) : Prop :=
  ((spec.alone item).sideInterest item.magic.exclude e base).isInteresting = true

/-- Some item that excludes, or some that does not, matches the entry on its own. -/
def Matched (spec : Pathspec) (exclude : Bool) (e : Entry) (base : Bytes) : Prop :=
  ∃ item ∈ spec.items, item.magic.exclude = exclude ∧ spec.MatchedAlone item e base

/-- The item names a directory above the entry from which the depth limit does not reach it. -/
def TooDeep (spec : Pathspec) (item : PathspecItem) (e : Entry) (base : Bytes) : Prop :=
  item.inside base = true ∧ ∃ limit, spec.depthLimit = some limit ∧
    withinDepth limit e.isDir.toNat (base.drop (item.pattern.length + 1)) = false

/-- The items that exclude, or those that do not, as they were declared. -/
def declared (spec : Pathspec) (exclude : Bool) : List PathspecItem :=
  spec.items.filter (·.magic.exclude == exclude)

/-- Behind all items of one side that match the entry there is one below which it is too deep. -/
def Overruled (spec : Pathspec) (exclude : Bool) (e : Entry) (base : Bytes) : Prop :=
  ∃ before item after, spec.declared exclude = before ++ item :: after ∧
    spec.TooDeep item e base ∧ (∃ earlier ∈ before, spec.MatchedAlone earlier e base) ∧
    ∀ later ∈ after, ¬ spec.MatchedAlone later e base

instance : Decidable (spec.MatchedAlone item e base) := inferInstanceAs (Decidable (_ = true))

instance : Decidable (spec.Matched exclude e base) :=
  inferInstanceAs (Decidable (∃ item ∈ spec.items, item.magic.exclude = exclude ∧ _))

/-- The items of a side are those that are excluding, or those that are not. -/
theorem mem_declared : item ∈ spec.declared exclude ↔
    item ∈ spec.items ∧ item.magic.exclude = exclude := by
  rw [declared, List.mem_filter, beq_iff_eq]

/-- A side matches if one of its items matches on its own. -/
theorem matched_iff :
    spec.Matched exclude e base ↔
      ∃ item ∈ spec.declared exclude, spec.MatchedAlone item e base := by
  simp only [Matched, mem_declared, and_assoc]

/-- An item on its own matches if it has an answer that says so. -/
theorem matchedAlone_iff : spec.MatchedAlone item e base ↔
    ∃ i, item.answer? spec.recursive spec.depthLimit e base = some i ∧ i.isInteresting = true := by
  have hside : (spec.alone item).sideAnswer? item.magic.exclude e base =
      item.answer? spec.recursive spec.depthLimit e base := by
    have hone : (spec.alone item).side item.magic.exclude = [item] := by simp [side, alone]
    rw [sideAnswer?, hone, List.findSome?_singleton]
    rfl
  rw [MatchedAlone, sideInterest_isInteresting (List.cons_ne_nil item []), hside]

/-- An item turns down just what is too deep below a directory that it names. -/
theorem tooDeep_iff : spec.TooDeep item e base ↔
    ∃ i, item.answer? spec.recursive spec.depthLimit e base = some i ∧ i.isInteresting = false := by
  rw [TooDeep]
  cases hin : item.inside base with
  | true =>
    rw [PathspecItem.answer?_of_inside hin]
    cases hlimit : spec.depthLimit with
    | none => simp [PathspecItem.answerInside, Interest.isInteresting]
    | some limit =>
      simp only [PathspecItem.answerInside, true_and, Option.some.injEq, exists_eq_left']
      split
      · next h => simp [h, Interest.isInteresting]
      · next h => simpa [Interest.isInteresting] using h
  | false =>
    rw [PathspecItem.answer?_of_not_inside hin]
    split <;> simp [Interest.isInteresting]

/-- One side finds an entry interesting if some item matches it and is not overruled. -/
theorem sideInterest_iff_matched (hne : spec.items ≠ []) :
    (spec.sideInterest exclude e base).isInteresting = true ↔
      spec.Matched exclude e base ∧ ¬ spec.Overruled exclude e base := by
  have hside : spec.side exclude = (spec.declared exclude).reverse := List.filter_reverse ..
  rw [sideInterest_isInteresting hne, sideAnswer?, hside, last_answer_isInteresting, matched_iff]
  simp only [Overruled, matchedAlone_iff, tooDeep_iff]

/-- Without a depth limit no match is overruled. -/
theorem not_overruled_of_unlimited (h : spec.depthLimit = none) :
    ¬ spec.Overruled exclude e base := by
  rintro ⟨_, _, _, _, ⟨_, limit, hlimit, _⟩, _⟩
  rw [h] at hlimit
  cases hlimit

/-- A file is interesting if the items that do not exclude find it so, and the others do not. -/
theorem interest_file_iff (hx : x.isDir = false) (hne : spec.items ≠ []) :
    (spec.interest x base).isInteresting = true ↔
      (spec.sideInterest false x base).isInteresting = true ∧
        ¬ (spec.sideInterest true x base).isInteresting = true := by
  cases hex : spec.hasExclude with
  | true =>
    rw [interest_of_hasExclude hex, hx]
    refine ⟨fun h => ⟨isInteresting_of_remove h, fun hneg => ?_⟩, fun h =>
      isInteresting_remove h.1 (Bool.eq_false_iff.mpr h.2)⟩
    rw [not_isInteresting_of_remove hneg] at h
    cases h
  | false =>
    rw [interest_of_not_hasExclude hex, iff_self_and]
    intro _ hneg
    obtain ⟨⟨item, hmem, hitem, _⟩, _⟩ := (sideInterest_iff_matched hne).mp hneg
    exact absurd hitem (by simpa using List.any_eq_false.mp hex item hmem)

end Pathspec

/-- A file is interesting if an item matches it and no exclusion does, each on its own, save for
matches that a later item of the same kind overrules. Where none is overruled, as without a depth
limit, neither the order of the items nor one more of them makes a match go away. -/
theorem interest_is_union_less_exclusions {spec : Pathspec} (hne : spec.items ≠ []) {x : Entry}
    (hx : x.isDir = false) (base : Bytes) :
    ((spec.interest x base).isInteresting = true ↔
      (spec.Matched false x base ∧ ¬ spec.Overruled false x base) ∧
        ¬ (spec.Matched true x base ∧ ¬ spec.Overruled true x base)) ∧
    ((∀ exclude, ¬ spec.Overruled exclude x base) →
      ((spec.interest x base).isInteresting = true ↔
        spec.Matched false x base ∧ ¬ spec.Matched true x base)) ∧
    (spec.depthLimit = none → ∀ exclude, ¬ spec.Overruled exclude x base) ∧
    ∀ wider : Pathspec, wider.recursive = spec.recursive → wider.maxDepth = spec.maxDepth →
      (∀ item ∈ spec.items, item.magic.exclude = false → item ∈ wider.items) →
      (∀ item ∈ wider.items, item.magic.exclude = true → item ∈ spec.items) →
      ¬ wider.Overruled false x base → ¬ spec.Overruled true x base →
      (spec.interest x base).isInteresting = true →
      (wider.interest x base).isInteresting = true := by
  have hexact (s : Pathspec) (hs : s.items ≠ []) : (s.interest x base).isInteresting = true ↔
      (s.Matched false x base ∧ ¬ s.Overruled false x base) ∧
        ¬ (s.Matched true x base ∧ ¬ s.Overruled true x base) := by
    rw [Pathspec.interest_file_iff hx hs, Pathspec.sideInterest_iff_matched hs,
      Pathspec.sideInterest_iff_matched hs]
  refine ⟨hexact spec hne, fun hclear => ?_, fun hlimit _ =>
    Pathspec.not_overruled_of_unlimited hlimit, ?_⟩
  · rw [hexact spec hne]
    simp only [hclear, not_false_eq_true, and_true]
  · intro wider hrec hdepth hsub hsup hwide hspec h
    have halone (item : PathspecItem) :
        wider.MatchedAlone item x base ↔ spec.MatchedAlone item x base := by
      rw [Pathspec.MatchedAlone, Pathspec.MatchedAlone, Pathspec.alone, Pathspec.alone, hrec,
        hdepth]
    obtain ⟨⟨⟨item, hmem, hitem, hmatch⟩, _⟩, hnot⟩ := (hexact spec hne).mp h
    have hmem' := hsub item hmem hitem
    refine (hexact wider (List.ne_nil_of_mem hmem')).mpr
      ⟨⟨⟨item, hmem', hitem, (halone item).mpr hmatch⟩, hwide⟩, ?_⟩
    rintro ⟨⟨other, hother, hexclude, hmatch'⟩, _⟩
    exact hnot ⟨⟨other, hsup other hother hexclude, hexclude, (halone other).mp hmatch'⟩, hspec⟩

/-- The directory `a/b` and then the directory `a`, each with one level of directories below. -/
def nestedItems : Pathspec :=
  { items := [.ofPattern [0x61, 0x2F, 0x62] {}, .ofPattern [0x61] {}]
    recursive := true
    maxDepth := some 1 }

/-- A file `f`. -/
def plainFile : Entry := ⟨modeFile, [0x66], .null⟩

/-- The file in `a/b/c`, which only the first item reaches, and the second overrules that. -/
theorem interest_is_union_less_exclusions_nested :
    nestedItems.Overruled false plainFile [0x61, 0x2F, 0x62, 0x2F, 0x63, 0x2F] ∧
      ((nestedItems.interest plainFile [0x61, 0x2F, 0x62, 0x2F, 0x63, 0x2F]).isInteresting = true ↔
        (nestedItems.Matched false plainFile [0x61, 0x2F, 0x62, 0x2F, 0x63, 0x2F] ∧
            ¬ nestedItems.Overruled false plainFile [0x61, 0x2F, 0x62, 0x2F, 0x63, 0x2F]) ∧
          ¬ (nestedItems.Matched true plainFile [0x61, 0x2F, 0x62, 0x2F, 0x63, 0x2F] ∧
            ¬ nestedItems.Overruled true plainFile [0x61, 0x2F, 0x62, 0x2F, 0x63, 0x2F])) :=
  ⟨⟨[.ofPattern [0x61, 0x2F, 0x62] {}], .ofPattern [0x61] {}, [], rfl,
      ⟨by decide, 1, rfl, by decide⟩, ⟨_, List.mem_singleton_self _, by decide⟩, by simp⟩,
    (interest_is_union_less_exclusions (List.cons_ne_nil _ _) rfl _).1⟩

/-- The file in `a/b/c` is lost although an item matches it and none excludes; the other way round
the same items find it. -/
theorem outer_item_hides_match_of_inner :
    nestedItems.Matched false plainFile [0x61, 0x2F, 0x62, 0x2F, 0x63, 0x2F] ∧
      ¬ nestedItems.Matched true plainFile [0x61, 0x2F, 0x62, 0x2F, 0x63, 0x2F] ∧
      (nestedItems.interest plainFile [0x61, 0x2F, 0x62, 0x2F, 0x63, 0x2F]).isInteresting = false ∧
      (({ nestedItems with items := nestedItems.items.reverse } : Pathspec).interest plainFile
        [0x61, 0x2F, 0x62, 0x2F, 0x63, 0x2F]).isInteresting = true := by
  decide

end GitRemote
