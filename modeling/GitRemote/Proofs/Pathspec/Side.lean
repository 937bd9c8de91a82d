import GitRemote.Proofs.Pathspec.Answer

/-!
# What the items of one side answer

The items that exclude and those that do not are asked apart. On either side the first item with an
answer decides. If one entry ends its directory, no later one is interesting; if one makes all of
its directory interesting, every one is.
-/

namespace GitRemote

variable {recursive : Bool} {limit : Option Nat} {e x : Entry} {base : Bytes}

namespace PathspecItem

variable {item : PathspecItem}

/-- Inside its directory an item answers by depth alone. -/
theorem answer?_of_inside (h : item.inside base = true) :
    item.answer? recursive limit e base = some (item.answerInside limit e base) := if_pos h

/-- Elsewhere an item answers if it picks the entry. -/
theorem answer?_of_not_inside (h : item.inside base = false) :
    item.answer? recursive limit e base =
      if item.picks recursive e base then some .interesting else none := by
  rw [answer?, h]
  rfl

/-- What a pattern names, it names together with everything below. -/
theorem inside_append (h : item.inside base = true) (rest : Bytes) :
    item.inside (base ++ rest) = true := by
  simp only [inside, matchesDirectory, Bool.and_eq_true, decide_eq_true_eq, Bool.or_eq_true,
    beq_iff_eq] at h ⊢
  obtain ⟨hlen, hagree, hend⟩ := h
  rw [agreeUpTo_append hlen, List.length_append]
  refine ⟨by omega, hagree, hend.imp (Or.imp id fun hslash => ?_) id⟩
  obtain ⟨hlt, _⟩ := List.getElem?_eq_some_iff.mp hslash
  rwa [List.getElem?_append_left hlt]

/-- No item ends a directory by its answer. -/
theorem answer?_ne_allNotInteresting :
    item.answer? recursive limit e base ≠ some .allNotInteresting := by
  unfold answer? answerInside
  split
  · cases limit with
    | none => simp
    | some limit => simp only; split <;> simp
  · split <;> simp

/-- All of a directory is interesting where the pattern names it and there is no depth limit. -/
theorem answer?_eq_allInteresting :
    item.answer? recursive limit e base = some .allInteresting ↔
      item.inside base = true ∧ limit = none := by
  cases hin : item.inside base with
  | true =>
    rw [answer?_of_inside hin]
    unfold answerInside
    cases limit with
    | none => simp
    | some limit => simp only; split <;> simp
  | false =>
    rw [answer?_of_not_inside hin]
    split <;> simp

/-- Without a depth limit every answer is that the entry matches. -/
theorem isInteresting_of_answer? {i : Interest}
    (h : item.answer? recursive none e base = some i) : i.isInteresting = true := by
  cases hin : item.inside base with
  | true =>
    rw [answer?_of_inside hin] at h
    cases h
    rfl
  | false =>
    rw [answer?_of_not_inside hin] at h
    split at h
    · cases h
      rfl
    · cases h

/-- An item without wildcard that leads to a place before an entry has no answer about later ones.
-/
theorem answer?_eq_none_of_later (hw : item.hasWildcard = false)
    (h : item.answer? recursive limit e base = none)
    (hb : item.leadsBelow base = true → item.Before base e) (hx : PlainName x.name)
    (hl : Later e.name x.name) : item.answer? recursive limit x base = none := by
  have hin : item.inside base = false := by
    cases hin : item.inside base with
    | false => rfl
    | true => rw [answer?_of_inside hin] at h; cases h
  have hpick : item.picks recursive x base = false := by
    rw [picks, hw]
    split
    · next hbelow => simp [not_names_of_before (hb hbelow) hx hl]
    · rfl
  rw [answer?_of_not_inside hin, hpick]
  rfl

end PathspecItem

namespace Pathspec

variable {spec : Pathspec} {exclude : Bool}

/-- The items of one side, in the order in which they are asked. -/
def side (spec : Pathspec) (exclude : Bool) : List PathspecItem :=
  spec.items.reverse.filter (·.magic.exclude == exclude)

/-- The answer of the first item of a side that has one. -/
def sideAnswer? (spec : Pathspec) (exclude : Bool) (e : Entry) (base : Bytes) : Option Interest :=
  (spec.side exclude).findSome? (·.answer? spec.recursive spec.depthLimit e base)

/-- The first item that has an answer decides. -/
theorem askItems_of_some {items : List PathspecItem} {i : Interest}
    (h : items.findSome? (·.answer? recursive limit e base) = some i) (otherwise : Interest) :
    askItems recursive limit e base items otherwise = i := by
  induction items generalizing otherwise with
  | nil => cases h
  | cons item items ih =>
    rw [List.findSome?_cons] at h
    rw [askItems]
    cases ha : item.answer? recursive limit e base with
    | some j =>
      rw [ha] at h
      rw [PathspecItem.ask_of_answer?_some ha]
      exact Option.some.inj h
    | none =>
      rw [ha] at h
      obtain ⟨left, hask, _⟩ := PathspecItem.ask_of_answer?_none ha otherwise
      rw [hask]
      exact ih h left

/-- Where no item has an answer, none matches. The directory is given up only if every pattern that
leads below it leads to a place before the entry. -/
theorem askItems_of_none {items : List PathspecItem}
    (h : ∀ item ∈ items, item.answer? recursive limit e base = none) (otherwise : Interest)
    (ho : otherwise.isInteresting = false) :
    (askItems recursive limit e base items otherwise).isInteresting = false ∧
      (askItems recursive limit e base items otherwise = .allNotInteresting →
        otherwise = .allNotInteresting ∧
          ∀ item ∈ items, item.leadsBelow base = true → item.Before base e) := by
  induction items generalizing otherwise with
  | nil => exact ⟨ho, fun hall => ⟨hall, by simp⟩⟩
  | cons item items ih =>
    obtain ⟨left, hask, hleft⟩ :=
      PathspecItem.ask_of_answer?_none (h item (List.mem_cons_self ..)) otherwise
    have hrest (o : Interest) (ho : o.isInteresting = false) :=
      ih (fun item' hi => h item' (List.mem_cons_of_mem item hi)) o ho
    rw [askItems, hask]
    rcases hleft with rfl | ⟨rfl, hbefore⟩
    · obtain ⟨hnot, hall⟩ := hrest .notInteresting rfl
      exact ⟨hnot, fun he => absurd (hall he).1 (by decide)⟩
    · obtain ⟨hnot, hall⟩ := hrest left ho
      exact ⟨hnot, fun he => ⟨(hall he).1, List.forall_mem_cons.mpr ⟨hbefore, (hall he).2⟩⟩⟩

/-- The items of a side are asked one after the other. -/
theorem sideInterest_of_ne_nil (hne : spec.items ≠ []) :
    spec.sideInterest exclude e base =
      askItems spec.recursive spec.depthLimit e base (spec.side exclude)
        (if spec.hasWildcard then .notInteresting else .allNotInteresting) := by
  rw [sideInterest, if_neg (by simpa using hne)]
  rfl

/-- A pathspec without items takes everything that is not too deep. -/
theorem sideInterest_of_nil (hnil : spec.items = []) :
    spec.sideInterest exclude e base =
      match spec.depthLimit with
      | none => .allInteresting
      | some limit =>
        if withinDepth limit e.isDir.toNat base then .interesting else .notInteresting :=
  if_pos (by simpa using hnil)

/-- A side has no answer if none of its items has one. -/
theorem sideAnswer?_eq_none :
    spec.sideAnswer? exclude e base = none ↔
      ∀ item ∈ spec.side exclude, item.answer? spec.recursive spec.depthLimit e base = none :=
  List.findSome?_eq_none_iff

/-- A side finds an entry interesting if the first item with an answer does. -/
theorem sideInterest_isInteresting (hne : spec.items ≠ []) :
    (spec.sideInterest exclude e base).isInteresting = true ↔
      ∃ i, spec.sideAnswer? exclude e base = some i ∧ i.isInteresting = true := by
  rw [sideInterest_of_ne_nil hne]
  cases ha : spec.sideAnswer? exclude e base with
  | some i => simp [askItems_of_some ha]
  | none =>
    have hnot := (askItems_of_none (sideAnswer?_eq_none.mp ha)
      (if spec.hasWildcard then .notInteresting else .allNotInteresting) (by split <;> rfl)).1
    simp [hnot]

/-- A side that makes all of a directory interesting answers so by an item, if it has any. -/
theorem sideAnswer?_of_allInteresting (hne : spec.items ≠ [])
    (h : spec.sideInterest exclude e base = .allInteresting) :
    spec.sideAnswer? exclude e base = some .allInteresting := by
  obtain ⟨i, ha, _⟩ := (sideInterest_isInteresting hne).mp (by rw [h]; rfl)
  rw [sideInterest_of_ne_nil hne, askItems_of_some ha] at h
  rw [ha, h]

/-- Behind an entry that ends its directory, nothing is interesting. -/
theorem sideInterest_of_later (h : spec.sideInterest exclude e base = .allNotInteresting)
    (hx : PlainName x.name) (hl : Later e.name x.name) :
    (spec.sideInterest exclude x base).isInteresting = false := by
  have hne : spec.items ≠ [] := by
    intro hnil
    rw [sideInterest_of_nil hnil] at h
    split at h
    · cases h
    · split at h <;> cases h
  rw [sideInterest_of_ne_nil hne] at h
  have hnone : spec.sideAnswer? exclude e base = none := by
    cases ha : spec.sideAnswer? exclude e base with
    | none => rfl
    | some i =>
      obtain ⟨item, _, hi⟩ := List.exists_of_findSome?_eq_some ha
      rw [askItems_of_some ha] at h
      exact absurd (h ▸ hi) PathspecItem.answer?_ne_allNotInteresting
  have hsilent := sideAnswer?_eq_none.mp hnone
  obtain ⟨hstart, hbefore⟩ := (askItems_of_none hsilent
    (if spec.hasWildcard then .notInteresting else .allNotInteresting) (by split <;> rfl)).2 h
  have hwild : spec.hasWildcard = false := by
    cases hw : spec.hasWildcard with
    | false => rfl
    | true => rw [hw] at hstart; cases hstart
  have hplain : ∀ item ∈ spec.side exclude, item.hasWildcard = false := by
    intro item hi
    have hmem : item ∈ spec.items := List.mem_reverse.mp (List.mem_of_mem_filter hi)
    simpa using List.any_eq_false.mp hwild item hmem
  have hlater : ∀ item ∈ spec.side exclude,
      item.answer? spec.recursive spec.depthLimit x base = none := fun item hi =>
    PathspecItem.answer?_eq_none_of_later (hplain item hi) (hsilent item hi) (hbefore item hi) hx hl
  rw [sideInterest_of_ne_nil hne]
  exact (askItems_of_none hlater _ (by split <;> rfl)).1

/-- Where all of a directory is interesting, everything below is. -/
theorem sideInterest_append_of_allInteresting
    (h : spec.sideInterest exclude e base = .allInteresting) (rest : Bytes) (x : Entry) :
    (spec.sideInterest exclude x (base ++ rest)).isInteresting = true := by
  by_cases hnil : spec.items = []
  · rw [sideInterest_of_nil hnil] at h ⊢
    split at h
    · rfl
    · split at h <;> cases h
  · have ha := sideAnswer?_of_allInteresting hnil h
    obtain ⟨item, hi, hall⟩ := List.exists_of_findSome?_eq_some ha
    obtain ⟨hin, hlimit⟩ := PathspecItem.answer?_eq_allInteresting.mp hall
    rw [sideInterest_isInteresting hnil]
    cases hx : spec.sideAnswer? exclude x (base ++ rest) with
    | none =>
      have hsilent := sideAnswer?_eq_none.mp hx item hi
      rw [PathspecItem.answer?_of_inside (PathspecItem.inside_append hin rest)] at hsilent
      cases hsilent
    | some i =>
      obtain ⟨_, _, hi'⟩ := List.exists_of_findSome?_eq_some hx
      rw [hlimit] at hi'
      exact ⟨i, rfl, PathspecItem.isInteresting_of_answer? hi'⟩

/-- Where all of a directory is interesting, every entry is. -/
theorem sideInterest_of_allInteresting
    (h : spec.sideInterest exclude e base = .allInteresting) (x : Entry) :
    (spec.sideInterest exclude x base).isInteresting = true := by
  simpa only [List.append_nil] using sideInterest_append_of_allInteresting h [] x

end Pathspec

end GitRemote
