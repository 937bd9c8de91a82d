import GitRemote.Text.Blank

/-!
# Cutting text

What it means that a list or a text was cut behind a lead or at a separator.
-/

namespace GitRemote

variable {α : Type}

/-- What follows a lead is what is appended to it. -/
theorem after?_eq_some [BEq α] [LawfulBEq α] {lead l rest : List α} :
    Text.after? lead l = some rest ↔ l = lead ++ rest := by
  induction lead generalizing l with
  | nil => simp only [Text.after?, Option.some.injEq, List.nil_append]
  | cons a lead ih =>
    cases l with
    | nil => simp [Text.after?]
    | cons b l =>
      by_cases hab : a = b
      · subst hab
        simp only [Text.after?, beq_self_eq_true, ite_true, ih, List.cons_append,
          List.cons.injEq, true_and]
      · have hne : (a == b) = false := by simp [hab]
        simp only [Text.after?, hne, Bool.false_eq_true, ite_false, List.cons_append,
          List.cons.injEq, Ne.symm hab, false_and, reduceCtorEq]

/-- A list is cut at its first element that satisfies the condition. -/
theorem cut?_eq_some {p : α → Bool} {l a b : List α} :
    Text.cut? p l = some (a, b) ↔ ∃ c, p c = true ∧ (∀ x ∈ a, p x = false) ∧ l = a ++ c :: b := by
  induction l generalizing a with
  | nil => simp [Text.cut?]
  | cons c l ih =>
    cases hc : p c with
    | true =>
      simp only [Text.cut?, hc, ite_true, Option.some.injEq, Prod.mk.injEq]
      constructor
      · rintro ⟨rfl, rfl⟩
        exact ⟨c, hc, by simp, rfl⟩
      · rintro ⟨d, hd, ha, hl⟩
        cases a with
        | nil => exact ⟨rfl, (List.cons.inj hl).2⟩
        | cons x a =>
          have hx := ha x (List.mem_cons_self ..)
          rw [← (List.cons.inj hl).1, hc] at hx
          cases hx
    | false =>
      simp only [Text.cut?, hc, Bool.false_eq_true, ite_false, Option.map_eq_some_iff,
        Prod.mk.injEq, Prod.exists]
      constructor
      · rintro ⟨x, y, hxy, rfl, rfl⟩
        obtain ⟨d, hd, hx, hl⟩ := ih.mp hxy
        refine ⟨d, hd, ?_, by rw [hl, List.cons_append]⟩
        rintro z (_ | ⟨_, hz⟩)
        · exact hc
        · exact hx z hz
      · rintro ⟨d, hd, ha, hl⟩
        cases a with
        | nil =>
          rw [(List.cons.inj hl).1, hd] at hc
          cases hc
        | cons x a =>
          obtain ⟨rfl, hrest⟩ := List.cons.inj hl
          have hcut := ih.mpr ⟨d, hd, fun z hz => ha z (List.mem_cons_of_mem _ hz), hrest⟩
          exact ⟨a, b, hcut, rfl, rfl⟩

/-- A list of which no element satisfies the condition is not cut. -/
theorem cut?_eq_none {p : α → Bool} {l : List α} :
    Text.cut? p l = none ↔ ∀ x ∈ l, p x = false := by
  induction l with
  | nil => simp [Text.cut?]
  | cons c l ih => cases hc : p c <;> simp [Text.cut?, hc, ih]

/-- A text is cut at the first separator. -/
theorem cutAt?_eq_some {sep : Char} {s a b : String} :
    Text.cutAt? sep s = some (a, b) ↔
      sep ∉ a.toList ∧ s.toList = a.toList ++ sep :: b.toList := by
  simp only [Text.cutAt?, Option.map_eq_some_iff, Prod.exists, Prod.mk.injEq, cut?_eq_some,
    beq_iff_eq, beq_eq_false_iff_ne]
  constructor
  · rintro ⟨x, y, ⟨_, rfl, hx, hs⟩, rfl, rfl⟩
    simp only [String.toList_ofList]
    exact ⟨fun hmem => hx _ hmem rfl, hs⟩
  · rintro ⟨ha, hs⟩
    refine ⟨a.toList, b.toList, ⟨sep, rfl, fun x hx he => ha (he ▸ hx), hs⟩, ?_, ?_⟩
    · exact String.ofList_toList
    · exact String.ofList_toList

/-- A text without the separator is not cut. -/
theorem cutAt?_eq_none {sep : Char} {s : String} :
    Text.cutAt? sep s = none ↔ sep ∉ s.toList := by
  simp only [Text.cutAt?, Option.map_eq_none_iff, cut?_eq_none, beq_eq_false_iff_ne]
  exact ⟨fun h hmem => h sep hmem rfl, fun h x hx he => h (he ▸ hx)⟩

end GitRemote
