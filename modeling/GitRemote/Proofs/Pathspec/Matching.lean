import GitRemote.Proofs.Pathspec.Translation

/-!
# Matching part by part

A text matches a wildcard if its beginning is the plain beginning of the wildcard and the rest of it
matches what is behind. One star in front of a plain rest is matched by what ends with that.
-/

namespace GitRemote

namespace Wildcard

variable {separate icase : Bool} {pattern plain rest text : List Char}
  {tokens : List Glob.Token}

/-- A pattern that compiles matches what its tokens match. -/
theorem matchesText_of_some (h : Glob.compile? (toGlob separate pattern) = some tokens)
    (text : List Char) :
    matchesText pattern text separate icase = true ↔
      Glob.run ⟨icase, separate⟩ tokens text = .matched := by
  rw [matchesText, h]
  exact beq_iff_eq

/-- A pattern that is no glob is compared as it is. -/
theorem matchesText_of_none (h : Glob.compile? (toGlob separate pattern) = none)
    (text : List Char) :
    matchesText pattern text separate icase = true ↔
      text.map (foldChar icase) = pattern.map (foldChar icase) := by
  rw [matchesText, h]
  cases icase with
  | false =>
    have hid : (foldChar false : Char → Char) = id := rfl
    rw [hid, List.map_id, List.map_id]
    exact beq_iff_eq.trans eq_comm
  | true =>
    have hlower : (foldChar true : Char → Char) = Char.toLower := rfl
    rw [hlower]
    exact beq_iff_eq.trans eq_comm

/-- A pattern and what is behind its beginning are both globs, or are both compared as they are. -/
theorem matchesText_behind (icase : Bool) {front : List Glob.Token} {before : Option Char}
    (hne : front ≠ []) (hlast : front.getLast? ≠ some .anyComponents)
    (hbefore : before.all (· == '/') = true ∨ ¬ ['*', '*'] <+: toGlob separate rest)
    (hcompile : Glob.compile? (toGlob separate pattern) =
      Glob.tokens? (toGlob separate rest).length before front (toGlob separate rest)) :
    (∃ tokens, (∀ text, matchesText pattern text separate icase = true ↔
        Glob.run ⟨icase, separate⟩ (front ++ tokens) text = .matched) ∧
      ∀ text, matchesText rest text separate icase = true ↔
        Glob.run ⟨icase, separate⟩ tokens text = .matched) ∨
    ((∀ text, matchesText pattern text separate icase = true ↔
        text.map (foldChar icase) = pattern.map (foldChar icase)) ∧
      ∀ text, matchesText rest text separate icase = true ↔
        text.map (foldChar icase) = rest.map (foldChar icase)) := by
  have hbehind := Glob.compile?_behind hne hlast hbefore
  rw [← hcompile] at hbehind
  cases hwhole : Glob.compile? (toGlob separate pattern) <;>
    cases halone : Glob.compile? (toGlob separate rest) <;> rw [hwhole, halone] at hbehind
  case none.none => exact .inr ⟨matchesText_of_none hwhole, matchesText_of_none halone⟩
  case some.some behind alone =>
    obtain ⟨hrun⟩ := hbehind
    exact .inl ⟨alone, fun text => hrun _ ▸ matchesText_of_some hwhole text,
      matchesText_of_some halone⟩
  all_goals cases hbehind

/-- Where no component is cut, a plain beginning is matched on its own. -/
theorem matchesText_append (h : Plain plain)
    (hcut : separate = true → ¬ CutsComponent (plain ++ rest)) :
    matchesText (plain ++ rest) text separate icase = true ↔
      ∃ front back, text = front ++ back ∧
        front.map (foldChar icase) = plain.map (foldChar icase) ∧
          matchesText rest back separate icase = true := by
  by_cases hempty : plain = []
  · subst hempty
    constructor
    · exact fun hmatch => ⟨[], text, rfl, rfl, hmatch⟩
    · rintro ⟨front, back, rfl, hfront, hmatch⟩
      obtain rfl := List.map_eq_nil_iff.mp hfront
      exact hmatch
  · obtain ⟨hglob, hbefore⟩ := toGlob_append h hcut
    have hcompile : Glob.compile? (toGlob separate (plain ++ rest)) =
        Glob.tokens? (toGlob separate rest).length plain.getLast? (plain.map .char)
          (toGlob separate rest) := by
      rw [hglob, Glob.compile?, List.length_append, Glob.tokens?_chars, Option.or_none,
        List.nil_append]
      exact h.not_glob
    have hlast : (plain.map Glob.Token.char).getLast? ≠ some .anyComponents := by
      rw [List.getLast?_map]
      cases plain.getLast? <;> exact nofun
    have hne : plain.map Glob.Token.char ≠ [] := fun hnil => hempty (List.map_eq_nil_iff.mp hnil)
    rcases matchesText_behind icase hne hlast hbefore hcompile with
      ⟨tokens, hwhole, halone⟩ | ⟨hwhole, halone⟩
    · simp only [hwhole, halone]
      exact Glob.run_chars_append
    · simp only [hwhole, halone, List.map_append]
      constructor
      · intro hsame
        obtain ⟨front, back, rfl, hfront, hback⟩ := List.map_eq_append_iff.mp hsame
        exact ⟨front, back, rfl, hfront, hback⟩
      · rintro ⟨front, back, rfl, hfront, hback⟩
        rw [List.map_append, hfront, hback]

/-- Where slashes do not count, one star in front of a plain rest is matched by what ends with that. -/
theorem matchesText_star (h : Plain plain) :
    matchesText ('*' :: plain) text false icase = true ↔
      ∃ front back, text = front ++ back ∧
        back.map (foldChar icase) = plain.map (foldChar icase) := by
  have hhead : plain.head? ≠ some '*' := fun hhead =>
    (h.not_glob _ (List.mem_of_head? hhead)).2.1 rfl
  have hcompile : Glob.compile? (toGlob false ('*' :: plain)) =
      some (.anySequence :: plain.map .char) := by
    have hchars : Glob.tokens? (plain.length + 0) (some '*') [.anySequence] (plain ++ []) = _ :=
      Glob.tokens?_chars h.not_glob
    rw [Nat.add_zero, List.append_nil] at hchars
    rw [toGlob_star hhead, toGlob_plain h, Glob.compile?, List.length_cons, Glob.tokens?_star hhead,
      List.nil_append, hchars]
    rfl
  rw [matchesText_of_some hcompile]
  exact Glob.run_anySequence_chars rfl

end Wildcard

end GitRemote
