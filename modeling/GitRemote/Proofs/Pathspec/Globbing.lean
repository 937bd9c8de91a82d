import GitRemote.Proofs.Pathspec.Folded

/-!
# What globs match

A text that matches is made up of pieces, one for each token, and only the piece of two stars can hold a
slash where slashes count. Tokens in front are matched one by one, whatever stands behind them.
-/

namespace GitRemote.Glob

variable {o : Options} {tokens : List Token} {text : List Char}

/-! ### Pieces -/

/-- Whether a token can take a piece of a text that has `behind` after it. -/
def Token.Takes (o : Options) (piece behind : List Char) : Token → Prop
  | .anySequence => o.separate = true → '/' ∉ piece
  | .anyComponents => piece = [] ∨ piece.getLast? = some '/' ∨ behind = []
  | t => ∃ c, piece = [c] ∧ t.covers o c = true

/-- Each token takes a piece of a text. -/
inductive Splits (o : Options) : List Token → List (List Char) → Prop
  | nil : Splits o [] []
  | cons {t : Token} {tokens : List Token} {piece : List Char} {pieces : List (List Char)}
      (h : t.Takes o piece pieces.flatten) (hrest : Splits o tokens pieces) :
      Splits o (t :: tokens) (piece :: pieces)

/-- A star that matches took a piece, without a slash if components are separate. -/
theorem exists_of_afterRun {next : List Char → Verdict} (h : afterRun o next text = .matched) :
    ∃ piece behind, text = piece ++ behind ∧ (o.separate = true → '/' ∉ piece) ∧
      next behind = .matched := by
  induction text with
  | nil => exact ⟨[], [], rfl, fun _ => List.not_mem_nil, h⟩
  | cons c text ih =>
    rw [afterRun] at h
    split at h
    · split at h
      · cases h
      · next hslash =>
        obtain ⟨piece, behind, rfl, hfree, hnext⟩ := ih h
        refine ⟨c :: piece, behind, rfl, fun hsep hmem => ?_, hnext⟩
        rcases List.mem_cons.mp hmem with rfl | hmem
        · rw [hsep] at hslash
          exact hslash rfl
        · exact hfree hsep hmem
    · exact ⟨[], c :: text, rfl, fun _ => List.not_mem_nil, h⟩

/-- Two stars that match took whole components, or all of the text. -/
theorem exists_of_afterSlash {next : List Char → Verdict} (h : afterSlash next text = .matched) :
    ∃ piece behind, text = piece ++ behind ∧ (piece.getLast? = some '/' ∨ behind = []) ∧
      next behind = .matched := by
  induction text with
  | nil => exact ⟨[], [], rfl, .inr rfl, h⟩
  | cons c text ih =>
    have hlater (h : afterSlash next text = .matched) : ∃ piece behind,
        c :: text = piece ++ behind ∧ (piece.getLast? = some '/' ∨ behind = []) ∧
          next behind = .matched := by
      obtain ⟨piece, behind, rfl, hend, hnext⟩ := ih h
      refine ⟨c :: piece, behind, rfl, hend.imp_left fun hlast => ?_, hnext⟩
      rw [List.getLast?_cons, hlast]
      rfl
    rw [afterSlash] at h
    split at h
    · next hslash =>
      split at h
      · exact hlater h
      · obtain rfl := beq_iff_eq.mp hslash
        exact ⟨['/'], text, rfl, .inl rfl, h⟩
    · exact hlater h

/-- A text that matches is made up of pieces that the tokens take. -/
theorem exists_splits_of_run (h : run o tokens text = .matched) :
    ∃ pieces, Splits o tokens pieces ∧ pieces.flatten = text := by
  induction tokens generalizing text with
  | nil =>
    cases text with
    | nil => exact ⟨[], .nil, rfl⟩
    | cons c text => cases h
  | cons t tokens ih =>
    have hone (hnil : run o (t :: tokens) [] = .hopeless)
        (hcons : ∀ c text, run o (t :: tokens) (c :: text) =
          if t.covers o c then run o tokens text else .failed)
        (htakes : ∀ c behind, t.covers o c = true → t.Takes o [c] behind) :
        ∃ pieces, Splits o (t :: tokens) pieces ∧ pieces.flatten = text := by
      cases text with
      | nil =>
        rw [hnil] at h
        cases h
      | cons c text =>
        rw [hcons] at h
        split_ifs at h with hcovers
        obtain ⟨pieces, hpieces, rfl⟩ := ih h
        exact ⟨[c] :: pieces, .cons (htakes c _ hcovers) hpieces, rfl⟩
    cases t with
    | anySequence =>
      rw [run] at h
      obtain ⟨piece, behind, rfl, hfree, hnext⟩ := exists_of_afterRun h
      obtain ⟨pieces, hpieces, rfl⟩ := ih hnext
      exact ⟨piece :: pieces, .cons hfree hpieces, rfl⟩
    | anyComponents =>
      rw [run] at h
      split at h
      · obtain ⟨piece, behind, rfl, hend, hnext⟩ := exists_of_afterSlash h
        obtain ⟨pieces, hpieces, rfl⟩ := ih hnext
        exact ⟨piece :: pieces, .cons (.inr hend) hpieces, rfl⟩
      · obtain ⟨pieces, hpieces, rfl⟩ := ih h
        exact ⟨[] :: pieces, .cons (.inl rfl) hpieces, rfl⟩
    | char | anyChar | anyOf | noneOf =>
      exact hone rfl (fun _ _ => rfl) fun c behind hcovers => ⟨c, rfl, hcovers⟩

/-- Each token has its piece. -/
theorem Splits.exists_piece {pieces : List (List Char)} (h : Splits o tokens pieces) {i : Nat}
    {t : Token} (ht : tokens[i]? = some t) :
    ∃ piece, pieces[i]? = some piece ∧ t.Takes o piece (pieces.drop (i + 1)).flatten := by
  induction h generalizing i with
  | nil => cases ht
  | @cons t' tokens piece pieces htakes hrest ih =>
    cases i with
    | zero =>
      obtain rfl : t' = t := Option.some.inj ht
      exact ⟨piece, rfl, htakes⟩
    | succ i => exact ih ht

/-! ### Tokens in front -/

/-- What stands behind some tokens counts only for what it matches. -/
theorem run_append_congr {later later' : List Token} (h : run o later = run o later')
    (front : List Token) : run o (front ++ later) = run o (front ++ later') := by
  induction front with
  | nil => exact h
  | cons t front ih =>
    funext text
    cases t <;> cases text <;> simp only [List.cons_append, run, ih]

theorem run_char_cons (p c : Char) (later : List Token) (text : List Char) :
    run o (.char p :: later) (c :: text) =
      if sameChar o c p then run o later text else .failed := rfl

/-- Characters in front are matched one by one. -/
theorem run_chars_append {cs : List Char} {later : List Token} :
    run o (cs.map .char ++ later) text = .matched ↔
      ∃ front back, text = front ++ back ∧
        front.map (foldChar o.icase) = cs.map (foldChar o.icase) ∧ run o later back = .matched := by
  induction cs generalizing text with
  | nil =>
    constructor
    · exact fun h => ⟨[], text, rfl, rfl, h⟩
    · rintro ⟨front, back, rfl, hfront, h⟩
      obtain rfl := List.map_eq_nil_iff.mp hfront
      exact h
  | cons p cs ih =>
    cases text with
    | nil =>
      constructor
      · intro h
        cases h
      · rintro ⟨front, back, htext, hfront, -⟩
        obtain ⟨rfl, -⟩ := List.append_eq_nil_iff.mp htext.symm
        cases hfront
    | cons c text =>
      rw [List.map_cons, List.cons_append, run_char_cons]
      constructor
      · intro h
        split_ifs at h with hsame
        obtain ⟨front, back, rfl, hfront, hback⟩ := ih.mp h
        refine ⟨c :: front, back, rfl, ?_, hback⟩
        rw [List.map_cons, List.map_cons, sameChar_iff.mp hsame, hfront]
      · rintro ⟨_ | ⟨d, front⟩, back, htext, hfront, hback⟩
        · cases hfront
        · obtain ⟨rfl, rfl⟩ := List.cons.inj htext
          obtain ⟨hsame, hfront⟩ := List.cons.inj hfront
          rw [if_pos (sameChar_iff.mpr hsame)]
          exact ih.mpr ⟨front, back, rfl, hfront, hback⟩

/-- Two stars that fill a component need not be there twice. -/
theorem run_components_twice (later : List Token) :
    run o (.anyComponents :: .anyComponents :: later) = run o (.anyComponents :: later) := by
  have hfailed (text : List Char) (h : afterSlash (run o later) text = .failed) :
      afterSlash (run o (.anyComponents :: later)) text = .failed := by
    induction text with
    | nil =>
      rw [afterSlash, run, show run o later [] = .failed from h]
      exact h
    | cons c text ih =>
      rw [afterSlash] at h ⊢
      split_ifs at h ⊢
      · split at h
        · next hfirst =>
          have hboth : run o (.anyComponents :: later) text = .failed := by
            rw [run, hfirst]
            exact h
          rw [hboth]
          exact ih h
        · next hno => exact absurd h hno
      · exact ih h
  funext text
  rw [run]
  cases htext : run o (.anyComponents :: later) text with
  | failed =>
    refine hfailed text ?_
    rw [run] at htext
    split at htext
    · exact htext
    · next hno => exact absurd htext hno
  | matched | hopeless => rfl

/-! ### One star in front of characters -/

/-- Plain characters match what folds to the same. -/
theorem run_chars {cs : List Char} :
    run o (cs.map .char) text = .matched ↔
      text.map (foldChar o.icase) = cs.map (foldChar o.icase) := by
  have h : run o (cs.map .char ++ []) text = .matched ↔ _ := run_chars_append
  rw [List.append_nil] at h
  rw [h]
  constructor
  · rintro ⟨front, back, rfl, hfront, hback⟩
    cases back with
    | nil => rwa [List.append_nil]
    | cons => cases hback
  · exact fun hall => ⟨text, [], (List.append_nil _).symm, hall, rfl⟩

/-- Only a text that is too short leaves no hope for characters. -/
theorem length_lt_of_run_chars {cs : List Char} (h : run o (cs.map .char) text = .hopeless) :
    text.length < cs.length := by
  induction cs generalizing text with
  | nil => cases text <;> cases h
  | cons p cs ih =>
    cases text with
    | nil => exact Nat.succ_pos _
    | cons c text =>
      rw [List.map_cons, run_char_cons] at h
      split_ifs at h
      exact Nat.succ_lt_succ (ih h)

/-- Where slashes do not count, one star in front of characters is matched by what ends with them. -/
theorem run_anySequence_chars (hseparate : o.separate = false) {cs : List Char} :
    run o (.anySequence :: cs.map .char) text = .matched ↔
      ∃ front back, text = front ++ back ∧
        back.map (foldChar o.icase) = cs.map (foldChar o.icase) := by
  rw [run]
  constructor
  · intro h
    obtain ⟨front, back, rfl, -, hback⟩ := exists_of_afterRun h
    exact ⟨front, back, rfl, run_chars.mp hback⟩
  · rintro ⟨front, back, rfl, hback⟩
    induction front with
    | nil =>
      rw [List.nil_append]
      cases back with
      | nil => exact run_chars.mpr hback
      | cons c back => rw [afterRun, run_chars.mpr hback]
    | cons c front ih =>
      have hlong := congrArg List.length hback
      simp only [List.length_map] at hlong
      rw [List.cons_append, afterRun]
      cases hhere : run o (cs.map .char) (c :: (front ++ back)) with
      | matched => rfl
      | failed =>
        rw [hseparate]
        exact ih
      | hopeless =>
        have hshort := length_lt_of_run_chars hhere
        rw [List.length_cons, List.length_append] at hshort
        omega

end GitRemote.Glob
