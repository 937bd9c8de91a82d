import GitRemote.Proofs.Pathspec.Globbing

/-!
# Globs give up in time

Matching stops as soon as a text is too short behind some star. Nothing is missed by that: what was not
tried is shorter still. So a text matches exactly if it is made up of pieces that the tokens take, where two
stars stand only at the start of a component.
-/

namespace GitRemote.Glob

variable {o : Options} {tokens : List Token} {t : Token} {text behind : List Char} {starts : Bool}

/-- A text is made up of pieces that tokens take. -/
def Fits (o : Options) (tokens : List Token) (text : List Char) : Prop :=
  ∃ pieces, Splits o tokens pieces ∧ pieces.flatten = text

/-- Without tokens only the empty text fits. -/
theorem fits_nil_iff : Fits o [] text ↔ text = [] := by
  constructor
  · rintro ⟨pieces, hpieces, rfl⟩
    cases hpieces
    rfl
  · rintro rfl
    exact ⟨[], .nil, rfl⟩

/-- The first token takes a piece, and the others fit what is behind. -/
theorem fits_cons_iff :
    Fits o (t :: tokens) text ↔
      ∃ piece behind, text = piece ++ behind ∧ t.Takes o piece behind ∧ Fits o tokens behind := by
  constructor
  · rintro ⟨_, hpieces, rfl⟩
    cases hpieces with
    | @cons _ _ piece pieces htakes hrest =>
      exact ⟨piece, pieces.flatten, rfl, htakes, pieces, hrest, rfl⟩
  · rintro ⟨piece, _, rfl, htakes, pieces, hrest, rfl⟩
    exact ⟨piece :: pieces, .cons htakes hrest, rfl⟩

/-- Two stars stand only where a component may start: in front, behind a slash and behind two stars. -/
def Anchored : Bool → List Token → Prop
  | _, [] => True
  | starts, .anyComponents :: tokens => starts = true ∧ Anchored true tokens
  | _, t :: tokens => Anchored (t == .char '/') tokens

/-- What may be left of a text once whole components are taken from it. -/
def Left (text behind : List Char) : Prop :=
  behind = text ∨ behind = [] ∨ ∃ front, text = front ++ '/' :: behind

/-- What is left of a text stands at its end. -/
theorem Left.isSuffix (h : Left text behind) : behind <:+ text := by
  rcases h with rfl | rfl | ⟨front, rfl⟩
  · exact List.suffix_rfl
  · exact List.nil_suffix
  · exact ⟨front ++ ['/'], by simp⟩

/-- What is left of a rest is left of the whole text. -/
theorem Left.trans {later : List Char} (h : Left text behind) (h' : Left behind later) :
    Left text later := by
  rcases h' with rfl | rfl | ⟨back, rfl⟩
  · exact h
  · exact .inr (.inl rfl)
  · rcases h with rfl | h | ⟨front, rfl⟩
    · exact .inr (.inr ⟨back, rfl⟩)
    · cases back <;> cases h
    · exact .inr (.inr ⟨front ++ '/' :: back, by simp⟩)

/-- What tokens could still be tried on after a text: all that is shorter, but for two stars only what
starts a component. -/
def Reachable : List Token → List Char → List Char → Prop
  | .anyComponents :: _, text, later => Left text later
  | _, text, later => later <:+ text

/-- What is left behind whole components can be tried with any tokens. -/
theorem Left.reachable (h : Left text behind) (tokens : List Token) :
    Reachable tokens text behind := by
  unfold Reachable
  split
  · exact h
  · exact h.isSuffix

theorem Reachable.refl (tokens : List Token) (text : List Char) : Reachable tokens text text :=
  Left.reachable (.inl rfl) tokens

/-- What does not match does not fit, and where there is no hope nothing later fits either. -/
def Misses (o : Options) (tokens : List Token) (text : List Char) : Verdict → Prop
  | .matched => True
  | .failed => ¬ Fits o tokens text
  | .hopeless => ∀ later, Reachable tokens text later → ¬ Fits o tokens later

/-- What does not match does not fit, whether there is hope or not. -/
theorem Misses.not_fits {verdict : Verdict} (h : Misses o tokens text verdict)
    (hverdict : verdict ≠ .matched) : ¬ Fits o tokens text := by
  cases verdict with
  | matched => exact absurd rfl hverdict
  | failed => exact h
  | hopeless => exact h text (.refl tokens text)

/-- Where two stars are not next, everything shorter could be tried. -/
theorem reachable_of_anchored (h : Anchored false tokens) :
    Reachable tokens text behind ↔ behind <:+ text := by
  match tokens with
  | [] => exact Iff.rfl
  | t :: tokens =>
    cases t with
    | anyComponents => cases h.1
    | char | anyChar | anySequence | anyOf | noneOf => exact Iff.rfl

/-! ### One star -/

/-- A star takes nothing, or the first character. -/
theorem fits_anySequence_cons {c : Char} (h : Fits o (.anySequence :: tokens) (c :: text)) :
    Fits o tokens (c :: text) ∨
      (o.separate && c == '/') = false ∧ Fits o (.anySequence :: tokens) text := by
  obtain ⟨piece, behind, htext, hfree, hbehind⟩ := fits_cons_iff.mp h
  cases piece with
  | nil => exact .inl (htext ▸ hbehind)
  | cons d piece =>
    obtain ⟨rfl, rfl⟩ := List.cons.inj htext
    refine .inr ⟨?_, fits_cons_iff.mpr ⟨piece, behind, rfl, fun hseparate hmem => ?_, hbehind⟩⟩
    · rw [Bool.and_eq_false_imp]
      exact fun hseparate => beq_false_of_ne fun hc => hfree hseparate (hc ▸ List.mem_cons_self)
    · exact hfree hseparate (List.mem_cons_of_mem _ hmem)

/-- A star leaves an end of the text. -/
theorem exists_suffix_of_fits_anySequence (h : Fits o (.anySequence :: tokens) text) :
    ∃ behind, behind <:+ text ∧ Fits o tokens behind := by
  obtain ⟨piece, behind, rfl, -, hbehind⟩ := fits_cons_iff.mp h
  exact ⟨behind, List.suffix_append .., hbehind⟩

/-- Where the tokens behind a star have no hope, the star has none. -/
theorem not_fits_anySequence (hanchored : Anchored false tokens)
    (h : Misses o tokens text .hopeless) (later : List Char) (hlater : later <:+ text) :
    ¬ Fits o (.anySequence :: tokens) later := by
  intro hfits
  obtain ⟨behind, hbehind, hfits⟩ := exists_suffix_of_fits_anySequence hfits
  exact h behind ((reachable_of_anchored hanchored).mpr (hbehind.trans hlater)) hfits

/-- A star misses nothing if the tokens behind it miss nothing: it has tried them behind every piece
that it may take, until there was no hope. -/
theorem misses_afterRun (hanchored : Anchored false tokens)
    (h : ∀ text, Misses o tokens text (run o tokens text)) (text : List Char) :
    Misses o (.anySequence :: tokens) text (afterRun o (run o tokens) text) := by
  induction text with
  | nil =>
    rw [afterRun]
    cases hrun : run o tokens [] with
    | matched => trivial
    | failed =>
      intro hfits
      obtain ⟨behind, hbehind, hfits⟩ := exists_suffix_of_fits_anySequence hfits
      obtain rfl := List.suffix_nil.mp hbehind
      exact (h []).not_fits (by rw [hrun]; decide) hfits
    | hopeless => exact not_fits_anySequence hanchored (hrun ▸ h _)
  | cons c text ih =>
    rw [afterRun]
    cases hrun : run o tokens (c :: text) with
    | matched => trivial
    | hopeless => exact not_fits_anySequence hanchored (hrun ▸ h _)
    | failed =>
      have hhere : ¬ Fits o tokens (c :: text) := (h (c :: text)).not_fits (by rw [hrun]; decide)
      dsimp only
      split
      · next hslash =>
        intro hfits
        rcases fits_anySequence_cons hfits with hfits | ⟨hno, -⟩
        · exact hhere hfits
        · exact Bool.false_ne_true (hno.symm.trans hslash)
      · generalize afterRun o (run o tokens) text = verdict at ih
        cases verdict with
        | matched => trivial
        | failed => exact fun hfits => (fits_anySequence_cons hfits).elim hhere fun hlater => ih hlater.2
        | hopeless =>
          intro later hlater hfits
          rcases List.suffix_cons_iff.mp hlater with rfl | hlater
          · exact (fits_anySequence_cons hfits).elim hhere fun hlater =>
              ih text List.suffix_rfl hlater.2
          · exact ih later hlater hfits

/-! ### Two stars -/

/-- Two stars leave what is behind whole components. -/
theorem exists_left_of_fits_anyComponents (h : Fits o (.anyComponents :: tokens) text) :
    ∃ behind, Left text behind ∧ Fits o tokens behind := by
  obtain ⟨piece, behind, rfl, hend, hbehind⟩ := fits_cons_iff.mp h
  refine ⟨behind, ?_, hbehind⟩
  rcases hend with rfl | hslash | rfl
  · exact .inl rfl
  · obtain ⟨front, rfl⟩ := List.getLast?_eq_some_iff.mp hslash
    exact .inr (.inr ⟨front, by simp⟩)
  · exact .inr (.inl rfl)

/-- Where trying behind every slash fails, the tokens fit neither behind a slash nor at the end. -/
theorem not_fits_of_afterSlash (h : ∀ text, Misses o tokens text (run o tokens text))
    (hrun : afterSlash (run o tokens) text ≠ .matched) :
    (∀ front later, text = front ++ '/' :: later → ¬ Fits o tokens later) ∧ ¬ Fits o tokens [] := by
  induction text with
  | nil =>
    refine ⟨fun front later hnil => ?_, (h []).not_fits hrun⟩
    cases front <;> cases hnil
  | cons c text ih =>
    have hcons (hlater : ¬ c = '/' ∨ ¬ Fits o tokens text)
        (hafter : afterSlash (run o tokens) text ≠ .matched) :
        (∀ front later, c :: text = front ++ '/' :: later → ¬ Fits o tokens later) ∧
          ¬ Fits o tokens [] := by
      refine ⟨fun front later htext => ?_, (ih hafter).2⟩
      cases front with
      | nil =>
        obtain ⟨rfl, rfl⟩ := List.cons.inj htext
        exact hlater.resolve_left (not_not_intro rfl)
      | cons d front => exact (ih hafter).1 front later (List.cons.inj htext).2
    rw [afterSlash] at hrun
    split_ifs at hrun with hslash
    · have hhere : run o tokens text ≠ .matched := by
        intro hmatched
        rw [hmatched] at hrun
        exact hrun rfl
      cases hverdict : run o tokens text with
      | matched => exact absurd hverdict hhere
      | failed =>
        rw [hverdict] at hrun
        exact hcons (.inr ((h text).not_fits hhere)) hrun
      | hopeless =>
        have hmisses := h text
        rw [hverdict] at hmisses
        have hnone (later : List Char) (hleft : Left text later) : ¬ Fits o tokens later :=
          hmisses later (hleft.reachable tokens)
        refine ⟨fun front later htext => ?_, hnone [] (.inr (.inl rfl))⟩
        cases front with
        | nil => exact hnone later (.inl (List.cons.inj htext).2.symm)
        | cons d front => exact hnone later (.inr (.inr ⟨front, (List.cons.inj htext).2⟩))
    · exact hcons (.inl fun hc => hslash (beq_iff_eq.mpr hc)) hrun

/-- Two stars miss nothing if the tokens behind them miss nothing. -/
theorem misses_anyComponents (h : ∀ text, Misses o tokens text (run o tokens text))
    (text : List Char) :
    Misses o (.anyComponents :: tokens) text (run o (.anyComponents :: tokens) text) := by
  have hnone (hrun : run o (.anyComponents :: tokens) text ≠ .matched) (behind : List Char)
      (hleft : Left text behind) : ¬ Fits o tokens behind := by
    rw [run] at hrun
    cases hverdict : run o tokens text with
    | matched =>
      rw [hverdict] at hrun
      exact absurd rfl hrun
    | hopeless =>
      have hmisses := h text
      rw [hverdict] at hmisses
      exact hmisses behind (hleft.reachable tokens)
    | failed =>
      rw [hverdict] at hrun
      obtain ⟨hslash, hnil⟩ := not_fits_of_afterSlash h hrun
      rcases hleft with rfl | rfl | ⟨front, htext⟩
      · exact (h behind).not_fits (by rw [hverdict]; decide)
      · exact hnil
      · exact hslash front behind htext
  cases hverdict : run o (.anyComponents :: tokens) text with
  | matched => trivial
  | failed =>
    intro hfits
    obtain ⟨behind, hleft, hfits⟩ := exists_left_of_fits_anyComponents hfits
    exact hnone (by rw [hverdict]; decide) behind hleft hfits
  | hopeless =>
    intro later hlater hfits
    obtain ⟨behind, hleft, hfits⟩ := exists_left_of_fits_anyComponents hfits
    exact hnone (by rw [hverdict]; decide) behind (Left.trans hlater hleft) hfits

/-! ### One character -/

/-- A token that takes one character, and so cannot match the end. -/
def Token.Single (o : Options) (t : Token) : Prop :=
  (∀ piece behind, t.Takes o piece behind ↔ ∃ c, piece = [c] ∧ t.covers o c = true) ∧
    ∀ tokens text, run o (t :: tokens) text =
      match text with
      | [] => .hopeless
      | c :: text => if t.covers o c then run o tokens text else .failed

/-- A token of one character takes it, and the others fit what is behind. -/
theorem Token.Single.fits_cons_iff (h : t.Single o) :
    Fits o (t :: tokens) text ↔
      ∃ c behind, text = c :: behind ∧ t.covers o c = true ∧ Fits o tokens behind := by
  simp only [Glob.fits_cons_iff, h.1]
  constructor
  · rintro ⟨_, behind, rfl, ⟨c, rfl, hcovers⟩, hbehind⟩
    exact ⟨c, behind, rfl, hcovers, hbehind⟩
  · rintro ⟨c, behind, rfl, hcovers, hbehind⟩
    exact ⟨[c], behind, rfl, ⟨c, rfl, hcovers⟩, hbehind⟩

/-- A slash is matched by itself only. -/
theorem eq_slash_of_sameChar {c : Char} (h : sameChar o c '/' = true) : c = '/' := by
  have hall : ∀ n < 128, (Char.ofNat n).toLower = '/' → Char.ofNat n = '/' := by decide
  simp only [sameChar, Bool.or_eq_true, Bool.and_eq_true, beq_iff_eq, decide_eq_true_eq] at h
  rcases h with h | ⟨⟨⟨-, hc⟩, -⟩, hlower⟩
  · exact h
  · rw [← Char.ofNat_toNat c] at hlower ⊢
    exact hall _ hc hlower

/-- What is behind the character that a token takes is within reach of the others. -/
theorem reachable_behind (hanchored : Anchored (t == .char '/') tokens) {c d : Char}
    (hd : t.covers o d = true) (hsuffix : d :: behind <:+ c :: text) :
    Reachable tokens text behind := by
  obtain ⟨front, hfront⟩ := hsuffix
  cases hslash : t == .char '/' with
  | false =>
    rw [hslash] at hanchored
    rw [reachable_of_anchored hanchored]
    cases front with
    | nil => exact (List.cons.inj hfront).2 ▸ List.suffix_rfl
    | cons e front => exact ⟨front ++ [d], by simpa using (List.cons.inj hfront).2⟩
  | true =>
    obtain rfl := beq_iff_eq.mp hslash
    obtain rfl := eq_slash_of_sameChar hd
    refine Left.reachable ?_ tokens
    cases front with
    | nil => exact .inl (List.cons.inj hfront).2
    | cons e front => exact .inr (.inr ⟨front, (List.cons.inj hfront).2.symm⟩)

/-- A token of one character misses nothing if those behind it miss nothing. -/
theorem misses_single (ht : t.Single o) (hanchored : Anchored (t == .char '/') tokens)
    (hreach : ∀ later, Reachable (t :: tokens) text later → later <:+ text)
    (h : ∀ text, Misses o tokens text (run o tokens text)) :
    Misses o (t :: tokens) text (run o (t :: tokens) text) := by
  cases text with
  | nil =>
    rw [ht.2]
    intro later hlater hfits
    obtain ⟨c, behind, rfl, -⟩ := ht.fits_cons_iff.mp hfits
    cases List.suffix_nil.mp (hreach _ hlater)
  | cons c text =>
    rw [ht.2]
    dsimp only
    split_ifs with hcovers
    · have hmisses := h text
      cases hverdict : run o tokens text with
      | matched => trivial
      | failed =>
        rw [hverdict] at hmisses
        intro hfits
        obtain ⟨d, behind, htext, -, hbehind⟩ := ht.fits_cons_iff.mp hfits
        obtain ⟨-, rfl⟩ := List.cons.inj htext
        exact hmisses hbehind
      | hopeless =>
        rw [hverdict] at hmisses
        intro later hlater hfits
        obtain ⟨d, behind, rfl, hd, hbehind⟩ := ht.fits_cons_iff.mp hfits
        exact hmisses behind (reachable_behind hanchored hd (hreach _ hlater)) hbehind
    · intro hfits
      obtain ⟨d, behind, htext, hd, -⟩ := ht.fits_cons_iff.mp hfits
      obtain ⟨rfl, -⟩ := List.cons.inj htext
      exact hcovers hd

/-- Whatever matching says of a text is right. -/
theorem misses_run (h : Anchored starts tokens) (text : List Char) :
    Misses o tokens text (run o tokens text) := by
  -- A star gives up with the tokens behind it, so no hope there must mean no hope on any later text.
  induction tokens generalizing starts text with
  | nil =>
    cases text with
    | nil => trivial
    | cons c text => exact fun hfits => by cases fits_nil_iff.mp hfits
  | cons t tokens ih =>
    cases t with
    | anySequence => exact misses_afterRun h (ih h) text
    | anyComponents => exact misses_anyComponents (ih h.2) text
    | char | anyChar | anyOf | noneOf =>
      refine misses_single ⟨fun _ _ => Iff.rfl, fun _ text => ?_⟩ h (fun _ => id) (ih h)
      cases text <;> rfl

/-- A text matches exactly if the tokens fit it. -/
theorem run_eq_matched_iff (h : Anchored starts tokens) :
    run o tokens text = .matched ↔ Fits o tokens text := by
  constructor
  · exact exists_splits_of_run
  · intro hfits
    by_contra hrun
    exact (misses_run h text).not_fits hrun hfits

end GitRemote.Glob
