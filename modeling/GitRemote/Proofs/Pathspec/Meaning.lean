import GitRemote.Proofs.Pathspec.Parts
import GitRemote.Proofs.Pathspec.Reading

/-!
# What the translation keeps

A wildcard matches what its parts mean, as long as no set of it depends on its backslashes: they are dropped
from sets, and what was escaped may come to make a range, to negate or to close.
-/

namespace GitRemote

namespace Wildcard

variable {separate starts : Bool} {pattern left : List Char} {meant : List Glob.Token}
  {parts : List Part}

/-! ### Part by part -/

/-- The glob of a pattern has tokens, and behind any others they match what the meant ones match. -/
def Means (separate starts : Bool) (pattern : List Char) (meant : List Glob.Token) : Prop :=
  ∀ before before' done fuel, Option.all (· == '/') before = starts →
    Option.all (· == '/') before' = starts →
    (toGlobFrom separate pattern.length before pattern).length ≤ fuel →
    ∃ tokens, Glob.tokens? fuel before' done (toGlobFrom separate pattern.length before pattern) =
      some tokens ∧ ∀ o, Glob.run o tokens = Glob.run o (done ++ meant)

/-- One part is read, in the pattern and in its glob. -/
theorem Means.step {starts' : Bool} {t : Glob.Token} (front : List Char)
    (h : Means separate starts' left meant) (hfront : front ≠ [])
    (hglob : ∀ before, Option.all (· == '/') before = starts → ∃ n last, left.length ≤ n ∧
      Option.all (· == '/') last = starts' ∧
      toGlobFrom separate pattern.length before pattern = front ++ toGlobFrom separate n last left)
    (htokens : ∀ before done fuel rest, Option.all (· == '/') before = starts →
      (rest.head? = some '*' → left.head? = some '*') → ∃ last done',
        Option.all (· == '/') last = starts' ∧
        (∀ o later, Glob.run o (done' ++ later) = Glob.run o (done ++ t :: later)) ∧
        Glob.tokens? (fuel + 1) before done (front ++ rest) = Glob.tokens? fuel last done' rest) :
    Means separate starts pattern (t :: meant) := by
  intro before before' done fuel hbefore hbefore' hfuel
  obtain ⟨n, last, hn, hlast, heq⟩ := hglob before hbefore
  -- The glob of what is left does not depend on the fuel, so `h` applies to it.
  rw [heq, toGlobFrom_fuel hn (Nat.le_refl _)] at hfuel ⊢
  have hpos := List.length_pos_of_ne_nil hfront
  rw [List.length_append] at hfuel
  obtain ⟨fuel, rfl⟩ := Nat.exists_eq_add_one.mpr (show 0 < fuel by omega)
  obtain ⟨last', done', hlast', hrun, hread⟩ := htokens before' done fuel _ hbefore' head?_of_toGlobFrom
  obtain ⟨tokens, htokens, hmeant⟩ := h last last' done' fuel hlast hlast' (by omega)
  exact ⟨tokens, hread.trans htokens, fun o => (hmeant o).trans (hrun o meant)⟩

theorem run_snoc (o : Glob.Options) (done : List Glob.Token) (t : Glob.Token)
    (later : List Glob.Token) :
    Glob.run o (done ++ [t] ++ later) = Glob.run o (done ++ t :: later) := by
  rw [List.append_assoc]
  rfl

theorem Means.nil : Means separate starts [] [] := by
  intro before before' done fuel _ _ _
  refine ⟨done, ?_, fun o => by rw [List.append_nil]⟩
  cases fuel <;> rfl

/-- A plain character means itself. -/
theorem Means.plain {c : Char} (hc : isSpecial c = false)
    (h : Means separate (c == '/') left meant) :
    Means separate starts (c :: left) (.char c :: meant) := by
  obtain ⟨hstar, hany, hset, hescape⟩ := ne_of_not_isSpecial hc
  refine h.step [c] (List.cons_ne_nil _ _) (fun before _ => ?_)
    fun before done fuel rest _ _ => ?_
  · exact ⟨_, some c, Nat.le_refl _, rfl,
      toGlobFrom_char (fun _ _ hc => absurd hc hescape) hstar hset⟩
  · refine ⟨some c, _, rfl, fun o later => run_snoc o done (.char c) later, ?_⟩
    rw [List.singleton_append, Glob.tokens?] <;> assumption

theorem Means.any (h : Means separate false left meant) :
    Means separate starts ('?' :: left) (.anyChar :: meant) := by
  refine h.step ['?'] (List.cons_ne_nil _ _) (fun before _ => ?_)
    fun before done fuel rest _ _ => ?_
  · exact ⟨_, some '?', Nat.le_refl _, rfl,
      toGlobFrom_char (fun _ _ hc => absurd hc (by decide)) (by decide) (by decide)⟩
  · exact ⟨some '?', _, rfl, fun o later => run_snoc o done .anyChar later, rfl⟩

/-- A set of one character matches what the character matches. -/
theorem covers_literalToken (o : Glob.Options) (c d : Char) :
    (literalToken c).covers o d = Glob.sameChar o d c := by
  rw [literalToken]
  split_ifs with hc
  · have hset : (Glob.Token.anyOf [.single c]).covers o d =
        (!(o.separate && d == '/') && Glob.sameChar o d c) := by
      simp [Glob.Token.covers, Glob.Specifier.covers]
    rw [hset]
    by_cases hslash : d = '/'
    · have hother : Glob.sameChar o '/' c = false := by
        simp only [Bool.or_eq_true, beq_iff_eq] at hc
        rcases hc with ((rfl | rfl) | rfl) | rfl <;> simp [Glob.sameChar]
      rw [hslash, hother, Bool.and_false]
    · simp [hslash]
  · rfl

/-- A set of one character matches as that character does. -/
theorem run_literalToken (o : Glob.Options) (c : Char) (later : List Glob.Token) :
    Glob.run o (literalToken c :: later) = Glob.run o (.char c :: later) := by
  funext text
  cases text with
  | nil =>
    rw [literalToken]
    split_ifs <;> rfl
  | cons d text =>
    have hcovers := covers_literalToken o c d
    rw [Glob.run_char_cons, ← hcovers, literalToken]
    split_ifs with hc hset hset <;> simp only [Glob.run, hset, if_true] <;> rfl

/-- A character behind a backslash means itself. -/
theorem Means.escaped {c : Char} (h : Means separate (c == '/') left meant) :
    Means separate starts ('\\' :: c :: left) (.char c :: meant) := by
  obtain ⟨last, hlast, hread⟩ := Place.exists_tokens?_literalChar c
  refine h.step (literalChar c) (Place.literalChar_ne_nil c) (fun before _ => ?_)
    fun before done fuel rest _ _ => ?_
  · exact ⟨_, some c, Nat.le_succ _, rfl, rfl⟩
  · refine ⟨last, _, hlast, fun o later => ?_, hread fuel before done rest⟩
    rw [run_snoc]
    exact Glob.run_append_congr (run_literalToken o c later) done

/-- A set that reads the same without its backslashes means its members. -/
theorem Means.set {s : BracketSet} (hkept : s.Kept) (h : Means separate false left meant) :
    Means separate starts ('[' :: (s.body ++ left)) (s.token :: meant) := by
  refine h.step ('[' :: s.glob) (List.cons_ne_nil _ _) (fun before _ => ?_)
    fun before done fuel rest _ _ => ?_
  · refine ⟨(s.body ++ left).length, some ']', ?_, rfl, ?_⟩
    · rw [List.length_append]
      exact Nat.le_add_left ..
    · rw [List.length_cons, toGlobFrom, s.setBody_body]
  · refine ⟨some ']', _, rfl, fun o later => run_snoc o done s.token later, ?_⟩
    rw [List.cons_append, Glob.tokens?, Glob.bracket?_append (s.bracket?_glob hkept)]
    rfl

theorem length_stars (more : Nat) (left : List Char) :
    (List.replicate (more + 1) '*' ++ left).length = more + left.length + 1 := by
  simp only [List.length_append, List.length_replicate]
  omega

/-- A run of stars that is not a whole component is one star. -/
theorem Means.star {more : Nat} (hhead : left.head? ≠ some '*')
    (hpart : separate = true → more = 0 ∨ starts = false ∨ left.head?.all (· == '/') = false)
    (h : Means separate false left meant) :
    Means separate starts (List.replicate (more + 1) '*' ++ left) (.anySequence :: meant) := by
  refine h.step ['*'] (List.cons_ne_nil _ _) (fun before hbefore => ?_)
    fun before done fuel rest _ hrest => ?_
  · refine ⟨more + left.length, some '*', Nat.le_add_left .., rfl, ?_⟩
    rw [length_stars, toGlobFrom_stars hhead, starsGlob_eq_one (hbefore ▸ hpart)]
  · exact ⟨some '*', _, rfl, fun o later => run_snoc o done .anySequence later,
      Glob.tokens?_star fun hstar => hhead (hrest hstar)⟩

/-- A run of stars up to a slash that is a whole component is two stars. -/
theorem Means.components {more : Nat} (h : Means true true left meant) :
    Means true true (List.replicate (more + 2) '*' ++ '/' :: left) (.anyComponents :: meant) := by
  refine h.step ['*', '*', '/'] (List.cons_ne_nil _ _) (fun before hbefore => ?_)
    fun before done fuel rest hbefore _ => ?_
  · refine ⟨more + 1 + left.length, some '/', Nat.le_add_left .., rfl, ?_⟩
    have hstars : starsGlob true (more + 1) before ('/' :: left).head? = ['*', '*'] := by
      rw [starsGlob, hbefore]
      rfl
    rw [length_stars, toGlobFrom_stars (by simp), hstars, List.length_cons, ← Nat.add_assoc,
      toGlobFrom_char (fun _ _ hc => absurd hc (by decide)) (by decide) (by decide)]
    rfl
  · refine ⟨some '/', _, rfl, fun o later => Glob.run_pushComponents o done later, ?_⟩
    rw [List.cons_append, Glob.tokens?, hbefore]
    rfl

/-- Two or more stars are a whole component at the end, too. -/
theorem Means.components_end (more : Nat) :
    Means true true (List.replicate (more + 2) '*') [.anyComponents] := by
  intro before before' done fuel hbefore hbefore' hfuel
  have hglob : toGlobFrom true (List.replicate (more + 2) '*').length before
      (List.replicate (more + 2) '*') = ['*', '*'] := by
    have hstars : starsGlob true (more + 1) before none = ['*', '*'] := by
      rw [starsGlob, hbefore]
      rfl
    rw [← List.append_nil (List.replicate (more + 2) '*'), length_stars, toGlobFrom_stars (by simp),
      List.head?_nil, hstars]
    rfl
  rw [hglob] at hfuel ⊢
  obtain ⟨fuel, rfl⟩ := Nat.exists_eq_add_one.mpr (Nat.lt_of_lt_of_le (Nat.succ_pos _) hfuel)
  refine ⟨Glob.pushComponents done, ?_, fun o => ?_⟩
  · rw [Glob.tokens?, hbefore']
    rfl
  · have hrun := Glob.run_pushComponents o done []
    rwa [List.append_nil] at hrun

/-! ### All parts -/

/-- The character a part starts with. -/
def Part.head : Part → Char
  | .plain c _ => c
  | .escaped _ => '\\'
  | .any => '?'
  | .stars _ => '*'
  | .set _ => '['

theorem head?_written (p : Part) (parts : List Part) :
    (written (p :: parts)).head? = some p.head := by
  cases p <;> rfl

/-- What starts with a star is a run of stars. -/
theorem isStars_of_head {p : Part} (h : p.head = '*') : p.IsStars := by
  cases p with
  | plain c hc => exact absurd h (ne_of_not_isSpecial hc).1
  | stars => trivial
  | escaped | any | set => cases h

/-- What starts with a slash is a plain slash. -/
theorem eq_plain_of_head {p : Part} (h : p.head = '/') : ∃ hc, p = .plain '/' hc := by
  cases p with
  | plain c hc =>
    obtain rfl : c = '/' := h
    exact ⟨hc, rfl⟩
  | stars | escaped | any | set => cases h

theorem Apart.tail {p : Part} (h : Apart (p :: parts)) : Apart parts := List.IsChain.of_cons h

/-- No set depends on its backslashes. -/
def SetsKept (parts : List Part) : Prop := ∀ s, .set s ∈ parts → s.Kept

theorem SetsKept.tail {p : Part} (h : SetsKept (p :: parts)) : SetsKept parts :=
  fun s hs => h s (List.mem_cons_of_mem p hs)

/-- Behind a run of stars there is no other star. -/
theorem Apart.head?_ne {more : Nat} (h : Apart (.stars more :: parts)) :
    (written parts).head? ≠ some '*' := by
  cases parts with
  | nil => exact nofun
  | cons p parts =>
    rw [head?_written]
    intro hhead
    have hpair := (List.isChain_cons_cons.mp h).1
    exact hpair ⟨trivial, isStars_of_head (Option.some.inj hhead)⟩

/-- What parts are written as is a glob that matches what they mean. -/
theorem means_written (hapart : Apart parts) (hkept : SetsKept parts) :
    Means separate starts (written parts) (meaning separate starts parts) := by
  fun_induction meaning separate starts parts with
  | case1 => exact .nil
  | case2 starts c h parts ih => exact .plain h (ih hapart.tail hkept.tail)
  | case3 starts c parts ih => exact .escaped (ih hapart.tail hkept.tail)
  | case4 starts parts ih => exact .any (ih hapart.tail hkept.tail)
  | case5 starts s parts ih => exact .set (hkept s List.mem_cons_self) (ih hapart.tail hkept.tail)
  | case6 starts more hwhole =>
    obtain ⟨rfl, rfl, n, rfl⟩ := whole_iff.mp hwhole
    have hwritten : written [.stars (n + 1)] = List.replicate (n + 2) '*' := List.append_nil _
    rw [hwritten]
    exact .components_end n
  | case7 starts more hpart =>
    exact .star hapart.head?_ne
      (fun hseparate => or_assoc.mp (.inl (not_whole hpart hseparate))) .nil
  | case8 starts more h parts hwhole ih =>
    obtain ⟨rfl, rfl, n, rfl⟩ := whole_iff.mp hwhole
    exact .components (ih hapart.tail.tail hkept.tail.tail)
  | case9 starts more h parts hpart ih =>
    exact .star hapart.head?_ne
      (fun hseparate => or_assoc.mp (.inl (not_whole hpart hseparate)))
      (.plain h (ih hapart.tail.tail hkept.tail.tail))
  | case10 starts more parts hnil hslash ih =>
    obtain ⟨p, parts, rfl⟩ := List.exists_cons_of_ne_nil hnil
    have hother : (written (p :: parts)).head?.all (· == '/') = false := by
      rw [head?_written, Option.all_some]
      refine beq_false_of_ne fun hhead => ?_
      obtain ⟨hc, rfl⟩ := eq_plain_of_head hhead
      exact hslash hc parts rfl
    exact .star hapart.head?_ne (fun _ => .inr (.inr hother)) (ih hapart.tail hkept.tail)

/-- Parts whose sets do not depend on their backslashes are a glob, and the text it matches is made up of
pieces that the parts take as they are meant. A slash means the same with and without its backslash, unless
slashes count and it stands behind stars. -/
theorem wildcard_keeps_meaning (hapart : Apart parts) (hkept : SetsKept parts) (separate : Bool) :
    (Glob.compile? (toGlob separate (written parts))).isSome = true ∧
      (∀ icase text, matchesText (written parts) text separate icase = true ↔
        ∃ pieces, Glob.Splits ⟨icase, separate⟩ (meaning separate true parts) pieces ∧
          pieces.flatten = text) ∧
      ((separate = true → SlashesBare parts) →
        meaning separate true (parts.map Part.bareSlash) = meaning separate true parts) := by
  obtain ⟨tokens, hcompile, hmeant⟩ :=
    means_written hapart hkept none none [] _ rfl rfl (Nat.le_refl _)
  refine ⟨Option.isSome_of_mem hcompile, fun icase text => ?_, meaning_bareSlash true⟩
  rw [matchesText_of_some hcompile, hmeant, List.nil_append]
  exact Glob.run_eq_matched_iff (anchored_meaning separate true parts)

/-- The set `[!]x-z\-]`. -/
def mixedSet : BracketSet where
  sign := some .exclamation
  first := ⟨']', false⟩
  others := [⟨'x', false⟩, ⟨'-', false⟩, ⟨'z', false⟩, ⟨'-', true⟩]
  bare := by decide
  unclosed := by decide
  unsigned := by decide

/-- The wildcard `a/**/[!]x-z\-]\*?`. -/
def mixedParts : List Part :=
  [.plain 'a' rfl, .plain '/' isSpecial_slash, .stars 1, .plain '/' isSpecial_slash, .set mixedSet,
    .escaped '*', .any]

theorem wildcard_keeps_meaning_mixed :
    Apart mixedParts ∧ SetsKept mixedParts ∧
      written mixedParts = "a/**/[!]x-z\\-]\\*?".toList ∧
      matchesText (written mixedParts) "a/b/c/w*d".toList true false = true := by
  have hapart : Apart mixedParts := by simp [Apart, mixedParts, Part.IsStars]
  have hkept : SetsKept mixedParts := by
    intro s hs
    obtain rfl : s = mixedSet := by simpa [mixedParts] using hs
    exact ⟨by decide, by decide, rfl, trivial⟩
  refine ⟨hapart, hkept, rfl, ?_⟩
  refine ((wildcard_keeps_meaning hapart hkept true).2.1 false _).mpr
    ⟨[['a'], ['/'], ['b', '/', 'c', '/'], ['w'], ['*'], ['d']], ?_, rfl⟩
  exact .cons ⟨'a', rfl, rfl⟩ <| .cons ⟨'/', rfl, rfl⟩ <| .cons (.inr (.inl rfl)) <|
    .cons ⟨'w', rfl, rfl⟩ <| .cons ⟨'*', rfl, rfl⟩ <| .cons ⟨'d', rfl, rfl⟩ .nil

/-- The set `[a\-z]`. -/
def dashSet : BracketSet :=
  ⟨none, ⟨'a', false⟩, [⟨'-', true⟩, ⟨'z', false⟩], by decide, by decide, by decide⟩

/-- The set `[\!a]`. -/
def signSet : BracketSet :=
  ⟨none, ⟨'!', true⟩, [⟨'a', false⟩], by decide, by decide, by decide⟩

/-- The set `[a\]b]`. -/
def closingSet : BracketSet :=
  ⟨none, ⟨'a', false⟩, [⟨']', true⟩, ⟨'b', false⟩], by decide, by decide, by decide⟩

/-- Without its backslash, a dash makes a range, an exclamation mark negates and a bracket closes. -/
theorem bare_members_change_sets :
    (matchesText (written [.set dashSet]) ['m'] false false = true ∧
        ¬ ∃ pieces, Glob.Splits ⟨false, false⟩ (meaning false true [.set dashSet]) pieces ∧
          pieces.flatten = ['m']) ∧
      (matchesText (written [.set signSet]) ['b'] false false = true ∧
        ¬ ∃ pieces, Glob.Splits ⟨false, false⟩ (meaning false true [.set signSet]) pieces ∧
          pieces.flatten = ['b']) ∧
      matchesText (written [.set closingSet]) ['b'] false false = false ∧
        ∃ pieces, Glob.Splits ⟨false, false⟩ (meaning false true [.set closingSet]) pieces ∧
          pieces.flatten = ['b'] := by
  have hfits (s : BracketSet) (text : List Char) :
      (∃ pieces, Glob.Splits ⟨false, false⟩ (meaning false true [.set s]) pieces ∧
        pieces.flatten = text) ↔
        Glob.run ⟨false, false⟩ [s.token] text = .matched :=
    (Glob.run_eq_matched_iff (anchored_meaning false true [.set s])).symm
  simp only [hfits]
  decide

end Wildcard

end GitRemote
