import GitRemote.Proofs.Pathspec.Matching
import Mathlib.Logic.Relation

/-!
# Reading a wildcard part by part

A wildcard is read from the front: plain characters, escaped ones, sets, runs of stars. Each part is one
token of the glob, wherever the pattern goes on. So a run of stars that is not a whole component takes a
piece of its own of every text that matches.
-/

namespace GitRemote

namespace Wildcard

variable {separate icase : Bool} {pattern text : List Char} {tokens : List Glob.Token}

/-- The token of a character that stands for itself. -/
def literalToken (c : Char) : Glob.Token :=
  if c == '*' || c == '?' || c == '[' || c == ']' then .anyOf [.single c] else .char c

/-- A place in a pattern. -/
structure Place where
  /-- The tokens of what is in front. -/
  done : List Glob.Token
  /-- A component starts here. -/
  starts : Bool
  /-- The rest of the pattern. -/
  left : List Char

namespace Place

/-- The start of a pattern. -/
def start (pattern : List Char) : Place := ⟨[], true, pattern⟩

/-- One part of the pattern is read. A set counts as one part if the bracket that closes it also closes
it in the glob. -/
inductive Next (separate : Bool) : Place → Place → Prop
  | plain {done : List Glob.Token} {starts : Bool} {c : Char} {left : List Char}
      (h : isSpecial c = false) :
      Next separate ⟨done, starts, c :: left⟩ ⟨done ++ [.char c], c == '/', left⟩
  | any {done : List Glob.Token} {starts : Bool} {left : List Char} :
      Next separate ⟨done, starts, '?' :: left⟩ ⟨done ++ [.anyChar], false, left⟩
  | escaped {done : List Glob.Token} {starts : Bool} {c : Char} {left : List Char} :
      Next separate ⟨done, starts, '\\' :: c :: left⟩ ⟨done ++ [literalToken c], c == '/', left⟩
  | set {done : List Glob.Token} {starts : Bool} {cs body left : List Char} {t : Glob.Token}
      (hbody : setBody cs = (body, left)) (hset : Glob.bracket? body = some (t, [])) :
      Next separate ⟨done, starts, '[' :: cs⟩ ⟨done ++ [t], false, left⟩
  | stars {done : List Glob.Token} {starts : Bool} {n : Nat} {left : List Char}
      (hhead : left.head? ≠ some '*')
      (hpart : separate = true → n = 0 ∨ starts = false ∨ left.head?.all (· == '/') = false) :
      Next separate ⟨done, starts, List.replicate (n + 1) '*' ++ left⟩
        ⟨done ++ [.anySequence], false, left⟩
  | components {done : List Glob.Token} {n : Nat} {left : List Char} (hseparate : separate = true) :
      Next separate ⟨done, true, List.replicate (n + 2) '*' ++ '/' :: left⟩
        ⟨Glob.pushComponents done, true, left⟩

variable {p q : Place}

/-- The glob of a pattern that is read up to a place has some tokens. -/
def Compiles (separate : Bool) (p : Place) (tokens : List Glob.Token) : Prop :=
  ∃ fuel before, before.all (· == '/') = p.starts ∧
    Glob.tokens? fuel before p.done (toGlobFrom separate p.left.length before p.left) = some tokens

/-- A pattern is compiled the same behind any character that starts a component alike. -/
theorem Compiles.intro {fuel fuel' : Nat} (before : Option Char) {before' : Option Char}
    (hbefore : before.all (· == '/') = p.starts) (hbefore' : before'.all (· == '/') = p.starts)
    (hfuel : p.left.length ≤ fuel)
    (h : Glob.tokens? fuel' before p.done (toGlobFrom separate fuel before' p.left) = some tokens) :
    p.Compiles separate tokens := by
  refine ⟨fuel', before, hbefore, ?_⟩
  rw [toGlobFrom_before (.inl (hbefore.trans hbefore'.symm)),
    toGlobFrom_fuel (Nat.le_refl _) hfuel, h]

/-- Something is compiled only if there is fuel for it. -/
theorem exists_succ_of_tokens? {fuel : Nat} {before : Option Char} {done : List Glob.Token} {c : Char}
    {rest : List Char} (h : Glob.tokens? fuel before done (c :: rest) = some tokens) :
    ∃ fuel', fuel = fuel' + 1 := by
  cases fuel with
  | zero => cases h
  | succ fuel => exact ⟨fuel, rfl⟩

/-- A character that stands for itself is one token. -/
theorem exists_tokens?_literalChar (c : Char) :
    ∃ last, Option.all (· == '/') last = (c == '/') ∧
      ∀ fuel before done rest, Glob.tokens? (fuel + 1) before done (literalChar c ++ rest) =
        Glob.tokens? fuel last (done ++ [literalToken c]) rest := by
  rw [literalChar, literalToken]
  split_ifs with hc
  · simp only [Bool.or_eq_true, beq_iff_eq] at hc
    have hset : Glob.bracket? [c, ']'] = some (.anyOf [.single c], []) := by
      rcases hc with ((rfl | rfl) | rfl) | rfl <;> rfl
    have hslash : (']' == '/') = (c == '/') := by
      rcases hc with ((rfl | rfl) | rfl) | rfl <;> rfl
    refine ⟨some ']', hslash, fun fuel before done rest => ?_⟩
    rw [List.cons_append, Glob.tokens?, Glob.bracket?_append hset, List.nil_append]
  · simp only [Bool.or_eq_true, beq_iff_eq, not_or] at hc
    obtain ⟨⟨⟨hstar, hany⟩, hset⟩, -⟩ := hc
    refine ⟨some c, rfl, fun fuel before done rest => ?_⟩
    rw [List.singleton_append, Glob.tokens?] <;> assumption

theorem literalChar_ne_nil (c : Char) : literalChar c ≠ [] := by
  rw [literalChar]
  split_ifs <;> exact List.cons_ne_nil _ _

/-- A character that is taken literally compiles to its own token. -/
theorem tokens?_literalChar {fuel : Nat} {before : Option Char} {done : List Glob.Token} {c : Char}
    {rest : List Char}
    (h : Glob.tokens? fuel before done (literalChar c ++ rest) = some tokens) :
    ∃ fuel' last, Option.all (· == '/') last = (c == '/') ∧
      Glob.tokens? fuel' last (done ++ [literalToken c]) rest = some tokens := by
  obtain ⟨last, hlast, hread⟩ := exists_tokens?_literalChar c
  obtain ⟨d, ds, hliteral⟩ := List.exists_cons_of_ne_nil (literalChar_ne_nil c)
  obtain ⟨fuel, rfl⟩ : ∃ fuel', fuel = fuel' + 1 := by
    rw [hliteral] at h
    exact exists_succ_of_tokens? h
  exact ⟨fuel, last, hlast, (hread ..).symm.trans h⟩

/-- The glob is the same whichever part was read last. -/
theorem Next.compiles (hnext : Next separate p q) (h : p.Compiles separate tokens) :
    q.Compiles separate tokens := by
  obtain ⟨fuel, before, hbefore, h⟩ := h
  cases hnext with
  | @plain done starts c left hc =>
    obtain ⟨hstar, hany, hset, hescape⟩ := ne_of_not_isSpecial hc
    rw [List.length_cons, toGlobFrom_char (fun _ _ hc => absurd hc hescape) hstar hset] at h
    obtain ⟨fuel, rfl⟩ := exists_succ_of_tokens? h
    rw [Glob.tokens?] at h
    · exact .intro (some c) rfl rfl (Nat.le_refl _) h
    all_goals assumption
  | @any done starts left =>
    rw [List.length_cons, toGlobFrom_char (fun _ _ hc => absurd hc (by decide)) (by decide)
      (by decide)] at h
    obtain ⟨fuel, rfl⟩ := exists_succ_of_tokens? h
    exact .intro (some '?') rfl rfl (Nat.le_refl _) h
  | @escaped done starts c left =>
    rw [List.length_cons, toGlobFrom] at h
    obtain ⟨fuel, last, hlast, h⟩ := tokens?_literalChar h
    exact .intro last hlast rfl (Nat.le_succ _) h
  | @set done starts cs body left t hbody hset =>
    rw [List.length_cons, toGlobFrom, hbody] at h
    obtain ⟨fuel, rfl⟩ := exists_succ_of_tokens? h
    dsimp only at h
    rw [List.cons_append, Glob.tokens?, Glob.bracket?_append hset, List.nil_append] at h
    have hleft := length_setBody cs
    rw [hbody] at hleft
    exact .intro (some ']') rfl rfl hleft h
  | @stars done starts n left hhead hpart =>
    have hlength : (List.replicate (n + 1) '*' ++ left).length = n + left.length + 1 := by
      simp only [List.length_append, List.length_replicate]
      omega
    rw [hlength, toGlobFrom_stars hhead, starsGlob_eq_one (hbefore ▸ hpart)] at h
    obtain ⟨fuel, rfl⟩ := exists_succ_of_tokens? h
    rw [List.singleton_append, Glob.tokens?_star fun h => hhead (head?_of_toGlobFrom h)] at h
    exact .intro (some '*') rfl rfl (Nat.le_add_left ..) h
  | @components done n left hseparate =>
    have hlength : (List.replicate (n + 2) '*' ++ '/' :: left).length =
        (n + 1 + left.length + 1) + 1 := by
      simp only [List.length_append, List.length_replicate, List.length_cons]
      omega
    have hstars : starsGlob separate (n + 1) before ('/' :: left).head? = ['*', '*'] := by
      rw [starsGlob, hseparate, hbefore]
      rfl
    rw [hlength, toGlobFrom_stars (by simp), hstars,
      toGlobFrom_char (fun _ _ hc => absurd hc (by decide)) (by decide) (by decide)] at h
    obtain ⟨fuel, rfl⟩ := exists_succ_of_tokens? h
    rw [List.cons_append, Glob.tokens?, hbefore] at h
    exact .intro (some '/') rfl rfl (Nat.le_add_left ..) h

/-- Whatever is read next, the glob is the same. -/
theorem compiles_of_reads (hreads : Relation.ReflTransGen (Next separate) p q)
    (h : p.Compiles separate tokens) : q.Compiles separate tokens := by
  induction hreads with
  | refl => exact h
  | tail _ hnext ih => exact hnext.compiles ih

/-- What was read has its tokens at the front of the glob's. -/
theorem Compiles.done_isPrefix (h : p.Compiles separate tokens) : p.done <+: tokens := by
  obtain ⟨fuel, before, -, h⟩ := h
  exact Glob.prefix_of_tokens? h

end Place

variable {before : Place}

/-- A run of stars that is not a whole component goes on from here. -/
def Place.AtPartialRun (p : Place) : Prop :=
  ∃ n left, p.left = List.replicate (n + 1) '*' ++ left ∧ left.head? ≠ some '*' ∧
    (n = 0 ∨ p.starts = false ∨ left.head?.all (· == '/') = false)

/-- A run of stars that is not a whole component is one star of the glob. -/
theorem getElem?_of_atPartialRun
    (hreads : Relation.ReflTransGen (Place.Next separate) (.start pattern) before)
    (hrun : before.AtPartialRun)
    (hcompile : Glob.compile? (toGlob separate pattern) = some tokens) :
    tokens[before.done.length]? = some .anySequence := by
  obtain ⟨done, starts, _⟩ := before
  obtain ⟨n, left, rfl, hhead, hpart⟩ := hrun
  have hstart : (Place.start pattern).Compiles separate tokens := ⟨_, none, rfl, hcompile⟩
  have hbehind := Place.compiles_of_reads (hreads.tail (.stars hhead fun _ => hpart)) hstart
  obtain ⟨later, rfl⟩ := hbehind.done_isPrefix
  simp

/-- Where slashes count, a run of stars that is not a whole component takes no slash of a text that
matches. A pattern that is no glob has only texts like itself. -/
theorem piece_of_atPartialRun
    (hreads : Relation.ReflTransGen (Place.Next true) (.start pattern) before)
    (hrun : before.AtPartialRun) (h : matchesText pattern text true icase = true) :
    match Glob.compile? (toGlob true pattern) with
    | some tokens => ∃ pieces piece, Glob.Splits ⟨icase, true⟩ tokens pieces ∧
        pieces.flatten = text ∧ pieces[before.done.length]? = some piece ∧ '/' ∉ piece
    | none => text.map (foldChar icase) = pattern.map (foldChar icase) := by
  cases hcompile : Glob.compile? (toGlob true pattern) with
  | none => exact (matchesText_of_none hcompile text).mp h
  | some tokens =>
    obtain ⟨pieces, hsplits, htext⟩ :=
      Glob.exists_splits_of_run ((matchesText_of_some hcompile text).mp h)
    obtain ⟨piece, hpiece, htakes⟩ :=
      hsplits.exists_piece (getElem?_of_atPartialRun hreads hrun hcompile)
    exact ⟨pieces, piece, hsplits, htext, hpiece, htakes rfl⟩

end Wildcard

end GitRemote
