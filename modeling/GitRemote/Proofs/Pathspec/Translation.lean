import GitRemote.Pathspec.Wildcard
import GitRemote.Proofs.Pathspec.Compiling

/-!
# Wildcards behind a plain beginning

A plain beginning of a pattern is matched as it is. What is behind it is translated as a pattern of its
own would be, except where a run of stars behind part of a component is taken for a whole one.
-/

namespace GitRemote

namespace Wildcard

variable {separate icase : Bool} {fuel n : Nat} {before : Option Char} {c : Char}
  {plain rest text : List Char}

/-- The characters that make a pattern more than a path. -/
def isSpecial (c : Char) : Bool := c == '*' || c == '?' || c == '[' || c == '\\'

/-- There is no wildcard among some characters. -/
def Plain (cs : List Char) : Prop := ∀ c ∈ cs, isSpecial c = false

instance (cs : List Char) : Decidable (Plain cs) :=
  decidable_of_iff ((cs.all fun c => !isSpecial c) = true) (by simp [Plain])

/-- A plain character is none of those that mean something. -/
theorem ne_of_not_isSpecial (h : isSpecial c = false) :
    c ≠ '*' ∧ c ≠ '?' ∧ c ≠ '[' ∧ c ≠ '\\' := by
  simp only [isSpecial, Bool.or_eq_false_iff, beq_eq_false_iff_ne] at h
  exact ⟨h.1.1.1, h.1.1.2, h.1.2, h.2⟩

/-- Plain text means nothing else to a glob. -/
theorem Plain.not_glob (h : Plain plain) : ∀ c ∈ plain, c ≠ '?' ∧ c ≠ '*' ∧ c ≠ '[' := by
  intro c hc
  obtain ⟨hstar, hany, hset, -⟩ := ne_of_not_isSpecial (h c hc)
  exact ⟨hany, hstar, hset⟩

/-! ### Translating -/

/-- A character that means nothing else is written as it is. -/
theorem toGlobFrom_char (hescape : ∀ d rest', c = '\\' → rest ≠ d :: rest')
    (hstar : c ≠ '*') (hset : c ≠ '[') :
    toGlobFrom separate (fuel + 1) before (c :: rest) =
      c :: toGlobFrom separate fuel (some c) rest := by
  rw [toGlobFrom]
  · exact hescape
  · exact hstar
  · exact hset

/-- A plain beginning is copied. -/
theorem toGlobFrom_plain (h : Plain plain) :
    toGlobFrom separate (plain.length + fuel) before (plain ++ rest) =
      plain ++ toGlobFrom separate fuel (plain.getLast?.or before) rest := by
  induction plain generalizing before with
  | nil => simp
  | cons c plain ih =>
    obtain ⟨hstar, -, hset, hescape⟩ := ne_of_not_isSpecial (h c List.mem_cons_self)
    rw [List.length_cons, Nat.add_right_comm, List.cons_append,
      toGlobFrom_char (fun _ _ hc => absurd hc hescape) hstar hset,
      ih fun d hd => h d (List.mem_cons_of_mem _ hd), Glob.getLast?_cons_or,
      List.cons_append]

/-- The glob of a run of stars. -/
def starsGlob (separate : Bool) (n : Nat) (before after : Option Char) : List Char :=
  if separate && n != 0 && (before.all (· == '/') && after.all (· == '/')) then ['*', '*'] else ['*']

/-- Stars are written as one unless they are a whole component. -/
theorem starsGlob_eq_one {after : Option Char}
    (h : separate = true → n = 0 ∨ before.all (· == '/') = false ∨ after.all (· == '/') = false) :
    starsGlob separate n before after = ['*'] := by
  rw [starsGlob, if_neg]
  simp only [Bool.and_eq_true, bne_iff_ne]
  rintro ⟨⟨hseparate, hn⟩, hbefore, hafter⟩
  rcases h hseparate with h | h | h
  · exact hn h
  · rw [hbefore] at h
    cases h
  · rw [hafter] at h
    cases h

/-- A run of stars is translated as one. -/
theorem toGlobFrom_stars (h : rest.head? ≠ some '*') :
    toGlobFrom separate (fuel + 1) before (List.replicate (n + 1) '*' ++ rest) =
      starsGlob separate n before rest.head? ++ toGlobFrom separate fuel (some '*') rest := by
  have hrun : (List.replicate n '*' ++ rest).takeWhile (· == '*') = List.replicate n '*' ∧
      (List.replicate n '*' ++ rest).dropWhile (· == '*') = rest := by
    induction n with
    | zero =>
      cases rest with
      | nil => exact ⟨rfl, rfl⟩
      | cons c rest =>
        have hc : (c == '*') = false := beq_false_of_ne fun hc => h (congrArg some hc)
        simp [hc]
    | succ n ih => simp [List.replicate_succ, ih.1, ih.2]
  rw [List.replicate_succ, List.cons_append, toGlobFrom, hrun.1, hrun.2, starsGlob]
  congr 2
  cases n <;> rfl

/-- A translation starts with a star only where the pattern does. -/
theorem head?_of_toGlobFrom (h : (toGlobFrom separate fuel before rest).head? = some '*') :
    rest.head? = some '*' := by
  fun_cases toGlobFrom separate fuel before rest with
  | case1 => cases h
  | case2 => cases h
  | case3 fuel before c rest =>
    rw [toGlobFrom, literalChar] at h
    split at h
    · cases h
    · next hliteral =>
      obtain rfl : c = '*' := Option.some.inj h
      exact absurd rfl hliteral
  | case4 => rfl
  | case5 fuel before rest body rest' hbody =>
    rw [toGlobFrom, hbody] at h
    cases h
  | case6 fuel before c rest hescape hstar hset =>
    rw [toGlobFrom_char hescape hstar hset] at h
    exact h

/-- The character in front matters only to stars, and only if it is a slash. -/
theorem toGlobFrom_before {before' : Option Char}
    (h : before.all (· == '/') = before'.all (· == '/') ∨ rest.head? ≠ some '*') :
    toGlobFrom separate fuel before rest = toGlobFrom separate fuel before' rest := by
  fun_cases toGlobFrom separate fuel before rest with
  | case1 => rfl
  | case2 => rfl
  | case3 => rfl
  | case4 =>
    rcases h with hbefore | hhead
    · rw [toGlobFrom, ← hbefore]
    · exact absurd rfl hhead
  | case5 fuel before rest body rest' hbody =>
    rw [toGlobFrom, hbody]
  | case6 fuel before c rest hescape hstar hset =>
    exact (toGlobFrom_char hescape hstar hset).symm

/-- Reading the members of a set leaves no more than there was. -/
theorem length_setMembers (cs : List Char) : (setMembers cs).2.length ≤ cs.length := by
  fun_induction setMembers cs with
  | case1 => exact Nat.le_refl _
  | case2 => exact Nat.le_succ _
  | case3 c rest out rest' hmembers ih =>
    rw [hmembers] at ih
    simp only [List.length_cons] at ih ⊢
    omega
  | case4 c rest hclosing hescape out rest' hmembers ih =>
    rw [hmembers] at ih
    simp only [List.length_cons] at ih ⊢
    omega

theorem length_setBody (cs : List Char) : (setBody cs).2.length ≤ cs.length := by
  fun_cases setBody cs with
  | case1 sign behindSign hsign closing behindClosing hclosing members left hmembers =>
    have hmembersLength := length_setMembers behindClosing
    rw [hmembers] at hmembersLength
    have hclosingLength : behindClosing.length ≤ behindSign.length := by
      split at hclosing <;> cases hclosing <;> simp
    have hsignLength : behindSign.length ≤ cs.length := by
      split at hsign <;> cases hsign <;> simp
    exact hmembersLength.trans (hclosingLength.trans hsignLength)

/-- More fuel than characters makes no difference. -/
theorem toGlobFrom_fuel {fuel' : Nat} (h : rest.length ≤ fuel) (h' : rest.length ≤ fuel') :
    toGlobFrom separate fuel before rest = toGlobFrom separate fuel' before rest := by
  fun_induction toGlobFrom separate fuel before rest generalizing fuel' with
  | case1 =>
    obtain rfl := List.length_eq_zero_iff.mp (Nat.le_zero.mp h)
    cases fuel' <;> rfl
  | case2 => cases fuel' <;> rfl
  | case3 fuel before c rest ih =>
    obtain ⟨fuel', rfl⟩ := Nat.exists_eq_add_one.mpr (Nat.lt_of_lt_of_le (Nat.succ_pos _) h')
    simp only [List.length_cons] at h h'
    have hlater := ih (by omega) (show rest.length ≤ fuel' by omega)
    rw [toGlobFrom, hlater]
  | case4 fuel before rest more left whole stars =>
    rename_i ih
    obtain ⟨fuel', rfl⟩ := Nat.exists_eq_add_one.mpr (Nat.lt_of_lt_of_le (Nat.succ_pos _) h')
    have hdrop : left.length ≤ rest.length := (List.dropWhile_sublist _).length_le
    simp only [List.length_cons] at h h'
    have hlater := ih (by omega) (show left.length ≤ fuel' by omega)
    rw [toGlobFrom, hlater]
  | case5 fuel before rest body left hbody ih =>
    obtain ⟨fuel', rfl⟩ := Nat.exists_eq_add_one.mpr (Nat.lt_of_lt_of_le (Nat.succ_pos _) h')
    have hleft := length_setBody rest
    rw [hbody] at hleft
    simp only [List.length_cons] at h h' hleft
    have hlater := ih (by omega) (show left.length ≤ fuel' by omega)
    rw [toGlobFrom, hbody, hlater]
  | case6 fuel before c rest hescape hstar hset ih =>
    obtain ⟨fuel', rfl⟩ := Nat.exists_eq_add_one.mpr (Nat.lt_of_lt_of_le (Nat.succ_pos _) h')
    simp only [List.length_cons] at h h'
    have hlater := ih (by omega) (show rest.length ≤ fuel' by omega)
    rw [toGlobFrom_char hescape hstar hset, hlater]

theorem toGlob_plain (h : Plain plain) : toGlob separate plain = plain := by
  have hcopy : toGlobFrom separate (plain.length + 0) none (plain ++ []) = _ := toGlobFrom_plain h
  rw [Nat.add_zero, List.append_nil] at hcopy
  rw [toGlob, hcopy]
  exact List.append_nil plain

/-- Where slashes do not count, one star is copied. -/
theorem toGlob_star (h : rest.head? ≠ some '*') :
    toGlob false ('*' :: rest) = '*' :: toGlob false rest := by
  have hstars : toGlobFrom false (rest.length + 1) none ('*' :: rest) =
      '*' :: toGlobFrom false rest.length (some '*') rest := toGlobFrom_stars (n := 0) h
  rw [toGlob, List.length_cons, hstars, toGlobFrom_before (.inr h), toGlob]

/-- A run of at least two stars that goes on from part of a component to its end, behind the plain
beginning of a pattern. -/
def CutsComponent (pattern : List Char) : Prop :=
  ∃ plain n rest, Plain plain ∧ pattern = plain ++ List.replicate (n + 2) '*' ++ rest ∧
    plain.getLast?.all (· == '/') = false ∧ rest.head?.all (· == '/') = true

/-- Whether a component is cut can be read off: the plain front ends inside it, two stars or more
follow, and behind them comes a slash or the end. -/
theorem cutsComponent_iff {pattern : List Char} :
    CutsComponent pattern ↔
      (pattern.takeWhile (!isSpecial ·)).getLast?.all (· == '/') = false ∧
        2 ≤ ((pattern.dropWhile (!isSpecial ·)).takeWhile (· == '*')).length ∧
          ((pattern.dropWhile (!isSpecial ·)).dropWhile (· == '*')).head?.all (· == '/') = true := by
  constructor
  · rintro ⟨plain, n, rest, hplain, rfl, hlast, hrest⟩
    have hspecial : ∀ c ∈ plain, (!isSpecial c) = true := by
      intro c hc
      rw [hplain c hc]
      rfl
    have hstar : (rest.takeWhile (· == '*')) = [] ∧ rest.dropWhile (· == '*') = rest := by
      cases rest with
      | nil => exact ⟨rfl, rfl⟩
      | cons c rest =>
        obtain rfl : c = '/' := beq_iff_eq.mp hrest
        exact ⟨rfl, rfl⟩
    have hstars : ∀ c ∈ List.replicate (n + 2) '*', (c == '*') = true := by
      intro c hc
      rw [List.eq_of_mem_replicate hc]
      rfl
    have htake : (List.replicate (n + 2) '*' ++ rest).takeWhile (!isSpecial ·) = [] := rfl
    have hdrop : (List.replicate (n + 2) '*' ++ rest).dropWhile (!isSpecial ·) =
        List.replicate (n + 2) '*' ++ rest := rfl
    rw [List.append_assoc, List.takeWhile_append_of_pos hspecial,
      List.dropWhile_append_of_pos hspecial, htake, hdrop, List.takeWhile_append_of_pos hstars,
      List.dropWhile_append_of_pos hstars, hstar.1, hstar.2, List.append_nil, List.append_nil,
      List.length_replicate]
    exact ⟨hlast, Nat.le_add_left .., hrest⟩
  · rintro ⟨hlast, hstars, hrest⟩
    obtain ⟨n, hn⟩ := Nat.exists_eq_add_of_le' hstars
    have hrun : (pattern.dropWhile (!isSpecial ·)).takeWhile (· == '*') =
        List.replicate (n + 2) '*' :=
      List.eq_replicate_iff.mpr ⟨hn, fun c hc => by simpa using List.mem_takeWhile_imp hc⟩
    refine ⟨_, n, _, fun c hc => ?_, ?_, hlast, hrest⟩
    · simpa using List.mem_takeWhile_imp hc
    · rw [← hrun, List.append_assoc, List.takeWhile_append_dropWhile,
        List.takeWhile_append_dropWhile]

instance (pattern : List Char) : Decidable (CutsComponent pattern) :=
  decidable_of_iff _ cutsComponent_iff.symm

/-- Every pattern is a run of stars, which may be empty, and what is behind it. -/
theorem exists_stars (pattern : List Char) :
    ∃ n rest, pattern = List.replicate n '*' ++ rest ∧ rest.head? ≠ some '*' := by
  induction pattern with
  | nil => exact ⟨0, [], rfl, nofun⟩
  | cons c pattern ih =>
    by_cases hc : c = '*'
    · obtain ⟨n, rest, rfl, hrest⟩ := ih
      exact ⟨n + 1, rest, by rw [hc, List.replicate_succ]; rfl, hrest⟩
    · exact ⟨0, c :: pattern, rfl, fun h => hc (Option.some.inj h)⟩

/-- Where no component is cut, what is behind a plain beginning is translated on its own, and starts
with two stars only behind whole components. -/
theorem toGlob_append (h : Plain plain) (hcut : separate = true → ¬ CutsComponent (plain ++ rest)) :
    toGlob separate (plain ++ rest) = plain ++ toGlob separate rest ∧
      (plain.getLast?.all (· == '/') = true ∨ ¬ ['*', '*'] <+: toGlob separate rest) := by
  obtain ⟨n, rest, rfl, hrest⟩ := exists_stars rest
  rw [toGlob, List.length_append, toGlobFrom_plain h, Option.or_none, toGlob]
  cases n with
  | zero =>
    rw [List.replicate_zero, List.nil_append]
    refine ⟨congrArg (plain ++ ·) (toGlobFrom_before (.inr hrest)), .inr ?_⟩
    rintro ⟨more, hmore⟩
    exact hrest (head?_of_toGlobFrom (by rw [← hmore]; rfl))
  | succ n =>
    have hlength : (List.replicate (n + 1) '*' ++ rest).length = n + rest.length + 1 := by
      simp only [List.length_append, List.length_replicate]
      omega
    rw [hlength, toGlobFrom_stars hrest, toGlobFrom_stars hrest]
    by_cases hwhole : plain.getLast?.all (· == '/') = true
    · refine ⟨?_, .inl hwhole⟩
      rw [starsGlob, starsGlob, hwhole]
      rfl
    · have hone (before : Option Char) : starsGlob separate n before rest.head? = ['*'] := by
        refine starsGlob_eq_one fun hseparate => ?_
        by_contra hboth
        simp only [not_or, Bool.not_eq_false] at hboth
        obtain ⟨k, rfl⟩ := Nat.exists_eq_succ_of_ne_zero hboth.1
        exact hcut hseparate ⟨plain, k, rest, h, (List.append_assoc ..).symm,
          Bool.eq_false_iff.mpr hwhole, hboth.2.2⟩
      rw [hone, hone]
      refine ⟨rfl, .inr ?_⟩
      rintro ⟨more, hmore⟩
      exact hrest (head?_of_toGlobFrom (congrArg List.head? (List.cons.inj hmore).2.symm))

end Wildcard

end GitRemote
