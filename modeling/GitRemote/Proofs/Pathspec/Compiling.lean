import GitRemote.Proofs.Pathspec.Globbing
import Mathlib.Data.Option.Basic

/-!
# Globs behind other tokens

What is compiled behind other tokens matches as if it were compiled on its own, although a second pair of
stars is left out there sooner.
-/

namespace GitRemote.Glob

variable {fuel : Nat} {before : Option Char} {front done done' : List Token}
  {cs pattern rest : List Char} {t : Token}

/-- The character before a place is the last one of the rest, or else the first. -/
theorem getLast?_cons_or (c : Char) (cs : List Char) (before : Option Char) :
    (c :: cs).getLast?.or before = cs.getLast?.or (some c) := by
  rw [List.getLast?_cons]
  cases cs.getLast? <;> rfl

/-! ### Single tokens -/

/-- Characters that mean nothing else are tokens. -/
theorem tokens?_chars (h : ∀ c ∈ cs, c ≠ '?' ∧ c ≠ '*' ∧ c ≠ '[') :
    tokens? (cs.length + fuel) before done (cs ++ rest) =
      tokens? fuel (cs.getLast?.or before) (done ++ cs.map .char) rest := by
  induction cs generalizing before done with
  | nil => simp
  | cons c cs ih =>
    rw [List.forall_mem_cons] at h
    obtain ⟨⟨hany, hstar, hset⟩, hcs⟩ := h
    rw [List.length_cons, Nat.add_right_comm, List.cons_append, tokens?, ih hcs, getLast?_cons_or,
      List.map_cons, List.append_assoc, List.singleton_append]
    · exact hany
    · exact hstar
    · exact hset

/-- Where no star follows, no star is run over. -/
theorem starRun_eq_zero (h : rest.head? ≠ some '*') : starRun rest = 0 := by
  cases rest with
  | nil => rfl
  | cons c rest =>
    rw [starRun]
    exact fun _ hc => h (congrArg some (List.cons.inj hc).1)

/-- One star is a token whatever is around it. -/
theorem tokens?_star (h : rest.head? ≠ some '*') :
    tokens? (fuel + 1) before done ('*' :: rest) =
      tokens? fuel (some '*') (done ++ [.anySequence]) rest := by
  rw [tokens?, starRun_eq_zero h]
  rfl

/-- The character in front matters only to two stars, and only if it is a slash. -/
theorem tokens?_before {before' : Option Char}
    (h : before.all (· == '/') = before'.all (· == '/') ∨ ¬ ['*', '*'] <+: pattern) :
    tokens? fuel before done pattern = tokens? fuel before' done pattern := by
  by_cases hstar : ∃ rest, pattern = '*' :: rest
  · obtain ⟨rest, rfl⟩ := hstar
    cases fuel with
    | zero => rfl
    | succ fuel =>
      rcases h with hbefore | hone
      · rw [tokens?, tokens?, hbefore]
      · have hhead : rest.head? ≠ some '*' := by
          intro hhead
          obtain ⟨more, rfl⟩ := List.head?_eq_some_iff.mp hhead
          exact hone ⟨more, rfl⟩
        rw [tokens?_star hhead, tokens?_star hhead]
  · fun_cases tokens? fuel before done pattern with
    | case1 => cases fuel <;> rfl
    | case2 _ _ _ hnil => rw [tokens?.eq_2 _ _ _ hnil]
    | case3 => rfl
    | case4 | case5 | case6 | case7 | case8 | case9 => exact absurd ⟨_, rfl⟩ hstar
    | case10 fuel before done rest t rest' hset => rw [tokens?, hset]
    | case11 fuel before done rest hset => rw [tokens?, hset]
    | case12 fuel before done c rest hany hstar hset => rw [tokens?] <;> assumption

/-- A text is split before the first bracket that counts. -/
theorem untilBracket_eq_some_iff {least : Nat} {set : List Char} :
    untilBracket least cs = some (set, rest) ↔
      cs = set ++ ']' :: rest ∧ least ≤ set.length ∧ ']' ∉ set.drop least := by
  rw [untilBracket]
  constructor
  · intro h
    cases hidx : (cs.drop least).idxOf? ']' with
    | none =>
      rw [hidx] at h
      cases h
    | some n =>
      rw [hidx] at h
      obtain ⟨rfl, rfl⟩ := Prod.mk.inj (Option.some.inj h)
      obtain ⟨hn, hget, hbefore⟩ := List.idxOf?_eq_some_iff.mp hidx
      rw [List.getElem_drop] at hget
      rw [List.length_drop] at hn
      refine ⟨?_, ?_, ?_⟩
      · rw [← hget, List.getElem_cons_drop, List.take_append_drop]
      · rw [List.length_take]
        omega
      · rw [List.drop_take, Nat.add_sub_cancel_left]
        intro hmem
        obtain ⟨j, hj, hclosing⟩ := List.mem_take_iff_getElem.mp hmem
        exact hbefore j (by omega) hclosing
  · rintro ⟨rfl, hleast, hfree⟩
    have hidx : ((set ++ ']' :: rest).drop least).idxOf? ']' = some (set.length - least) := by
      rw [List.drop_append_of_le_length hleast, List.idxOf?_eq_some_iff]
      refine ⟨by simp, by simp, fun j hj hget => ?_⟩
      have hjlen : j < (set.drop least).length := by simpa using hj
      rw [List.getElem_append_left hjlen] at hget
      exact hfree (hget ▸ List.getElem_mem hjlen)
    have hend : least + (set.length - least) = set.length := Nat.add_sub_cancel' hleast
    rw [hidx]
    dsimp only
    rw [hend, List.take_left, ← List.drop_drop, List.drop_left]
    rfl

/-- A set is read up to its closing bracket, whatever is behind that. -/
theorem exists_of_bracket? (h : bracket? cs = some (t, rest)) :
    ∃ body, cs = body ++ ']' :: rest ∧
      ∀ rest', bracket? (body ++ ']' :: rest') = some (t, rest') := by
  fun_cases bracket? cs with
  | case1 cs hlength =>
    rw [bracket?, if_pos hlength, Option.map_eq_some_iff] at h
    obtain ⟨⟨set, rest⟩, hset, heq⟩ := h
    obtain ⟨rfl, rfl⟩ := Prod.mk.inj heq
    obtain ⟨rfl, hleast, hfree⟩ := untilBracket_eq_some_iff.mp hset
    refine ⟨'!' :: set, rfl, fun rest' => ?_⟩
    rw [List.cons_append, bracket?, if_pos, untilBracket_eq_some_iff.mpr ⟨rfl, hleast, hfree⟩]
    · rfl
    · simp only [List.length_cons, List.length_append]
      omega
  | case2 cs hlength =>
    rw [bracket?, if_neg hlength] at h
    cases h
  | case3 cs hlength =>
    rename_i hsign
    rw [bracket?, if_pos hlength, Option.map_eq_some_iff] at h
    · obtain ⟨⟨set, rest⟩, hset, heq⟩ := h
      obtain ⟨rfl, rfl⟩ := Prod.mk.inj heq
      obtain ⟨rfl, hleast, hfree⟩ := untilBracket_eq_some_iff.mp hset
      refine ⟨set, rfl, fun rest' => ?_⟩
      rw [bracket?, if_pos, untilBracket_eq_some_iff.mpr ⟨rfl, hleast, hfree⟩]
      · rfl
      · simp only [List.length_cons, List.length_append]
        omega
      · obtain ⟨c, set, rfl⟩ := List.exists_cons_of_length_pos hleast
        intro rest'' hcons
        exact hsign (set ++ ']' :: rest) (by rw [(List.cons.inj hcons).1]; rfl)
    · exact hsign
  | case4 cs hlength =>
    rename_i hsign
    rw [bracket?, if_neg hlength] at h
    · cases h
    · exact hsign

/-- A set is read the same with more behind it. -/
theorem bracket?_append (h : bracket? cs = some (t, rest)) (more : List Char) :
    bracket? (cs ++ more) = some (t, rest ++ more) := by
  obtain ⟨body, rfl, hbody⟩ := exists_of_bracket? h
  rw [List.append_assoc]
  exact hbody (rest ++ more)

theorem prefix_pushComponents (done : List Token) : done <+: pushComponents done := by
  rw [pushComponents]
  split
  · exact List.prefix_rfl
  · exact List.prefix_append ..

/-- A second pair of stars that is left out is not missed. -/
theorem run_pushComponents (o : Options) (done later : List Token) :
    run o (pushComponents done ++ later) = run o (done ++ .anyComponents :: later) := by
  rw [pushComponents]
  split_ifs with hpush
  · rw [Bool.and_eq_true, beq_iff_eq] at hpush
    obtain ⟨front, rfl⟩ := List.getLast?_eq_some_iff.mp hpush.2
    rw [List.append_assoc, List.append_assoc]
    exact (run_append_congr (run_components_twice later) front).symm
  · rw [List.append_assoc]
    rfl

/-- Tokens are only ever added. -/
theorem prefix_of_tokens? {tokens : List Token} (h : tokens? fuel before done pattern = some tokens) :
    done <+: tokens := by
  fun_induction tokens? fuel before done pattern with
  | case1 => exact Option.some.inj h ▸ List.prefix_rfl
  | case2 | case7 | case8 | case9 | case11 => cases h
  | case3 fuel before done rest ih => exact (List.prefix_append ..).trans (ih h)
  | case4 fuel before done rest hrun ih => exact (List.prefix_append ..).trans (ih h)
  | case5 => exact Option.some.inj h ▸ prefix_pushComponents _
  | case6 fuel before done rest hrun hbefore rest' hrest ih =>
    exact (prefix_pushComponents _).trans (ih h)
  | case10 fuel before done rest t rest' hset ih => exact (List.prefix_append ..).trans (ih h)
  | case12 fuel before done c rest hany hstar hset ih =>
    exact (List.prefix_append ..).trans (ih h)

/-! ### Behind other tokens -/

/-- What became of tokens in a pattern of their own, and behind others: one of two pairs of stars may
have been left out. -/
def Shifted (front behind alone : List Token) : Prop :=
  behind = front ++ alone ∨
    ∃ more, behind = front ++ .anyComponents :: more ∧
      alone = .anyComponents :: .anyComponents :: more

/-- Two stars that were left out are not missed. -/
theorem Shifted.run_eq (h : Shifted front done done') (o : Options) :
    run o done = run o (front ++ done') := by
  rcases h with rfl | ⟨more, rfl, rfl⟩
  · rfl
  · exact (run_append_congr (run_components_twice more) front).symm

/-- One more token on both sides changes nothing about the stars. -/
theorem Shifted.snoc (h : Shifted front done done') (t : Token) :
    Shifted front (done ++ [t]) (done' ++ [t]) := by
  rcases h with rfl | ⟨more, rfl, rfl⟩
  · exact .inl (List.append_assoc ..)
  · exact .inr ⟨more ++ [t], by simp, by simp⟩

/-- Behind other tokens, a second pair of stars is left out. -/
theorem pushComponents_append (hne : front ≠ []) (hlast : front.getLast? ≠ some .anyComponents)
    (ts : List Token) :
    pushComponents (front ++ ts) =
      front ++ if ts.getLast? = some .anyComponents then ts else ts ++ [.anyComponents] := by
  rw [pushComponents, List.getLast?_append]
  split_ifs with hpush hend hend
  · rfl
  · rw [Bool.and_eq_true, beq_iff_eq] at hpush
    cases hts : ts.getLast? with
    | none =>
      rw [hts] at hpush
      exact absurd hpush.2 hlast
    | some t =>
      rw [hts] at hpush hend
      exact absurd hpush.2 hend
  · have hlength : 2 ≤ (front ++ ts).length := by
      have hfront := List.length_pos_iff.mpr hne
      have hts : 0 < ts.length := List.length_pos_of_mem (List.mem_of_getLast? hend)
      rw [List.length_append]
      omega
    rw [hend] at hpush
    exact absurd (by simpa using hlength) hpush
  · exact List.append_assoc ..

/-- Two more stars on both sides are added to both or left out behind the others alone. -/
theorem Shifted.pushComponents (hne : front ≠ []) (hlast : front.getLast? ≠ some .anyComponents)
    (h : Shifted front done done') :
    Shifted front (pushComponents done) (pushComponents done') := by
  rcases h with rfl | ⟨more, rfl, rfl⟩
  · rw [pushComponents_append hne hlast]
    by_cases hend : done'.getLast? = some .anyComponents
    · rw [if_pos hend]
      match done', hend with
      | [t], hend =>
        obtain rfl : t = .anyComponents := Option.some.inj hend
        exact .inr ⟨[], rfl, rfl⟩
      | t :: u :: rest, hend =>
        left
        rw [Glob.pushComponents, if_pos (by simpa using hend)]
    · left
      rw [if_neg hend, Glob.pushComponents, if_neg (by simp [hend])]
  · have hend : (.anyComponents :: .anyComponents :: more : List Token).getLast? =
        (.anyComponents :: more).getLast? := List.getLast?_cons_cons ..
    rw [pushComponents_append hne hlast, Glob.pushComponents, hend]
    by_cases hmore : (.anyComponents :: more : List Token).getLast? = some .anyComponents
    · rw [if_pos hmore, if_pos (by simp [hmore])]
      exact .inr ⟨more, rfl, rfl⟩
    · rw [if_neg hmore, if_neg (by simp [hmore])]
      exact .inr ⟨more ++ [.anyComponents], rfl, rfl⟩

/-- Tokens behind others are those of the pattern alone, shifted. -/
theorem tokens?_shifted (hne : front ≠ []) (hlast : front.getLast? ≠ some .anyComponents)
    (h : Shifted front done done') :
    Option.Rel (Shifted front) (tokens? fuel before done pattern)
      (tokens? fuel before done' pattern) := by
  fun_induction tokens? fuel before done pattern generalizing done' with
  | case1 fuel =>
    cases fuel <;> exact .some h
  | case2 =>
    rw [tokens?]
    exact .none
    assumption
  | case3 fuel before done rest ih => exact ih (h.snoc _)
  | case4 fuel before done rest hrun ih =>
    rw [tokens?, hrun]
    exact ih (h.snoc _)
  | case5 fuel before done rest hrun hbefore hrest =>
    rw [tokens?, hrun, hrest]
    simp only [hbefore]
    exact .some (h.pushComponents hne hlast)
  | case6 fuel before done rest hrun hbefore rest' hrest ih =>
    rw [tokens?, hrun, hrest]
    simp only [hbefore]
    exact ih (h.pushComponents hne hlast)
  | case7 fuel before done rest hrun hbefore hnil hslash =>
    rw [tokens?, hrun]
    simp only [hbefore]
    exact .none
  | case8 fuel before done rest hrun hbefore =>
    rw [tokens?, hrun]
    simp only [hbefore]
    exact .none
  | case9 fuel before done rest hzero hone =>
    rw [tokens?]
    split
    · exact absurd ‹_› hzero
    · exact absurd ‹_› hone
    · exact .none
  | case10 fuel before done rest t rest' hset ih =>
    rw [tokens?, hset]
    exact ih (h.snoc t)
  | case11 fuel before done rest hset =>
    rw [tokens?, hset]
    exact .none
  | case12 fuel before done c rest hany hstar hset ih =>
    rw [tokens?]
    · exact ih (h.snoc _)
    all_goals assumption

/-- What is compiled behind other tokens matches as it does on its own. -/
theorem compile?_behind (hne : front ≠ []) (hlast : front.getLast? ≠ some .anyComponents)
    (h : before.all (· == '/') = true ∨ ¬ ['*', '*'] <+: pattern) :
    Option.Rel (fun behind alone => ∀ o, run o behind = run o (front ++ alone))
      (tokens? pattern.length before front pattern) (compile? pattern) := by
  have hshifted : Option.Rel (Shifted front) (tokens? pattern.length none front pattern)
      (compile? pattern) := tokens?_shifted hne hlast (.inl (List.append_nil _).symm)
  have hbefore : tokens? pattern.length before front pattern =
      tokens? pattern.length none front pattern := tokens?_before h
  rw [hbefore]
  generalize tokens? pattern.length none front pattern = behind, compile? pattern = alone
    at hshifted
  cases hshifted with
  | some hrel => exact .some fun o => hrel.run_eq o
  | none => exact .none

end GitRemote.Glob
