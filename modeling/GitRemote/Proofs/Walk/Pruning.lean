import GitRemote.Proofs.Pathspec.Exclusion
import GitRemote.Proofs.Walk.Coverage

/-!
# Pruning loses nothing

With a pathspec, a walk leaves out rounds by what it was told about the rounds before. What it
offers are the rounds whose own winner is interesting, up to one that ends the directory. No round
behind that one is interesting, save for directories of which an exclusion may leave something.
-/

namespace GitRemote

variable {σ ε : Type}

/-- How interesting a round is on its own: as its winner is. -/
def Round.interest (r : Round) (spec : Pathspec) (base : Bytes) : Interest :=
  match r.winner? with
  | none => .allNotInteresting
  | some w => spec.interest w base

/-- Whether a round is interesting on its own. -/
def Pathspec.wants (spec : Pathspec) (base : Bytes) (r : Round) : Bool :=
  (r.interest spec base).isInteresting

/-- Whether the winner of a round is a directory. -/
def Round.winnerIsDir (r : Round) : Bool := r.winner?.any Entry.isDir

/-- The winner of a name's round is an entry of that name. -/
theorem winner_gather {trees : List (List Placed)} {name : Bytes} {w : Entry}
    (h : (gather trees name).winner? = some w) :
    w.name = name ∧ ∃ t ∈ trees, ∃ p ∈ t, p.entry = w := by
  obtain ⟨p, hp, rfl⟩ := Option.map_eq_some_iff.mp h
  obtain ⟨slot, hslot, rfl⟩ := List.exists_of_findSome?_eq_some hp
  obtain ⟨t, ht, hf⟩ := List.mem_map.mp (List.mem_reverse.mp hslot)
  exact ⟨by simpa using List.find?_some hf, t, ht, p, List.mem_of_find?_eq_some hf, rfl⟩

/-- The names of a walk come in an order in which each is later than those before. -/
theorem pairwise_later {trees : List (List Placed)} (hs : ∀ t ∈ trees, Stored t) :
    (nameOrder trees).Pairwise Later := by
  refine ((pairwise_nameOrder trees hs).and (nodup_nameOrder trees)).imp ?_
  intro n m hnm
  obtain ⟨hcont, hne⟩ := hnm
  by_cases hlt : n < m
  · exact Or.inl hlt
  · exact Or.inr (hcont (Std.lt_of_le_of_ne (Std.not_lt.mp hlt) (Ne.symm hne)))

/-- The winner of each round has a plain name, and is later than the winners before. -/
theorem pairwise_levelRounds {trees : List (List Placed)} (hs : ∀ t ∈ trees, Stored t) :
    (levelRounds trees).Pairwise fun r r' => ∀ w w', r.winner? = some w → r'.winner? = some w' →
      PlainName w'.name ∧ Later w.name w'.name := by
  refine List.pairwise_map.mpr ((pairwise_later hs).imp ?_)
  intro n m hl w w' hw hw'
  obtain ⟨hname, _⟩ := winner_gather hw
  obtain ⟨hname', t, ht, p, hp, rfl⟩ := winner_gather hw'
  rw [hname, hname']
  exact ⟨hname' ▸ (hs t ht).plain p hp, hl⟩

/-- If all that follow a round of which everything is interesting are interesting as well, each
round is offered on its own account, up to one that ends the directory. -/
theorem offered_eq_filter {f : Frame} {spec : Pathspec} (hf : f.pathspec = some spec)
    {rs : List Round} {so : Interest}
    (hp : rs.Pairwise fun r r' => r.interest spec f.base = .allInteresting →
      spec.wants f.base r' = true)
    (hso : so = .allInteresting → ∀ r ∈ rs, spec.wants f.base r = true) :
    offered f so rs =
      (rs.takeWhile (·.interest spec f.base != .allNotInteresting)).filter (spec.wants f.base) := by
  induction rs generalizing so with
  | nil => rfl
  | cons r rs ih =>
    rw [List.pairwise_cons] at hp
    rw [offered]
    cases hw : r.winner? with
    | none =>
      have hown : r.interest spec f.base = .allNotInteresting := by simp only [Round.interest, hw]
      rw [List.takeWhile_cons_of_neg (by simp [hown]), List.filter_nil]
    | some w =>
      have hown : r.interest spec f.base = spec.interest w f.base := by
        simp only [Round.interest, hw]
      simp only
      by_cases hall : so = .allInteresting
      · -- Once everything is interesting, the winners are not asked any more.
        subst hall
        have hr := hso rfl r (List.mem_cons_self ..)
        have hne : r.interest spec f.base ≠ .allNotInteresting := by
          intro he
          rw [Pathspec.wants, he] at hr
          cases hr
        have hnarrow : narrow f f.base .allInteresting w = .allInteresting := by
          simp only [narrow, hf, ite_true]
        rw [hnarrow, List.takeWhile_cons_of_pos (by simpa using hne), List.filter_cons_of_pos hr,
          ← ih hp.2 fun _ r' hr' => hso rfl r' (List.mem_cons_of_mem r hr')]
        rfl
      · have hnarrow : narrow f f.base so w = r.interest spec f.base := by
          simp only [narrow, hf, hall, ite_false, hown]
        rw [hnarrow]
        by_cases hend : r.interest spec f.base = .allNotInteresting
        · rw [if_pos hend, List.takeWhile_cons_of_neg (by simp [hend]), List.filter_nil]
        · rw [if_neg hend, List.takeWhile_cons_of_pos (by simpa using hend)]
          have hrest := ih hp.2 fun he r' hr' => hp.1 r' hr' he
          by_cases hin : spec.wants f.base r = true
          · rw [if_pos (show (r.interest spec f.base).isInteresting = true from hin),
              List.filter_cons_of_pos hin, hrest]
          · rw [if_neg (show ¬ (r.interest spec f.base).isInteresting = true from hin),
              List.filter_cons_of_neg hin, hrest]

/-- Cutting a list off loses nothing if nothing is kept from the cut on. -/
theorem filter_takeWhile {α : Type} {keep go : α → Bool} {l : List α}
    (hcut : ∀ a ∈ l, go a = false → keep a = false)
    (hp : l.Pairwise fun a b => go a = false → keep b = false) :
    (l.takeWhile go).filter keep = l.filter keep := by
  induction l with
  | nil => rfl
  | cons a l ih =>
    rw [List.pairwise_cons] at hp
    cases hgo : go a with
    | true =>
      have hrest := ih (fun b hb => hcut b (List.mem_cons_of_mem a hb)) hp.2
      rw [List.takeWhile_cons_of_pos hgo, List.filter_cons, List.filter_cons, hrest]
    | false =>
      have hnone : ∀ b ∈ a :: l, ¬ keep b = true := by
        intro b hb
        rw [Bool.not_eq_true]
        rcases List.mem_cons.mp hb with rfl | hb'
        · exact hcut b (List.mem_cons_self ..) hgo
        · exact hp.1 b hb' hgo
      rw [List.takeWhile_cons_of_neg (by simp [hgo]), List.filter_nil,
        List.filter_eq_nil_iff.mpr hnone]

/-- What the round of one name says about those of later names. -/
theorem pairwise_interest {trees : List (List Placed)} (hs : ∀ t ∈ trees, Stored t)
    (spec : Pathspec) (base : Bytes) :
    (levelRounds trees).Pairwise fun r r' =>
      (r.interest spec base = .allInteresting → spec.wants base r' = true) ∧
      (r.interest spec base = .allNotInteresting →
        spec.hasExclude = false ∨ r'.winnerIsDir = false → spec.wants base r' = false) := by
  refine List.Pairwise.imp_of_mem ?_ (pairwise_levelRounds hs)
  intro r r' hr hr' hl
  obtain ⟨w, hw⟩ := exists_winner_of_mem_levelRounds hr
  obtain ⟨w', hw'⟩ := exists_winner_of_mem_levelRounds hr'
  obtain ⟨hplain, hlater⟩ := hl w w' hw hw'
  simp only [Pathspec.wants, Round.interest, hw, hw', Round.winnerIsDir, Option.any_some]
  exact ⟨fun h => Pathspec.interest_of_allInteresting h hplain hlater,
    fun h hd => Pathspec.interest_of_later h hplain hlater hd⟩

/-- The rounds that a walk offers of well-formed trees are those that are interesting on their own,
up to one that ends the directory. -/
theorem offered_levelRounds {f : Frame} {spec : Pathspec} (hf : f.pathspec = some spec)
    {trees : List (List Placed)} (hs : ∀ t ∈ trees, Stored t) :
    offered f .interesting (levelRounds trees) =
      ((levelRounds trees).takeWhile (·.interest spec f.base != .allNotInteresting)).filter
        (spec.wants f.base) :=
  offered_eq_filter hf ((pairwise_interest hs spec f.base).imp And.left) fun h => by cases h

/-- A walk over too many trees, or too deep down, shows nothing. -/
theorem walkedRounds_of_refused {lift : TreeError → ε} {f : Frame} {visit : Visitor σ ε}
    {cursors : List Cursor} (h : maxTrees < cursors.length ∨ f.options.maxDepth < f.depth) (s : σ)
    (patience : Nat) : walkedRounds lift f cursors visit s patience = [] := by
  rw [walkedRounds, walk]
  by_cases hn : maxTrees < cursors.length
  · rw [if_pos hn]
    rfl
  · rw [if_neg hn, if_pos (h.resolve_left hn)]
    rfl

/-- Stopping early loses no round that is interesting on its own, and that everything is interesting
adds none. Exclusions alone can make a walk pass over directories. -/
theorem pruned_walk_offers_interesting_rounds {lift : TreeError → ε} {f : Frame} {spec : Pathspec}
    {visit : Visitor σ ε} {cursors : List Cursor} (hw : ∀ c ∈ cursors, c.WellFormed)
    (hv : ∀ pathspec, visit.ConsumesAll { f with pathspec } cursors.length) (s : σ)
    (patience : Nat) :
    let limited := walkedRounds lift { f with pathspec := some spec } cursors visit s patience
    let whole := walkedRounds lift { f with pathspec := none } cursors visit s patience
    let wanted := whole.filter (spec.wants f.base)
    (spec.hasExclude = false → limited = wanted) ∧
      limited.filter (!·.winnerIsDir) = wanted.filter (!·.winnerIsDir) := by
  by_cases hr : maxTrees < cursors.length ∨ f.options.maxDepth < f.depth
  · simp only [walkedRounds_of_refused (f := { f with pathspec := some spec }) hr,
      walkedRounds_of_refused (f := { f with pathspec := none }) hr, List.filter_nil, implies_true,
      and_self]
  · have hst := Cursor.stored_pending hw
    obtain ⟨hn, hd⟩ := not_or.mp hr
    have hlimited : walkedRounds lift { f with pathspec := some spec } cursors visit s patience =
        ((levelRounds (cursors.map Cursor.pending)).takeWhile
          (·.interest spec f.base != .allNotInteresting)).filter (spec.wants f.base) := by
      rw [walkedRounds_eq (f := { f with pathspec := some spec }) hw (Nat.not_lt.mp hn)
        (Nat.not_lt.mp hd) (hv _), offered_levelRounds rfl hst]
      rfl
    have hwhole : walkedRounds lift { f with pathspec := none } cursors visit s patience =
        levelRounds (cursors.map Cursor.pending) := by
      rw [walkedRounds_eq (f := { f with pathspec := none }) hw (Nat.not_lt.mp hn)
        (Nat.not_lt.mp hd) (hv _),
        offered_of_pathspec_none rfl fun r hr => exists_winner_of_mem_levelRounds hr]
    have hend {r : Round} (h : (r.interest spec f.base != .allNotInteresting) = false) :
        r.interest spec f.base = .allNotInteresting := by simpa using h
    have hunwanted {r : Round} (h : r.interest spec f.base = .allNotInteresting) :
        spec.wants f.base r = false := by
      rw [Pathspec.wants, h]
      rfl
    have hpair := pairwise_interest hst spec f.base
    simp only [hlimited, hwhole, List.filter_filter]
    constructor
    · intro hex
      refine filter_takeWhile (fun r _ hgo => hunwanted (hend hgo)) (hpair.imp ?_)
      exact fun h hgo => h.2 (hend hgo) (Or.inl hex)
    · refine filter_takeWhile (fun r _ hgo => ?_) (hpair.imp ?_)
      · rw [hunwanted (hend hgo), Bool.and_false]
      · intro r r' h hgo
        cases hdir : r'.winnerIsDir with
        | true => rfl
        | false => rw [h.2 (hend hgo) (Or.inr hdir), Bool.and_false]

/-- The file `t-2` only. -/
def onlyFile : Pathspec := .ofItems [.ofPattern [0x74, 0x2D, 0x32] {}]

/-- All names that start with `t`, but for `t` itself. -/
def longerNames : Pathspec :=
  .ofItems [.ofPattern [0x74, 0x2A] {}, .ofPattern [0x74] { exclude := true }]

/-- The walk over a name that hides behind another one, for a pathspec without an exclusion and for one
with. Both offer the file. -/
theorem pruned_walk_offers_interesting_rounds_lookahead :
    let rounds (spec : Option Pathspec) :=
      walkedRounds id { pathspec := spec, options := { showAllErrors := true } } lookaheadTrees
        failsOnce false 0
    let wanted (spec : Pathspec) := (rounds none).filter (spec.wants [])
    let file := gather (lookaheadTrees.map Cursor.pending) [0x74, 0x2D, 0x32]
    (onlyFile.hasExclude = false ∧ rounds (some onlyFile) = wanted onlyFile ∧
      wanted onlyFile = [file]) ∧
    longerNames.hasExclude = true ∧
      (rounds (some longerNames)).filter (!·.winnerIsDir) =
        (wanted longerNames).filter (!·.winnerIsDir) ∧
      (wanted longerNames).filter (!·.winnerIsDir) = [file] := by
  have hconsumes (pathspec : Option Pathspec) :
      failsOnce.ConsumesAll { pathspec, options := { showAllErrors := true } } 2 :=
    consumesAll_failsOnce rfl 2
  refine ⟨⟨by decide +kernel, ?_, by decide +kernel⟩, by decide +kernel, ?_, by decide +kernel⟩
  · exact (pruned_walk_offers_interesting_rounds (f := { options := { showAllErrors := true } })
      wellFormed_lookaheadTrees hconsumes false 0).1 (by decide +kernel)
  · exact (pruned_walk_offers_interesting_rounds (f := { options := { showAllErrors := true } })
      wellFormed_lookaheadTrees hconsumes false 0).2

end GitRemote
