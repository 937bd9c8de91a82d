import GitRemote.Proofs.Walk.Replay

/-!
# What is consumed and what comes again

Without a pathspec, what a visitor leaves is handed to it again before a walk can succeed. What it
consumes is not handed to it again while nothing in front is left. Behind an entry that is left, a
consumed entry does come again with its name, which another tree's entry that was left brings back.
-/

namespace GitRemote

variable {σ ε : Type}

/-- From the first entry that is not gone on, there is what is not gone and what stands behind it.
-/
theorem mem_dropWhile_iff {gone : Placed → Bool} {tree : List Placed} {p : Placed} :
    p ∈ tree.dropWhile gone ↔
      ∃ q, gone q = false ∧ (q = p ∧ p ∈ tree ∨ [q, p].Sublist tree) := by
  induction tree with
  | nil => simp
  | cons a tree ih =>
    cases ha : gone a with
    | true =>
      rw [List.dropWhile_cons_of_pos ha, ih]
      refine exists_congr fun q => and_congr_right fun hq => ?_
      have hqa : q ≠ a := by
        rintro rfl
        rw [ha] at hq
        cases hq
      constructor
      · rintro (⟨rfl, hp⟩ | hsub)
        · exact .inl ⟨rfl, List.mem_cons_of_mem a hp⟩
        · exact .inr (hsub.cons a)
      · rintro (⟨rfl, hp⟩ | hsub)
        · exact .inl ⟨rfl, (List.mem_cons.mp hp).resolve_left hqa⟩
        · rcases List.sublist_cons_iff.mp hsub with hsub | ⟨_, heq, _⟩
          · exact .inr hsub
          · exact absurd (List.cons.inj heq).1 hqa
    | false =>
      rw [List.dropWhile_cons_of_neg (by simp [ha])]
      constructor
      · intro hp
        rcases List.mem_cons.mp hp with rfl | hp
        · exact ⟨p, ha, .inl ⟨rfl, List.mem_cons_self ..⟩⟩
        · exact ⟨a, ha, .inr ((List.singleton_sublist.mpr hp).cons_cons a)⟩
      · rintro ⟨q, _, ⟨_, hp⟩ | hsub⟩
        · exact hp
        · exact hsub.subset (by simp)

/-- The entry of the tree at a position is ahead of the walk, be it consumed or not. -/
def IsAhead (trees : List (List Placed)) (log : List (WalkStep ε)) (i : Nat) (p : Placed) : Prop :=
  ∃ tree, trees[i]? = some tree ∧ p ∈ tree.dropWhile (takenIn log i)

/-- The round of a step is that of a name. -/
def WalkStep.Offers (w : WalkStep ε) (name : Bytes) : Prop :=
  ∃ i p, w.shows i p = true ∧ p.entry.name = name

section

variable {trees : List (List Placed)} {log : List (WalkStep ε)} {k k' i : Nat}
  {w w' : WalkStep ε} {p : Placed}

/-- What is ahead later was ahead before. -/
theorem IsAhead.of_take (h : IsAhead trees (log.take k') i p) (hk : k ≤ k') :
    IsAhead trees (log.take k) i p := by
  obtain ⟨tree, ht, hp⟩ := h
  refine ⟨tree, ht, mem_dropWhile_iff.mpr ?_⟩
  obtain ⟨q, hq, hpos⟩ := mem_dropWhile_iff.mp hp
  refine ⟨q, ?_, hpos⟩
  rw [takenIn, List.any_eq_false] at hq ⊢
  exact fun v hv => hq v ((List.take_prefix_take_left hk).subset hv)

/-- What a step took is taken from then on. -/
theorem takenIn_of_takes (hk : log[k]? = some w) (hlt : k < k') (ht : w.takes i p = true) :
    takenIn (log.take k') i p = true := by
  rw [takenIn, List.any_eq_true]
  exact ⟨w, List.mem_of_getElem? ((List.getElem?_take_of_lt hlt).trans hk), ht⟩

/-- A round of a log shows what is ahead of its name, and some of that was not consumed before. -/
theorem Replays.shows_iff (hlog : Replays trees log) (hs : ∀ t ∈ trees, Stored t)
    (hk : log[k]? = some w) :
    ∃ n, (∀ i p, w.shows i p = true ↔ p.entry.name = n ∧ IsAhead trees (log.take k) i p) ∧
      ∃ i p, w.shows i p = true ∧ takenIn (log.take k) i p = false := by
  obtain ⟨n, hn, hw⟩ := Option.map_eq_some_iff.mp (hlog k w hk)
  have hshows (i : Nat) (p : Placed) :
      w.shows i p = true ↔ p.entry.name = n ∧ IsAhead trees (log.take k) i p := by
    rw [WalkStep.shows_iff, ← hw, gather, List.getElem?_map, getElem?_ahead, Option.map_map,
      Option.map_eq_some_iff, IsAhead, and_comm, exists_and_right.symm]
    refine exists_congr fun tree => ?_
    rw [and_assoc]
    refine and_congr_right fun ht => ?_
    have hstored := (hs tree (List.mem_of_getElem? ht)).sublist
      (List.dropWhile_sublist (takenIn (log.take k) i))
    exact hstored.find?_eq_some
  refine ⟨n, hshows, ?_⟩
  obtain ⟨front, hfront, hhead⟩ := List.mem_filterMap.mp (leastName_eq_some hn).1
  obtain ⟨p, hp, hname⟩ := Option.map_eq_some_iff.mp hhead
  obtain ⟨i, hi⟩ := List.mem_iff_getElem?.mp hfront
  rw [getElem?_ahead] at hi
  obtain ⟨tree, ht, rfl⟩ := Option.map_eq_some_iff.mp hi
  refine ⟨i, p, (hshows i p).mpr ⟨hname, tree, ht, List.mem_of_mem_head? hp⟩, ?_⟩
  have hnot := List.head?_dropWhile_not (takenIn (log.take k) i) tree
  rw [hp] at hnot
  simpa using hnot

/-- A consumed entry comes again just if its name does and an entry in front of it is left. -/
theorem Replays.shows_again_iff (hlog : Replays trees log) (hs : ∀ t ∈ trees, Stored t)
    (hk : log[k]? = some w) (hk' : log[k']? = some w') (hlt : k < k') (ht : w.takes i p = true) :
    w'.shows i p = true ↔ w'.Offers p.entry.name ∧
      ∃ tree q, trees[i]? = some tree ∧ [q, p].Sublist tree ∧
        takenIn (log.take k') i q = false := by
  obtain ⟨n, hshows, _⟩ := hlog.shows_iff hs hk'
  have hgone := takenIn_of_takes hk hlt ht
  constructor
  · intro h
    obtain ⟨_, tree, htree, hp⟩ := (hshows i p).mp h
    obtain ⟨q, hq, ⟨rfl, _⟩ | hsub⟩ := mem_dropWhile_iff.mp hp
    · rw [hgone] at hq
      cases hq
    · exact ⟨⟨i, p, h, rfl⟩, tree, q, htree, hsub, hq⟩
  · rintro ⟨⟨j, r, hr, hname⟩, tree, q, htree, hsub, hq⟩
    refine (hshows i p).mpr ⟨hname.symm.trans ((hshows j r).mp hr).1, tree, htree, ?_⟩
    exact mem_dropWhile_iff.mpr ⟨q, hq, .inr hsub⟩

/-- A consumed entry comes again only with another tree's entry that its round left. -/
theorem Replays.left_of_shown_again (hlog : Replays trees log) (hs : ∀ t ∈ trees, Stored t)
    (hk : log[k]? = some w) (hk' : log[k']? = some w') (hlt : k < k') (ht : w.takes i p = true)
    (h : w'.shows i p = true) :
    ∃ j r, j ≠ i ∧ r.entry.name = p.entry.name ∧ w.shows j r = true ∧ w.takes j r = false := by
  obtain ⟨n, hshows, _⟩ := hlog.shows_iff hs hk
  obtain ⟨n', hshows', j, r, hr, hleft⟩ := hlog.shows_iff hs hk'
  obtain ⟨hrn, hahead⟩ := (hshows' j r).mp hr
  -- What the later round has at a front was ahead before, so the earlier round showed it.
  have hname : r.entry.name = p.entry.name := hrn.trans ((hshows' i p).mp h).1.symm
  have hpn : p.entry.name = n := ((hshows i p).mp (WalkStep.shows_of_takes ht)).1
  have hr' : w.shows j r = true :=
    (hshows j r).mpr ⟨hname.trans hpn, hahead.of_take (Nat.le_of_lt hlt)⟩
  have hnot : w.takes j r = false := by
    rw [← Bool.not_eq_true]
    intro htr
    rw [takenIn_of_takes hk hlt htr] at hleft
    cases hleft
  refine ⟨j, r, ?_, hname, hr', hnot⟩
  rintro rfl
  have hslot := WalkStep.shows_iff.mp (WalkStep.shows_of_takes ht)
  rw [WalkStep.shows_iff.mp hr', Option.some.injEq, Option.some.injEq] at hslot
  rw [hslot, ht] at hnot
  cases hnot

/-- Where no round is to come, every entry was consumed. -/
theorem takenIn_of_roundAfter_eq_none (hend : roundAfter trees log = none) {tree : List Placed}
    (ht : trees[i]? = some tree) (hp : p ∈ tree) : takenIn log i p = true := by
  rw [← Bool.not_eq_false]
  intro hleft
  have hahead : (ahead trees log)[i]? = some (tree.dropWhile (takenIn log i)) := by
    rw [getElem?_ahead, ht, Option.map_some]
  have hmem : p ∈ tree.dropWhile (takenIn log i) :=
    mem_dropWhile_iff.mpr ⟨p, hleft, .inl ⟨rfl, hp⟩⟩
  obtain ⟨q, hq⟩ := Option.isSome_iff_exists.mp (List.isSome_head?.mpr (List.ne_nil_of_mem hmem))
  have hfront : q.entry.name ∈ frontNames (ahead trees log) :=
    List.mem_filterMap.mpr ⟨_, List.mem_of_getElem? hahead, by rw [hq, Option.map_some]⟩
  rw [roundAfter, Option.map_eq_none_iff, leastName_eq_none] at hend
  rw [hend] at hfront
  cases hfront

/-- What is left comes again before nothing is left. -/
theorem Replays.shown_again_of_left (hlog : Replays trees log) (hs : ∀ t ∈ trees, Stored t)
    (hend : roundAfter trees log = none) (hk : log[k]? = some w) (h : w.shows i p = true)
    (hleft : w.takes i p = false) (hbefore : takenIn (log.take k) i p = false) :
    ∃ k' w', k < k' ∧ log[k']? = some w' ∧ w'.shows i p = true := by
  obtain ⟨_, hshows, _⟩ := hlog.shows_iff hs hk
  obtain ⟨_, tree, htree, hp⟩ := (hshows i p).mp h
  have htaken := takenIn_of_roundAfter_eq_none hend htree ((List.dropWhile_sublist _).subset hp)
  obtain ⟨w', hmem, ht⟩ := List.any_eq_true.mp htaken
  obtain ⟨k', hk'⟩ := List.mem_iff_getElem?.mp hmem
  refine ⟨k', w', ?_, hk', WalkStep.shows_of_takes ht⟩
  rcases Nat.lt_trichotomy k k' with hlt | rfl | hgt
  · exact hlt
  · obtain rfl := Option.some.inj (hk.symm.trans hk')
    rw [hleft] at ht
    cases ht
  · rw [takenIn_of_takes hk' hgt ht] at hbefore
    cases hbefore

end

/-- Without a pathspec a consumed entry is handed to the visitor again just if its name is and an
entry in front of it is left. Then the round in which it was consumed left another tree's entry of
that name. An entry that was not consumed is handed to the visitor again before the walk can
succeed. -/
theorem consumed_entry_returns_only_behind_left_one {lift : TreeError → ε} {f : Frame}
    {visit : Visitor σ ε} {cursors : List Cursor} (hw : ∀ c ∈ cursors, c.WellFormed)
    (hp : f.pathspec = none) (s : σ) (patience : Nat) :
    (∀ (k k' i : Nat) (w w' : WalkStep ε) (p : Placed), k < k' →
      (walkLog lift f cursors visit s patience)[k]? = some w →
      (walkLog lift f cursors visit s patience)[k']? = some w' →
      w.takes i p = true →
        (w'.shows i p = true ↔ w'.Offers p.entry.name ∧
          ∃ c q, cursors[i]? = some c ∧ [q, p].Sublist c.pending ∧
            takenIn ((walkLog lift f cursors visit s patience).take k') i q = false) ∧
        (w'.shows i p = true →
          ∃ j r, j ≠ i ∧ r.entry.name = p.entry.name ∧ w.shows j r = true ∧
            w.takes j r = false)) ∧
    ((walk lift f cursors visit s patience).1 = .ok () →
      ∀ (k i : Nat) (w : WalkStep ε) (p : Placed),
        (walkLog lift f cursors visit s patience)[k]? = some w →
        w.shows i p = true → w.takes i p = false →
        takenIn ((walkLog lift f cursors visit s patience).take k) i p = false →
          ∃ k' w', k < k' ∧ (walkLog lift f cursors visit s patience)[k']? = some w' ∧
            w'.shows i p = true) := by
  have hs := Cursor.stored_pending hw
  obtain ⟨hlog, hend⟩ : Replays _ (walkLog lift f cursors visit s patience) ∧ _ :=
    walkLog_replays hw hp s patience
  constructor
  · intro k k' i w w' p hlt hk hk' ht
    refine ⟨?_, hlog.left_of_shown_again hs hk hk' hlt ht⟩
    rw [hlog.shows_again_iff hs hk hk' hlt ht]
    refine and_congr_right fun _ => ?_
    constructor
    · rintro ⟨_, q, hc, hq⟩
      rw [List.getElem?_map, Option.map_eq_some_iff] at hc
      obtain ⟨c, hc, rfl⟩ := hc
      exact ⟨c, q, hc, hq⟩
    · rintro ⟨c, q, hc, hq⟩
      exact ⟨c.pending, q, by rw [List.getElem?_map, hc, Option.map_some], hq⟩
  · intro hok k i w p hk h hleft hbefore
    exact hlog.shown_again_of_left hs (hend hok) hk h hleft hbefore

/-- Consumes just the first tree's entry of the first round, and all of the others. -/
def leavesSecondOnce : Visitor Bool TreeError :=
  fun _ r later => (.ok (if later then r.mask else 1), true)

/-- The round of the directory `t` in both trees, with an answer. -/
def twinStep (used : Nat) : WalkStep TreeError :=
  (gather (lookaheadTrees.map Cursor.pending) [0x74], .ok used)

/-- The directory `t` of the first tree, behind its file, and that of the second tree. -/
def twins : List Placed := [⟨31, .directory [0x74] 2⟩, ⟨0, .directory [0x74] 3⟩]

/-- Both directories come twice, and then the file. -/
theorem walkLog_lookahead :
    walkLog id {} lookaheadTrees leavesSecondOnce false 0 =
      [twinStep 1, twinStep 3,
        (gather (lookaheadTrees.map Cursor.pending) [0x74, 0x2D, 0x32], .ok 1)] := by
  decide +kernel

theorem walk_leavesSecondOnce :
    (walk id {} lookaheadTrees leavesSecondOnce false 0).1 = .ok () := by
  decide +kernel

/-- The first directory, consumed behind the file, comes again with the second one, which was left;
and that one comes again as it should. -/
theorem consumed_entry_returns_only_behind_left_one_lookahead :
    ((twinStep 3).Offers twins[0].entry.name ∧
      ∃ c q, lookaheadTrees[0]? = some c ∧ [q, twins[0]].Sublist c.pending ∧
        takenIn ((walkLog id {} lookaheadTrees leavesSecondOnce false 0).take 1) 0 q = false) ∧
    (∃ j r, j ≠ 0 ∧ r.entry.name = twins[0].entry.name ∧ (twinStep 1).shows j r = true ∧
      (twinStep 1).takes j r = false) ∧
    ∃ k' w', 0 < k' ∧ (walkLog id {} lookaheadTrees leavesSecondOnce false 0)[k']? = some w' ∧
      w'.shows 1 twins[1] = true := by
  have h := @consumed_entry_returns_only_behind_left_one Bool TreeError id {} leavesSecondOnce
    lookaheadTrees wellFormed_lookaheadTrees rfl false 0
  have hfirst : (walkLog id {} lookaheadTrees leavesSecondOnce false 0)[0]? =
      some (twinStep 1) := by
    rw [walkLog_lookahead]
    rfl
  have hsecond : (walkLog id {} lookaheadTrees leavesSecondOnce false 0)[1]? =
      some (twinStep 3) := by
    rw [walkLog_lookahead]
    rfl
  obtain ⟨hagain, hother⟩ := h.1 0 1 0 (twinStep 1) (twinStep 3) twins[0] Nat.zero_lt_one hfirst
    hsecond (by decide +kernel)
  exact ⟨hagain.mp (by decide +kernel), hother (by decide +kernel),
    h.2 walk_leavesSecondOnce 0 1 (twinStep 1) twins[1] hfirst (by decide +kernel)
      (by decide +kernel) rfl⟩

/-- A walk that succeeds hands an entry to its visitor although the visitor consumed it. -/
theorem consumed_entry_is_handed_again :
    ∃ w w' : WalkStep TreeError,
      (walkLog id {} lookaheadTrees leavesSecondOnce false 0)[0]? = some w ∧
      (walkLog id {} lookaheadTrees leavesSecondOnce false 0)[1]? = some w' ∧
      w.takes 0 twins[0] = true ∧ w'.shows 0 twins[0] = true ∧
      (walk id {} lookaheadTrees leavesSecondOnce false 0).1 = .ok () :=
  ⟨twinStep 1, twinStep 3, by rw [walkLog_lookahead]; rfl, by rw [walkLog_lookahead]; rfl,
    by decide +kernel, by decide +kernel, walk_leavesSecondOnce⟩

end GitRemote
