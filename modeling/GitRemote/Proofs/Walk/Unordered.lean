import GitRemote.Proofs.Walk.Replay

/-!
# Walks over trees in no order

A tree that decodes to its end can be walked whatever its order, and however often a name comes. A
search ahead may then find an entry that was taken before, and a lane may keep an offset that its
cursor has passed. But every round takes the first entry off some lane, so the walk ends; and a
cursor passes an entry only if a round has shown it, so the walk loses none.
-/

namespace GitRemote

variable {σ ε : Type}

/-- A tree that was read to its end. -/
structure Cursor.Decoded (c : Cursor) : Prop where
  read : ∃ buf, Cursor.ofBytes buf = .ok c
  whole : c.fault = none

/-- A visitor that answers every round of `n` trees, and consumes all it is offered. -/
def Visitor.TakesAll (visit : Visitor σ ε) (f : Frame) (n : Nat) : Prop :=
  ∀ r s, r.slots.length = n → ∃ used, (visit f r s).1 = .ok used ∧ r.mask &&& used = r.mask

/-- One of the rounds holds the entry, in the slot of the tree at a position. -/
def ShownIn (rs : List Round) (i : Nat) (p : Placed) : Prop :=
  ∃ r ∈ rs, r.slots[i]? = some (some p)

theorem shownIn_concat {rs : List Round} {r : Round} {i : Nat} {p : Placed} :
    ShownIn (rs ++ [r]) i p ↔ ShownIn rs i p ∨ r.slots[i]? = some (some p) := by
  simp [ShownIn, or_and_right, exists_or]

/-- Skipping leaves behind only what was taken. -/
theorem skipTaken_split (pending : List Placed) (taken : List Nat) :
    ∃ skipped pending' taken', skipTaken none pending taken = .ok (pending', taken') ∧
      pending = skipped ++ pending' ∧ (∀ p ∈ skipped, p.offset ∈ taken) ∧ taken' ⊆ taken := by
  induction pending generalizing taken with
  | nil => exact ⟨[], [], taken, rfl, rfl, by simp, List.Subset.refl _⟩
  | cons p rest ih =>
    by_cases ht : p.offset ∈ taken
    · obtain ⟨skipped, pending', taken', hok, hsplit, hskipped, hsub⟩ := ih (taken.erase p.offset)
      refine ⟨p :: skipped, pending', taken', ?_, congrArg (p :: ·) hsplit, ?_, ?_⟩
      · simpa only [skipTaken_cons, List.contains_iff_mem, ht, ite_true] using hok
      · intro q hq
        rcases List.mem_cons.mp hq with rfl | hq
        · exact ht
        · exact List.mem_of_mem_erase (hskipped q hq)
      · exact fun o ho => List.mem_of_mem_erase (hsub ho)
    · refine ⟨[], p :: rest, taken, ?_, rfl, by simp, List.Subset.refl _⟩
      simp [skipTaken_cons, ht]

/-- A search finds nothing but entries ahead, and the first of them if it bears the name. -/
theorem seek_found (first : Bytes) (pending : List Placed) :
    ∃ slot, seek none first pending = .ok slot ∧ (∀ p ∈ slot, p ∈ pending) ∧
      ∀ p ∈ pending.head?, p.entry.name = first → slot = some p := by
  induction pending with
  | nil => exact ⟨none, rfl, by simp, by simp⟩
  | cons p rest ih =>
    obtain ⟨slot, hok, hmem, -⟩ := ih
    have hother (hs : sight first p.entry.name ≠ .found) (slot : Option Placed) :
        ∀ q ∈ (p :: rest).head?, q.entry.name = first → slot = some q := by
      rintro _ ⟨⟩ hname
      exact absurd (sight_eq_found.mpr hname) hs
    rw [seek_cons]
    cases hs : sight first p.entry.name with
    | found => exact ⟨some p, rfl, by simp, by simp⟩
    | absent => exact ⟨none, rfl, by simp, hother (by simp [hs]) none⟩
    | keepLooking =>
      exact ⟨slot, hok, fun q hq => List.mem_cons_of_mem p (hmem q hq), hother (by simp [hs]) slot⟩

namespace Lane

/-- Every entry of the tree that the cursor has passed was shown, and so was every entry that the
lane remembers as taken. -/
structure Covers (l : Lane) (tree : List Placed) (shown : Placed → Prop) : Prop where
  whole : l.cursor.fault = none
  offsets : (tree.map Placed.offset).Nodup
  passed : ∃ before, tree = before ++ l.cursor.pending ∧ ∀ p ∈ before, shown p
  taken : ∀ p ∈ tree, p.offset ∈ l.taken → shown p

variable {l : Lane} {tree : List Placed} {shown shown' : Placed → Prop} {p : Placed}

/-- Showing more does no harm. -/
theorem Covers.mono (h : l.Covers tree shown) (hs : ∀ p, shown p → shown' p) :
    l.Covers tree shown' := by
  obtain ⟨before, htree, hbefore⟩ := h.passed
  exact ⟨h.whole, h.offsets, ⟨before, htree, fun p hp => hs p (hbefore p hp)⟩,
    fun p hp ht => hs p (h.taken p hp ht)⟩

/-- What is ahead of a lane is in its tree. -/
theorem Covers.mem_tree (h : l.Covers tree shown) (hp : p ∈ l.cursor.pending) : p ∈ tree := by
  obtain ⟨before, rfl, -⟩ := h.passed
  exact List.mem_append_right before hp

/-- A lane that is used up has had all of its tree shown. -/
theorem Covers.shown_of_pending_nil (h : l.Covers tree shown) (hnil : l.cursor.pending = [])
    (hp : p ∈ tree) : shown p := by
  obtain ⟨before, rfl, hbefore⟩ := h.passed
  rw [hnil, List.append_nil] at hp
  exact hbefore p hp

/-- What settling skips was taken, and so it was shown. -/
theorem settle_covers (h : l.cursor.fault = none) :
    ∃ l', l.settle = .ok l' ∧ l'.cursor.pending.length ≤ l.cursor.pending.length ∧
      ∀ tree shown, l.Covers tree shown → l'.Covers tree shown := by
  obtain ⟨skipped, pending', taken', hok, hsplit, hskipped, hsub⟩ :=
    skipTaken_split l.cursor.pending l.taken
  refine ⟨⟨{ l.cursor with pending := pending' }, taken'⟩, by simp only [settle, h, hok], ?_, ?_⟩
  · rw [hsplit, List.length_append]
    exact Nat.le_add_left _ _
  · intro tree shown hc
    obtain ⟨before, htree, hbefore⟩ := hc.passed
    refine ⟨h, hc.offsets, ⟨before ++ skipped, ?_, ?_⟩, fun p hp ht => hc.taken p hp (hsub ht)⟩
    · rw [htree, hsplit, List.append_assoc]
    · intro p hp
      rcases List.mem_append.mp hp with hp | hp
      · exact hbefore p hp
      · refine hc.taken p (hc.mem_tree ?_) (hskipped p hp)
        rw [hsplit]
        exact List.mem_append_left pending' hp

/-- Consuming an entry that is shown moves the cursor over it, or remembers it. -/
theorem Covers.consume (h : l.Covers tree shown) (hp : p ∈ l.cursor.pending) :
    ∃ l', l.consume p = .ok l' ∧ l'.Covers tree (fun q => shown q ∨ q = p) ∧
      (l.cursor.pending.head? = some p →
        l'.cursor.pending.length < l.cursor.pending.length) := by
  have hp' := h.mem_tree hp
  have hshown : l.Covers tree fun q => shown q ∨ q = p := h.mono fun _ => Or.inl
  have heq {q : Placed} (hq : q ∈ tree) (ho : q.offset = p.offset) : q = p :=
    List.inj_on_of_nodup_map h.offsets hq hp' ho
  cases hpending : l.cursor.pending with
  | nil => simp [hpending] at hp
  | cons q rest =>
    by_cases ho : q.offset = p.offset
    · obtain rfl := heq (h.mem_tree (by simp [hpending])) ho
      obtain ⟨before, htree, hbefore⟩ := h.passed
      refine ⟨{ l with cursor := l.cursor.dropFirst }, ?_,
        ⟨h.whole, h.offsets, ⟨before ++ [q], ?_, ?_⟩, hshown.taken⟩, ?_⟩
      · simp only [Lane.consume, hpending, ite_true, Cursor.advance_eq_ok h.whole]
      · rw [htree, Cursor.dropFirst, hpending, List.tail_cons, List.append_assoc,
          List.singleton_append]
      · intro r hr
        rcases List.mem_append.mp hr with hr | hr
        · exact Or.inl (hbefore r hr)
        · exact Or.inr (List.mem_singleton.mp hr)
      · intro _
        simp [Cursor.dropFirst, hpending]
    · -- Whether it was taken before does not matter: it is shown now.
      refine ⟨{ l with taken := l.taken ++ [p.offset] }, ?_,
        ⟨h.whole, h.offsets, hshown.passed, ?_⟩, ?_⟩
      · simp only [Lane.consume, hpending, ho, ite_false]
      · intro r hr ht
        rcases List.mem_append.mp ht with ht | ht
        · exact Or.inl (h.taken r hr ht)
        · exact Or.inr (heq hr (List.mem_singleton.mp ht))
      · rintro ⟨⟩
        exact absurd rfl ho

/-- Consuming a slot that is shown. -/
theorem Covers.consumeSlot (h : l.Covers tree shown) {slot : Option Placed}
    (hslot : ∀ p ∈ slot, p ∈ l.cursor.pending) :
    ∃ l', l.consumeSlot slot slot.isSome = .ok l' ∧
      l'.Covers tree (fun q => shown q ∨ slot = some q) ∧
      l'.cursor.pending.length ≤ l.cursor.pending.length ∧
      ∀ p, slot = some p → l.cursor.pending.head? = some p →
        l'.cursor.pending.length < l.cursor.pending.length := by
  cases slot with
  | none => exact ⟨l, rfl, h.mono fun _ => Or.inl, Nat.le_refl _, by simp⟩
  | some p =>
    obtain ⟨l', hok, hc, hlt⟩ := h.consume (hslot p rfl)
    refine ⟨l', hok, hc.mono ?_, (consume_suffix hok).length_le, ?_⟩
    · exact fun q hq => hq.imp_right fun hqp => congrArg some hqp.symm
    · rintro _ ⟨⟩ hhead
      exact hlt hhead

end Lane

/-- Lanes that have lost none of the entries of their trees. -/
structure Covering (lanes : List Lane) (trees : List (List Placed)) (rs : List Round) : Prop where
  length_eq : lanes.length = trees.length
  covers : ∀ (i : Nat) (l : Lane), lanes[i]? = some l →
    ∃ tree, trees[i]? = some tree ∧ l.Covers tree (ShownIn rs i)

/-- A round that holds entries ahead of the lanes, the first one of some lane among them. -/
structure Round.DrawnFrom (r : Round) (lanes : List Lane) : Prop where
  length_eq : lanes.length = r.slots.length
  ahead : ∀ (i : Nat) (l : Lane) (slot : Option Placed), lanes[i]? = some l →
    r.slots[i]? = some slot → ∀ p ∈ slot, p ∈ l.cursor.pending
  front : ∃ (i : Nat) (l : Lane) (p : Placed), lanes[i]? = some l ∧
    l.cursor.pending.head? = some p ∧ r.slots[i]? = some (some p)

theorem workAhead_cons (l : Lane) (lanes : List Lane) :
    workAhead ((l :: lanes).map Lane.cursor) =
      l.cursor.pending.length + workAhead (lanes.map Lane.cursor) := by
  simp [workAhead]

/-- Lanes of which none moves back have no more ahead of them. -/
theorem workAhead_le {lanes lanes' : List Lane} (hlen : lanes'.length = lanes.length)
    (h : ∀ (i : Nat) (l l' : Lane), lanes[i]? = some l → lanes'[i]? = some l' →
      l'.cursor.pending.length ≤ l.cursor.pending.length) :
    workAhead (lanes'.map Lane.cursor) ≤ workAhead (lanes.map Lane.cursor) := by
  induction lanes generalizing lanes' with
  | nil =>
    obtain rfl := List.length_eq_zero_iff.mp hlen
    exact Nat.le_refl _
  | cons l lanes ih =>
    obtain ⟨l', lanes', rfl⟩ := List.exists_cons_of_length_eq_add_one hlen
    have hfirst := h 0 l l' rfl rfl
    have hrest := ih (Nat.succ.inj hlen) fun i => h (i + 1)
    rw [workAhead_cons, workAhead_cons]
    omega

/-- Where one of the lanes does move ahead, they have less ahead of them. -/
theorem workAhead_lt {lanes lanes' : List Lane} (hlen : lanes'.length = lanes.length)
    (h : ∀ (i : Nat) (l l' : Lane), lanes[i]? = some l → lanes'[i]? = some l' →
      l'.cursor.pending.length ≤ l.cursor.pending.length)
    {i : Nat} {l l' : Lane} (hl : lanes[i]? = some l) (hl' : lanes'[i]? = some l')
    (hlt : l'.cursor.pending.length < l.cursor.pending.length) :
    workAhead (lanes'.map Lane.cursor) < workAhead (lanes.map Lane.cursor) := by
  induction lanes generalizing lanes' i with
  | nil => cases hl
  | cons m lanes ih =>
    obtain ⟨m', lanes', rfl⟩ := List.exists_cons_of_length_eq_add_one hlen
    rw [workAhead_cons, workAhead_cons]
    cases i with
    | zero =>
      cases hl
      cases hl'
      have hrest := workAhead_le (Nat.succ.inj hlen) fun i => h (i + 1)
      omega
    | succ i =>
      have hfirst := h 0 m m' rfl rfl
      have hrest := ih (Nat.succ.inj hlen) (fun i => h (i + 1)) hl hl'
      omega

namespace Covering

variable {lanes : List Lane} {trees : List (List Placed)} {rs : List Round} {r : Round}

/-- Before the first round nothing was passed, so nothing has to be shown. -/
theorem start {cursors : List Cursor} (hc : ∀ c ∈ cursors, c.Decoded) :
    Covering (cursors.map fun c => ⟨c, []⟩) (cursors.map Cursor.pending) [] where
  length_eq := by simp only [List.length_map]
  covers i l hl := by
    rw [List.getElem?_map, Option.map_eq_some_iff] at hl
    obtain ⟨c, hci, rfl⟩ := hl
    obtain ⟨⟨buf, hbuf⟩, hwhole⟩ := hc c (List.mem_of_getElem? hci)
    refine ⟨c.pending, by rw [List.getElem?_map, hci]; rfl, hwhole,
      Cursor.nodup_offsets_of_ofBytes hbuf, ⟨[], rfl, by simp⟩, by simp⟩

/-- No lane stands before a fault. -/
theorem whole (h : Covering lanes trees rs) : ∀ l ∈ lanes, l.cursor.fault = none := by
  intro l hl
  obtain ⟨i, hi⟩ := List.mem_iff_getElem?.mp hl
  obtain ⟨_, _, hc⟩ := h.covers i l hi
  exact hc.whole

/-- Once all lanes are used up, all of each tree was shown. -/
theorem shown_of_used_up (h : Covering lanes trees rs) (hnil : ∀ l ∈ lanes, l.cursor.pending = [])
    {i : Nat} {tree : List Placed} {p : Placed} (ht : trees[i]? = some tree) (hp : p ∈ tree) :
    ShownIn rs i p := by
  have hlt : i < lanes.length := h.length_eq ▸ (List.getElem?_eq_some_iff.mp ht).1
  obtain ⟨tree', ht', hc⟩ := h.covers i lanes[i] (List.getElem?_eq_getElem hlt)
  obtain rfl := Option.some.inj (ht.symm.trans ht')
  exact hc.shown_of_pending_nil (hnil _ (List.getElem_mem hlt)) hp

/-- Settling the lanes loses nothing and adds no work. -/
theorem settle (h : Covering lanes trees rs) :
    ∃ lanes', attemptAll Lane.settle lanes = .ok lanes' ∧ Covering lanes' trees rs ∧
      workAhead (lanes'.map Lane.cursor) ≤ workAhead (lanes.map Lane.cursor) := by
  obtain ⟨lanes', hok, hlen, hlane⟩ :=
    attemptAll_getElem? fun l hl => Lane.settle_covers (h.whole l hl)
  refine ⟨lanes', hok, ⟨hlen.trans h.length_eq, fun i l' hl' => ?_⟩,
    workAhead_le hlen fun i l l' hl hl' => (hlane i l l' hl hl').1⟩
  have hlt : i < lanes.length := hlen ▸ (List.getElem?_eq_some_iff.mp hl').1
  have hl : lanes[i]? = some lanes[i] := List.getElem?_eq_getElem hlt
  obtain ⟨tree, ht, hc⟩ := h.covers i _ hl
  exact ⟨tree, ht, (hlane i _ l' hl hl').2 tree _ hc⟩

/-- There is a next round, drawn from the lanes, unless they are all used up. -/
theorem nextRound (h : Covering lanes trees rs) :
    ∃ lanes' r?, GitRemote.nextRound lanes = .ok (lanes', r?) ∧ Covering lanes' trees rs ∧
      workAhead (lanes'.map Lane.cursor) ≤ workAhead (lanes.map Lane.cursor) ∧
      (r? = none → ∀ l ∈ lanes', l.cursor.pending = []) ∧
      ∀ r, r? = some r → r.DrawnFrom lanes' := by
  obtain ⟨lanes', hok, hc, hwork⟩ := h.settle
  rw [GitRemote.nextRound, hok]
  dsimp only
  cases hl : leastName (lanes'.filterMap fun l => l.cursor.current?.map Entry.name) with
  | none =>
    refine ⟨lanes', none, rfl, hc, hwork, fun _ l hl' => ?_, by simp⟩
    have hnone := List.filterMap_eq_nil_iff.mp (leastName_eq_none.mp hl) l hl'
    simpa [Cursor.current?] using hnone
  | some first =>
    obtain ⟨slots, hslots, hlen, hslot⟩ :=
      attemptAll_getElem? (f := (·.find first)) (l := lanes') fun l hl' => by
        rw [Lane.find, hc.whole l hl']
        exact seek_found first l.cursor.pending
    refine ⟨lanes', some ⟨slots⟩, by simp only [hslots], hc, hwork, by simp, ?_⟩
    rintro _ ⟨⟩
    refine ⟨hlen.symm, fun i l slot hl' hs => (hslot i l slot hl' hs).1, ?_⟩
    obtain ⟨l, hmem, hfirst⟩ := List.mem_filterMap.mp (leastName_eq_some hl).1
    obtain ⟨i, hi⟩ := List.mem_iff_getElem?.mp hmem
    rw [Cursor.current?, Option.map_map, Option.map_eq_some_iff] at hfirst
    obtain ⟨p, hhead, hname⟩ := hfirst
    have hlt : i < slots.length := hlen ▸ (List.getElem?_eq_some_iff.mp hi).1
    have hs : slots[i]? = some slots[i] := List.getElem?_eq_getElem hlt
    exact ⟨i, l, p, hi, hhead, hs.trans (congrArg some ((hslot i l _ hi hs).2 p hhead hname))⟩

/-- Consuming a round that was shown keeps the lanes from losing anything, and moves some lane. -/
theorem consumeRound (h : Covering lanes trees rs) (hr : r.DrawnFrom lanes) :
    ∃ lanes', GitRemote.consumeRound r.mask lanes r.slots = .ok lanes' ∧
      Covering lanes' trees (rs ++ [r]) ∧
      workAhead (lanes'.map Lane.cursor) < workAhead (lanes.map Lane.cursor) := by
  have hlane (i : Nat) (l : Lane) (slot : Option Placed) (hl : lanes[i]? = some l)
      (hs : r.slots[i]? = some slot) :
      ∃ l', l.consumeSlot slot (r.mask.testBit i) = .ok l' ∧
        (∃ tree, trees[i]? = some tree ∧ l'.Covers tree (ShownIn (rs ++ [r]) i)) ∧
        ∀ m, lanes[i]? = some m → l'.cursor.pending.length ≤ m.cursor.pending.length ∧
          ∀ p, r.slots[i]? = some (some p) → m.cursor.pending.head? = some p →
            l'.cursor.pending.length < m.cursor.pending.length := by
    obtain ⟨tree, ht, hc⟩ := h.covers i l hl
    obtain ⟨l', hok, hc', hle, hlt⟩ := hc.consumeSlot (hr.ahead i l slot hl hs)
    refine ⟨l', Round.testBit_mask hs ▸ hok, ⟨tree, ht, hc'.mono fun q hq => ?_⟩, fun m hm => ?_⟩
    · rw [shownIn_concat, hs, Option.some.injEq]
      exact hq
    · obtain rfl := Option.some.inj (hl.symm.trans hm)
      refine ⟨hle, fun p hp => hlt p ?_⟩
      rwa [hs, Option.some.injEq] at hp
  obtain ⟨lanes', hok, hlen, hlanes⟩ := consumeRound_getElem? r.mask hr.length_eq hlane
  refine ⟨lanes', hok, ⟨hlen.trans h.length_eq, fun i l' hl' => (hlanes i l' hl').1⟩, ?_⟩
  obtain ⟨i, l, p, hl, hhead, hs⟩ := hr.front
  have hlt : i < lanes'.length := hlen ▸ (List.getElem?_eq_some_iff.mp hl).1
  have hl' : lanes'[i]? = some lanes'[i] := List.getElem?_eq_getElem hlt
  exact workAhead_lt hlen (fun i l l' hl hl' => ((hlanes i l' hl').2 l hl).1) hl hl'
    (((hlanes i _ hl').2 l hl).2 p hs hhead)

end Covering

/-- Without a pathspec, a round that holds an entry is offered, and all of it is consumed. -/
theorem rounds_logged {lift : TreeError → ε} {f : Frame} {visit : Visitor σ ε}
    (hp : f.pathspec = none) {n : Nat} (hv : visit.TakesAll f n) {lanes lanes' lanes'' : List Lane}
    {r : Round} (hnext : nextRound lanes = .ok (lanes', some r)) (hlen : r.slots.length = n)
    {p : Placed} (hmem : some p ∈ r.slots)
    (hconsume : consumeRound r.mask lanes' r.slots = .ok lanes'') (fuel : Nat) (so : Interest)
    (failed : Option ε) (s : σ) (log : List (WalkStep ε)) :
    rounds lift f visit.logged (fuel + 1) lanes so failed (s, log) =
      rounds lift f visit.logged fuel lanes'' .allInteresting failed
        ((visit f r s).2, log ++ [(r, (visit f r s).1)]) := by
  obtain ⟨w, hw⟩ := exists_winner_of_mem hmem
  obtain ⟨used, hok, hused⟩ := hv r s hlen
  rw [rounds, hnext]
  simp only [Option.bind_some, hw, Option.map_some, narrow, hp, reduceCtorEq, ite_false,
    Interest.isInteresting, ite_true, Visitor.logged, hok, hused, hconsume]

/-- A walk plays no more rounds than there are entries ahead, and at its end all were shown. -/
theorem rounds_covering (lift : TreeError → ε) {f : Frame} {visit : Visitor σ ε}
    (hp : f.pathspec = none) {trees : List (List Placed)} (hv : visit.TakesAll f trees.length)
    {lanes : List Lane} {log : List (WalkStep ε)} (h : Covering lanes trees (log.map Prod.fst))
    {fuel : Nat} (hfuel : workAhead (lanes.map Lane.cursor) < fuel) (so : Interest) (s : σ) :
    ∃ s' later, rounds lift f visit.logged fuel lanes so none (s, log) =
        (.ok (), s', log ++ later) ∧
      later.length ≤ workAhead (lanes.map Lane.cursor) ∧
      ∀ (i : Nat) (tree : List Placed) (p : Placed), trees[i]? = some tree → p ∈ tree →
        ShownIn ((log ++ later).map Prod.fst) i p := by
  -- The lanes cover what the log shows, and each round is logged before the lanes move over it.
  induction fuel generalizing lanes log so s with
  | zero => exact absurd hfuel (Nat.not_lt_zero _)
  | succ fuel ih =>
    obtain ⟨lanes', r?, hnext, hc, hwork, hend, hdrawn⟩ := h.nextRound
    cases r? with
    | none =>
      refine ⟨s, [], ?_, Nat.zero_le _, ?_⟩
      · rw [rounds, hnext, List.append_nil]
        rfl
      · rw [List.append_nil]
        exact fun i tree p ht hp => hc.shown_of_used_up (hend rfl) ht hp
    | some r =>
      have hr := hdrawn r rfl
      obtain ⟨lanes'', hconsume, hc', hlt⟩ := hc.consumeRound hr
      obtain ⟨i, _, p, _, _, hs⟩ := hr.front
      rw [rounds_logged hp hv hnext (hr.length_eq.symm.trans hc.length_eq)
        (List.mem_of_getElem? hs) hconsume]
      have hlogged : Covering lanes'' trees ((log ++ [(r, (visit f r s).1)]).map Prod.fst) := by
        rwa [List.map_append, List.map_singleton]
      obtain ⟨s', later, hrest, hlater, hshown⟩ :=
        ih hlogged (by omega) .allInteresting (visit f r s).2
      refine ⟨s', (r, (visit f r s).1) :: later, ?_, ?_, ?_⟩
      · rw [hrest, List.append_assoc, List.singleton_append]
      · rw [List.length_cons]
        omega
      · simpa only [List.append_assoc, List.singleton_append] using hshown

/-- A single lane that took nothing early has its first entry as the next round. -/
theorem nextRound_single {c : Cursor} (hc : c.fault = none) :
    nextRound [⟨c, []⟩] = .ok ([⟨c, []⟩], c.pending.head?.map fun p => ⟨[some p]⟩) := by
  obtain ⟨pending, fault, stop, size⟩ := c
  obtain rfl : fault = none := hc
  cases pending with
  | nil => rfl
  | cons p rest =>
    have hfound : sight p.entry.name p.entry.name = .found := sight_eq_found.mpr rfl
    simp [nextRound, attemptAll, Lane.settle, skipTaken_cons, leastName, Cursor.current?,
      Lane.find, seek_cons, hfound]

theorem mask_single (p : Placed) : Round.mask ⟨[some p]⟩ = 1 := rfl

/-- The round of its first entry moves a single lane over that entry. -/
theorem consumeRound_single {c : Cursor} (hc : c.fault = none) {p : Placed}
    (hp : c.pending.head? = some p) :
    consumeRound (Round.mask ⟨[some p]⟩) [⟨c, []⟩] [some p] = .ok [⟨c.dropFirst, []⟩] := by
  obtain ⟨rest, hpending⟩ := List.head?_eq_some_iff.mp hp
  simp [consumeRound, mask_single, Lane.consume, hpending, Cursor.advance_eq_ok hc]

/-- Of a single tree every entry makes up a round of its own. -/
theorem rounds_single (lift : TreeError → ε) {f : Frame} {visit : Visitor σ ε}
    (hp : f.pathspec = none) (hv : visit.TakesAll f 1) {c : Cursor} (hc : c.fault = none)
    {fuel : Nat} (hfuel : c.pending.length < fuel) (so : Interest) (s : σ)
    (log : List (WalkStep ε)) :
    (rounds lift f visit.logged fuel [⟨c, []⟩] so none (s, log)).2.2.map Prod.fst =
      log.map Prod.fst ++ c.pending.map fun p => ⟨[some p]⟩ := by
  induction fuel generalizing c so s log with
  | zero => exact absurd hfuel (Nat.not_lt_zero _)
  | succ fuel ih =>
    have hnext := nextRound_single hc
    cases hpending : c.pending with
    | nil =>
      rw [rounds, hnext, hpending, List.map_nil, List.append_nil]
      rfl
    | cons p rest =>
      have hhead : c.pending.head? = some p := by rw [hpending, List.head?_cons]
      have hrest : c.dropFirst.pending = rest := by rw [Cursor.dropFirst, hpending, List.tail_cons]
      rw [hhead, Option.map_some] at hnext
      have hless : c.dropFirst.pending.length < fuel := by
        rw [hpending, List.length_cons] at hfuel
        rw [hrest]
        omega
      rw [rounds_logged hp hv hnext rfl (List.mem_singleton_self _) (consumeRound_single hc hhead),
        ih (c := c.dropFirst) hc hless, hrest]
      simp

/-- Within the limits, a walk is its rounds. -/
theorem walk_eq_rounds {lift : TreeError → ε} {f : Frame} {visit : Visitor σ ε}
    {cursors : List Cursor} (hn : cursors.length ≤ maxTrees)
    (hd : f.depth ≤ f.options.maxDepth) (s : σ) (patience : Nat) :
    walk lift f cursors visit s patience =
      rounds lift f visit (workAhead cursors + patience + 1) (cursors.map fun c => ⟨c, []⟩)
        .interesting none s := by
  rw [walk, if_neg (Nat.not_lt.mpr hn), if_neg (Nat.not_lt.mpr hd)]

/-- Within the limits on trees and depth, and without a pathspec, a walk over trees that were read to
their ends, in whatever order and with whatever names, ends well after at most as many rounds as
there are entries, if its visitor consumes all it is offered. It shows every entry of every tree in
the slot of that tree, and the entries of a single tree once each, in the order in which they are
stored. -/
theorem walk_loses_nothing {lift : TreeError → ε} {f : Frame} {visit : Visitor σ ε}
    {cursors : List Cursor} (hc : ∀ c ∈ cursors, c.Decoded) (hn : cursors.length ≤ maxTrees)
    (hd : f.depth ≤ f.options.maxDepth) (hp : f.pathspec = none)
    (hv : visit.TakesAll f cursors.length) (s : σ) (patience : Nat) :
    (walk lift f cursors visit s patience).1 = .ok () ∧
      (walkedRounds lift f cursors visit s patience).length ≤ workAhead cursors ∧
      (∀ i c p, cursors[i]? = some c → p ∈ c.pending →
        ShownIn (walkedRounds lift f cursors visit s patience) i p) ∧
      ∀ c, cursors = [c] →
        (walkedRounds lift f cursors visit s patience).map (fun r => (r.slots, r.mask)) =
          c.pending.map fun p => ([some p], 1) := by
  have hcursors : (cursors.map fun c => (⟨c, []⟩ : Lane)).map Lane.cursor = cursors := by
    rw [List.map_map]
    exact List.map_id cursors
  have hfuel : workAhead ((cursors.map fun c => (⟨c, []⟩ : Lane)).map Lane.cursor) <
      workAhead cursors + patience + 1 := by
    rw [hcursors]
    omega
  have hstart : Covering (cursors.map fun c => ⟨c, []⟩) (cursors.map Cursor.pending)
      (([] : List (WalkStep ε)).map Prod.fst) := Covering.start hc
  obtain ⟨s', later, hrun, hlen, hshown⟩ :=
    rounds_covering lift hp (by rwa [List.length_map]) hstart hfuel .interesting s
  rw [hcursors] at hlen
  rw [← (walk_logged lift f cursors visit s [] patience).1, walkedRounds, walk_eq_rounds hn hd,
    hrun]
  refine ⟨rfl, by simpa using hlen, fun i c p hi hmem => ?_, ?_⟩
  · exact hshown i c.pending p (by rw [List.getElem?_map, hi]; rfl) hmem
  · rintro c rfl
    have hless : c.pending.length < workAhead [c] + patience + 1 := by
      rw [workAhead, List.flatMap_singleton]
      omega
    have hsingle := rounds_single lift hp hv (hc c (List.mem_singleton_self c)).whole hless
      .interesting s []
    rw [List.map_singleton] at hrun
    rw [hrun] at hsingle
    rw [hsingle]
    simp [mask_single]

theorem Cursor.decoded_treeOf {es : List Entry} (he : ∀ e ∈ es, e.Writable) :
    (Cursor.scan (treeOf es)).Decoded :=
  ⟨⟨treeOf es, ofBytes_treeOf he⟩, (decodeEntries_treeOf he _).2⟩

/-- A directory `t` between two files of one name. -/
def repeatedEntries : List Entry :=
  [.file (bytesOf "t-2") 1, .directory (bytesOf "t") 2, .file (bytesOf "t-2") 3]

/-- Beside a tree that has `t` twice, with a lesser name behind, a search finds the directory `t`
twice. -/
def disorderedTrees : List Cursor :=
  [Cursor.scan (treeOf repeatedEntries),
    Cursor.scan (treeOf [.directory (bytesOf "t") 4, .file (bytesOf "t") 5,
      .file (bytesOf "a") 6])]

theorem decoded_disorderedTrees : ∀ c ∈ disorderedTrees, c.Decoded := by
  simp only [disorderedTrees, List.mem_cons, List.not_mem_nil, or_false, forall_eq_or_imp,
    forall_eq]
  exact ⟨Cursor.decoded_treeOf (by decide), Cursor.decoded_treeOf (by decide)⟩

/-- Consumes all it is offered. -/
def consumesMask : Visitor Unit TreeError := fun _ r s => (.ok r.mask, s)

theorem takesAll_consumesMask (f : Frame) (n : Nat) : consumesMask.TakesAll f n :=
  fun r _ _ => ⟨r.mask, rfl, Nat.and_self r.mask⟩

/-- The walk over both trees, and the one over the first alone. -/
theorem walk_loses_nothing_disordered :
    ((walk id {} disorderedTrees consumesMask ()).1 = .ok () ∧
      (walkedRounds id {} disorderedTrees consumesMask () 0).length ≤ 6 ∧
      ∀ i c p, disorderedTrees[i]? = some c → p ∈ c.pending →
        ShownIn (walkedRounds id {} disorderedTrees consumesMask () 0) i p) ∧
    (walkedRounds id {} [Cursor.scan (treeOf repeatedEntries)] consumesMask () 0).map
        (fun r => (r.entries, r.mask)) =
      repeatedEntries.map fun e => ([some e], 1) := by
  have hrepeated : ∀ e ∈ repeatedEntries, e.Writable := by decide
  obtain ⟨hok, hlen, hshown, -⟩ := @walk_loses_nothing Unit TreeError id {} consumesMask
    disorderedTrees decoded_disorderedTrees (by decide) (by decide) rfl
    (takesAll_consumesMask _ 2) () 0
  have hwork : workAhead disorderedTrees = 6 := by decide +kernel
  obtain ⟨-, -, -, hsingle⟩ := @walk_loses_nothing Unit TreeError id {} consumesMask
    [Cursor.scan (treeOf repeatedEntries)] (by simpa using Cursor.decoded_treeOf hrepeated)
    (by decide) (by decide) rfl (takesAll_consumesMask _ 1) () 0
  refine ⟨⟨hok, hwork ▸ hlen, hshown⟩, ?_⟩
  have hslots := congrArg (List.map fun x => (x.1.map (·.map Placed.entry), x.2)) (hsingle _ rfl)
  conv_rhs => rw [← entries_treeOf hrepeated]
  rw [List.map_map, List.map_map] at hslots
  rw [Cursor.entries, List.map_map]
  exact hslots

end GitRemote
