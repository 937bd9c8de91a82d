import GitRemote.Proofs.Walk.Lane
import GitRemote.Proofs.Walk.NameOrder

/-!
# The rounds of one directory

The lanes of a walk stay in step with lists of entries: each lane has just the entries of its list
to offer, and no entry that was taken early bears a name that is still to come. A round preserves
this, so a walk whose visitor consumes what it is offered plays the rounds of `nameOrder`, of which
a pathspec leaves out some.
-/

namespace GitRemote

variable {σ ε : Type}

/-- A visitor that consumes all it is offered from `n` trees, unless it fails. -/
def Visitor.Consumes (visit : Visitor σ ε) (f : Frame) (n : Nat) : Prop :=
  ∀ r s used, r.slots.length = n → (visit f r s).1 = .ok used → r.mask &&& used = r.mask

/-- Offers rounds one after another and consumes each. -/
def play (f : Frame) (visit : Visitor σ ε) :
    List Round → Option ε → σ → Except ε Unit × σ
  | [], failed, s => (finish failed, s)
  | r :: rest, failed, s =>
    match visit f r s with
    | (.ok _, s) => play f visit rest failed s
    | (.error e, s) =>
      if f.options.showAllErrors then play f visit rest (failed <|> some e) s else (.error e, s)

/-- The rounds that are offered of a directory, `so` being what the one before meant. -/
def offered (f : Frame) : Interest → List Round → List Round
  | _, [] => []
  | so, r :: rest =>
    match r.winner? with
    | none => []
    | some w =>
      if narrow f f.base so w = .allNotInteresting then []
      else if (narrow f f.base so w).isInteresting then
        r :: offered f (narrow f f.base so w) rest
      else offered f (narrow f f.base so w) rest

private theorem find?_congr {α : Type} {p q : α → Bool} {l : List α}
    (h : ∀ a ∈ l, p a = q a) : l.find? p = l.find? q := by
  induction l with
  | nil => rfl
  | cons a l ih =>
    rw [List.find?_cons, List.find?_cons, h a (List.mem_cons_self ..),
      ih fun b hb => h b (List.mem_cons_of_mem a hb)]

/-- Attempts that all succeed give all the results. -/
theorem attemptAll_eq_map {α β : Type} {f : α → Except ε β} {g : α → β} {l : List α}
    (h : ∀ a ∈ l, f a = .ok (g a)) : attemptAll f l = .ok (l.map g) := by
  induction l with
  | nil => rfl
  | cons a l ih =>
    rw [attemptAll, h a (List.mem_cons_self ..),
      ih fun b hb => h b (List.mem_cons_of_mem a hb)]
    rfl

/-- Where each step succeeds, all do, and each result is as the step says. -/
theorem attemptAll_forall₂ {α β : Type} {f : α → Except ε β} {P : α → β → Prop} {l : List α}
    (h : ∀ a ∈ l, ∃ b, f a = .ok b ∧ P a b) :
    ∃ bs, attemptAll f l = .ok bs ∧ List.Forall₂ P l bs := by
  induction l with
  | nil => exact ⟨[], rfl, .nil⟩
  | cons a l ih =>
    obtain ⟨b, hb, hP⟩ := h a (List.mem_cons_self ..)
    obtain ⟨bs, hbs, hall⟩ := ih fun a' ha' => h a' (List.mem_cons_of_mem a ha')
    refine ⟨b :: bs, ?_, .cons hP hall⟩
    rw [attemptAll, hb, hbs]

/-- Where each step succeeds, the result at each place is as the step says. -/
theorem attemptAll_getElem? {α β : Type} {f : α → Except ε β} {P : α → β → Prop} {l : List α}
    (h : ∀ a ∈ l, ∃ b, f a = .ok b ∧ P a b) :
    ∃ bs, attemptAll f l = .ok bs ∧ bs.length = l.length ∧
      ∀ (i : Nat) (a : α) (b : β), l[i]? = some a → bs[i]? = some b → P a b := by
  obtain ⟨bs, hok, hall⟩ := attemptAll_forall₂ h
  refine ⟨bs, hok, hall.length_eq.symm, fun i a b ha hb => ?_⟩
  obtain ⟨hlt, rfl⟩ := List.getElem?_eq_some_iff.mp ha
  obtain ⟨hlt', rfl⟩ := List.getElem?_eq_some_iff.mp hb
  exact (List.forall₂_iff_get.mp hall).2 i hlt hlt'

private theorem exists_left_of_forall₂ {α β : Type} {P : α → β → Prop} {l : List α} {m : List β}
    (h : List.Forall₂ P l m) : ∀ b ∈ m, ∃ a ∈ l, P a b := by
  induction h with
  | nil => simp
  | @cons a b l m hab _ ih =>
    intro c hc
    rcases List.mem_cons.mp hc with rfl | hc
    · exact ⟨a, List.mem_cons_self .., hab⟩
    · obtain ⟨d, hd, hdc⟩ := ih c hc
      exact ⟨d, List.mem_cons_of_mem a hd, hdc⟩

private theorem map_eq_of_forall₂ {α β γ : Type} {P : α → β → Prop} {f : α → γ} {g : β → γ}
    {l : List α} {m : List β} (h : List.Forall₂ P l m) (hP : ∀ a b, P a b → g b = f a) :
    m.map g = l.map f := by
  induction h with
  | nil => rfl
  | cons hab _ ih => rw [List.map_cons, List.map_cons, hP _ _ hab, ih]

/-- Once the lanes are settled, the next round is that of the least name at the front of what is ahead
of them. -/
theorem nextRound_of_settle {lanes lanes' : List Lane}
    (hok : attemptAll Lane.settle lanes = .ok lanes') (hs : ∀ l ∈ lanes', l.Sound) :
    nextRound lanes = .ok (lanes', (leastName (frontNames (lanes'.map (·.cursor.pending)))).map
      (gather (lanes'.map (·.cursor.pending)))) := by
  have hfront : lanes'.filterMap (fun l => l.cursor.current?.map Entry.name) =
      frontNames (lanes'.map (·.cursor.pending)) := by
    rw [frontNames, List.filterMap_map]
    apply List.filterMap_congr
    intro l _
    simp only [Cursor.current?, Function.comp_apply, Option.map_map]
    rfl
  rw [nextRound, hok]
  simp only [hfront]
  cases leastName (frontNames (lanes'.map (·.cursor.pending))) with
  | none => rfl
  | some n =>
    simp only [attemptAll_eq_map fun l hl => Lane.find_spec (hs l hl) n, Option.map_some, gather,
      List.map_map]
    rfl

/-- Lanes that have the entries of these lists to offer. -/
structure InStep (lanes : List Lane) (trees : List (List Placed)) : Prop where
  sound : ∀ l ∈ lanes, l.Sound
  left : lanes.map Lane.left = trees
  /-- No name that was taken early is still to come. -/
  fresh : ∀ l ∈ lanes, ∀ p ∈ l.early, ¬ Occurs trees p.entry.name

namespace InStep

variable {lanes : List Lane} {trees : List (List Placed)}

/-- Cursors at the start of well-formed trees. -/
theorem start {cursors : List Cursor} (hw : ∀ c ∈ cursors, c.WellFormed) :
    InStep (cursors.map fun c => ⟨c, []⟩) (cursors.map Cursor.pending) where
  sound l hl := by
    obtain ⟨c, hc, rfl⟩ := List.mem_map.mp hl
    exact ⟨(hw c hc).fault_eq_none, (hw c hc).stored⟩
  left := by
    rw [List.map_map]
    apply List.map_congr_left
    intro c _
    simp [Lane.left]
  fresh l hl p hp := by
    obtain ⟨c, _, rfl⟩ := List.mem_map.mp hl
    simp [Lane.early] at hp

/-- Settling all lanes leaves them in step and brings what is to be offered to the front. -/
theorem settle (h : InStep lanes trees) :
    ∃ lanes', attemptAll Lane.settle lanes = .ok lanes' ∧ InStep lanes' trees ∧
      frontNames (lanes'.map (·.cursor.pending)) = frontNames trees := by
  obtain ⟨lanes', hok, hall⟩ := attemptAll_forall₂ fun l hl => Lane.settle_spec (h.sound l hl)
  have hleft : lanes'.map Lane.left = lanes.map Lane.left :=
    map_eq_of_forall₂ hall fun _ _ hl => hl.2.1
  have hmem := exists_left_of_forall₂ hall
  refine ⟨lanes', hok, ⟨?_, hleft.trans h.left, ?_⟩, ?_⟩
  · intro l' hl'
    obtain ⟨_, _, hsound, _⟩ := hmem l' hl'
    exact hsound
  · intro l' hl' p hp
    obtain ⟨l, hl, _, _, hearly, _⟩ := hmem l' hl'
    exact h.fresh l hl p (hearly hp)
  · rw [frontNames, frontNames, ← h.left, ← hleft, List.filterMap_map, List.filterMap_map]
    apply List.filterMap_congr
    intro l' hl'
    obtain ⟨_, _, _, _, _, hhead⟩ := hmem l' hl'
    rw [Function.comp_apply, Function.comp_apply, hhead]

/-- A search in a lane gives the entry that is to be offered, if the name is still to come. -/
theorem find?_eq (h : InStep lanes trees) {l : Lane} (hl : l ∈ lanes) {n : Bytes}
    (hn : Occurs trees n) :
    l.cursor.pending.find? (·.entry.name == n) = l.left.find? (·.entry.name == n) := by
  rw [Lane.left, List.find?_filter]
  apply find?_congr
  intro p hp
  by_cases hname : p.entry.name = n
  · have hnot : p.offset ∉ l.taken := fun ht =>
      h.fresh l hl p (Lane.mem_early.mpr ⟨hp, ht⟩) (hname ▸ hn)
    simp [hname, hnot]
  · simp [hname]

/-- The next round is that of the least name at hand. -/
theorem nextRound (h : InStep lanes trees) :
    ∃ lanes', InStep lanes' trees ∧ GitRemote.nextRound lanes =
      .ok (lanes', (leastName (frontNames trees)).map (gather trees)) := by
  obtain ⟨lanes', hok, hstep, hfront⟩ := h.settle
  refine ⟨lanes', hstep, ?_⟩
  rw [nextRound_of_settle hok hstep.sound, hfront]
  cases hl : leastName (frontNames trees) with
  | none => rfl
  | some n =>
    have hgather : gather (lanes'.map (·.cursor.pending)) n = gather trees n := by
      simp only [gather, ← hstep.left, List.map_map]
      exact congrArg Round.mk
        (List.map_congr_left fun l hl' => hstep.find?_eq hl' (occurs_of_leastName hl))
    rw [Option.map_some, Option.map_some, hgather]

end InStep

/-- What consuming a name does to a lane. -/
private theorem consume_name {l : Lane} (h : l.Sound) (n : Bytes) :
    ∃ l', (match l.cursor.pending.find? (·.entry.name == n) with
        | some p => l.consume p
        | none => .ok l) = .ok l' ∧
      l'.Sound ∧ l'.left = without n l.left ∧
      ∀ p ∈ l'.early, p ∈ l.early ∨ p.entry.name = n := by
  cases hf : l.cursor.pending.find? (·.entry.name == n) with
  | none =>
    refine ⟨l, rfl, h, ?_, fun p hp => Or.inl hp⟩
    rw [without, eq_comm, List.filter_eq_self]
    intro p hp
    have hne := List.find?_eq_none.mp hf p (Lane.mem_left.mp hp).1
    simpa using hne
  | some p =>
    have hp := List.mem_of_find?_eq_some hf
    have hname : p.entry.name = n := by simpa using List.find?_some hf
    obtain ⟨l', hok, hsound, hleft, hearly⟩ := Lane.consume_spec h hp
    refine ⟨l', hok, hsound, ?_, ?_⟩
    · rw [hleft, without]
      apply List.filter_congr
      intro q hq
      have hqp := (Lane.mem_left.mp hq).1
      by_cases he : q = p
      · simp [he, hname]
      · have ho : q.offset ≠ p.offset := fun ho => he (h.stored.eq_of_offset hqp hp ho)
        have hn : q.entry.name ≠ n := fun hn =>
          he (h.stored.eq_of_name hqp hp (hn.trans hname.symm))
        rw [bne_iff_ne.mpr ho, bne_iff_ne.mpr hn]
    · intro q hq
      rcases List.mem_cons.mp (hearly hq) with rfl | hq
      · exact Or.inr hname
      · exact Or.inl hq

/-- Consuming all slots of a round consumes the slot of each lane. -/
private theorem consumeRound_all {P : Lane → Lane → Prop} {slot : Lane → Option Placed}
    {lanes : List Lane}
    (h : ∀ l ∈ lanes, ∃ l', (match slot l with
      | some p => l.consume p
      | none => .ok l) = .ok l' ∧ P l l') :
    ∃ lanes', consumeRound (bitSet ((lanes.map slot).map Option.isSome)) lanes
        (lanes.map slot) = .ok lanes' ∧ List.Forall₂ P lanes lanes' := by
  induction lanes with
  | nil => exact ⟨[], rfl, .nil⟩
  | cons l lanes ih =>
    obtain ⟨l', hok, hP⟩ := h l (List.mem_cons_self ..)
    obtain ⟨lanes', hoks, hall⟩ := ih fun m hm => h m (List.mem_cons_of_mem l hm)
    refine ⟨l' :: lanes', ?_, .cons hP hall⟩
    have htail (b : Bool) (n : Nat) : (b.toNat + 2 * n) / 2 = n := by
      cases b <;> simp [Nat.add_mul_div_left]
    have hhead (n : Nat) : (true.toNat + 2 * n).testBit 0 = true := by
      simp [Nat.testBit_zero]
    simp only [List.map_cons, bitSet, consumeRound, htail, hoks]
    cases hs : slot l with
    | none =>
      rw [hs] at hok
      cases hok
      rfl
    | some p =>
      rw [hs] at hok
      simp only [Option.isSome_some, hhead, ite_true]
      simp only at hok
      simp only [hok]

/-- Consuming a round leaves the lanes in step with what is left. -/
theorem InStep.consumeRound {lanes : List Lane} {trees : List (List Placed)}
    (h : InStep lanes trees) {n : Bytes} (hn : Occurs trees n) :
    ∃ lanes', InStep lanes' (dropName n trees) ∧
      GitRemote.consumeRound (gather trees n).mask lanes (gather trees n).slots = .ok lanes' := by
  obtain ⟨lanes', hok, hall⟩ := consumeRound_all fun l hl => consume_name (h.sound l hl) n
  have hslots : (gather trees n).slots =
      lanes.map fun l => l.cursor.pending.find? (·.entry.name == n) := by
    simp only [gather, ← h.left, List.map_map]
    exact List.map_congr_left fun l hl => (h.find?_eq hl hn).symm
  have hleft : lanes'.map Lane.left = lanes.map fun l => without n l.left :=
    map_eq_of_forall₂ hall fun _ _ hl => hl.2.1
  have hmem := exists_left_of_forall₂ hall
  refine ⟨lanes', ⟨?_, ?_, ?_⟩, ?_⟩
  · intro l' hl'
    obtain ⟨_, _, hsound, _⟩ := hmem l' hl'
    exact hsound
  · rw [hleft, dropName, ← h.left, List.map_map]
    rfl
  · intro l' hl' p hp
    obtain ⟨l, hl, _, _, hearly⟩ := hmem l' hl'
    rw [occurs_dropName]
    rintro ⟨hocc, hne⟩
    rcases hearly p hp with hpe | hpn
    · exact h.fresh l hl p hpe hocc
    · exact hne hpn
  · rw [Round.mask, hslots]
    exact hok

/-- A round that holds an entry has a winner. -/
theorem exists_winner_of_mem {r : Round} {p : Placed} (h : some p ∈ r.slots) :
    ∃ w, r.winner? = some w := by
  cases hf : r.slots.reverse.findSome? id with
  | some q => exact ⟨q.entry, by rw [Round.winner?, hf]; rfl⟩
  | none => cases List.findSome?_eq_none_iff.mp hf (some p) (List.mem_reverse.mpr h)

/-- The round of a name that occurs has a winner. -/
theorem exists_winner {trees : List (List Placed)} {n : Bytes} (h : Occurs trees n) :
    ∃ w, (gather trees n).winner? = some w := by
  obtain ⟨t, ht, p, hp, hname⟩ := h
  obtain ⟨q, hq⟩ : ∃ q, t.find? (·.entry.name == n) = some q :=
    Option.isSome_iff_exists.mp (List.find?_isSome.mpr ⟨p, hp, by simpa using hname⟩)
  exact exists_winner_of_mem (p := q) (List.mem_map.mpr ⟨t, ht, hq⟩)

/-- Rounds over lanes in step offer the rounds of the names that are left. -/
theorem rounds_eq_play {lift : TreeError → ε} {f : Frame} {visit : Visitor σ ε}
    {trees : List (List Placed)} {lanes : List Lane} (h : InStep lanes trees)
    (hv : visit.Consumes f trees.length) {fuel : Nat} (hfuel : (nameOrder trees).length < fuel)
    (so : Interest) (failed : Option ε) (s : σ) :
    rounds lift f visit fuel lanes so failed s =
      play f visit (offered f so (levelRounds trees)) failed s := by
  induction fuel generalizing trees lanes so failed s with
  | zero => exact absurd hfuel (Nat.not_lt_zero _)
  | succ fuel ih =>
    obtain ⟨lanes', hstep, hnext⟩ := h.nextRound
    rw [rounds, hnext]
    cases hl : leastName (frontNames trees) with
    | none =>
      rw [levelRounds_of_none hl]
      rfl
    | some n =>
      have hocc := occurs_of_leastName hl
      obtain ⟨w, hw⟩ := exists_winner hocc
      obtain ⟨lanes'', hstep', hconsume⟩ := hstep.consumeRound hocc
      -- Whatever the answer, the walk goes on with all of the round consumed.
      have hrest (so : Interest) (failed : Option ε) (s : σ) :
          rounds lift f visit fuel lanes'' so failed s =
            play f visit (offered f so (levelRounds (dropName n trees))) failed s := by
        refine ih hstep' ?_ ?_ so failed s
        · simpa only [dropName, List.length_map] using hv
        · rw [nameOrder_of_some hl, List.length_cons] at hfuel
          omega
      rw [levelRounds_of_some hl, offered, hw]
      simp only [Option.map_some, Option.bind_some, hw]
      generalize narrow f f.base so w = so'
      by_cases hstop : so' = .allNotInteresting
      · simp only [hstop, ite_true]
        rfl
      · rw [if_neg hstop, if_neg hstop]
        by_cases hi : so'.isInteresting = true
        · rw [if_pos hi, if_pos hi, play]
          cases hvis : visit f (gather trees n) s with
          | mk answer s' =>
            cases answer with
            | ok used =>
              have hmask : (gather trees n).mask &&& used = (gather trees n).mask :=
                hv _ s used (by simp [gather]) (by rw [hvis])
              simp only [hmask, hconsume, hrest]
            | error e =>
              simp only [hconsume, hrest]
        · rw [if_neg hi, if_neg hi]
          simp only [hconsume, hrest]

/-- The entries ahead are the rounds a walk allows for. -/
theorem workAhead_eq (cursors : List Cursor) :
    workAhead cursors = treeSize (cursors.map Cursor.pending) := by
  rw [workAhead, treeSize, List.flatMap_def]

/-- A walk over well-formed trees whose visitor consumes what it is offered plays the rounds of the
names in the trees, as far as the pathspec lets it. -/
theorem walk_eq_play {lift : TreeError → ε} {f : Frame} {visit : Visitor σ ε}
    {cursors : List Cursor} (hw : ∀ c ∈ cursors, c.WellFormed) (hn : cursors.length ≤ maxTrees)
    (hd : f.depth ≤ f.options.maxDepth) (hv : visit.Consumes f cursors.length) (s : σ)
    (patience : Nat) :
    walk lift f cursors visit s patience =
      play f visit (offered f .interesting (levelRounds (cursors.map Cursor.pending))) none s := by
  rw [walk, if_neg (Nat.not_lt.mpr hn), if_neg (Nat.not_lt.mpr hd)]
  refine rounds_eq_play (InStep.start hw) ?_ ?_ _ _ _
  · simpa only [List.length_map] using hv
  · have hle := length_nameOrder_le (cursors.map Cursor.pending)
    rw [← workAhead_eq] at hle
    omega

end GitRemote
