import GitRemote.Proofs.Walk.Level

/-!
# What a walk hands to its visitor

A logged visitor keeps the rounds it is handed, each with its answer, and behaves as before. Over
well-formed trees, a visitor that consumes all it is offered is handed the rounds of the names in
the trees, as far as the pathspec lets them through.
-/

namespace GitRemote

variable {σ τ ε : Type}

/-! ### Related visitors

What a walk does depends on its visitor's answers alone. If two visitors answer alike on related
states and leave related states, so do the walks. -/

/-- Two visitors that answer alike on related states and leave related states. -/
def Visitor.Related (R : σ → τ → Prop) (f : Frame) (visit : Visitor σ ε) (visit' : Visitor τ ε) :
    Prop :=
  ∀ r s t, R s t → (visit f r s).1 = (visit' f r t).1 ∧ R (visit f r s).2 (visit' f r t).2

/-- Visitors that answer alike are offered the same rounds, and their states stay related. -/
private theorem rounds_related {R : σ → τ → Prop} {f : Frame} {visit : Visitor σ ε}
    {visit' : Visitor τ ε} (hv : visit.Related R f visit') (lift : TreeError → ε) (fuel : Nat)
    (lanes : List Lane) (so : Interest) (failed : Option ε) {s : σ} {t : τ} (hst : R s t) :
    (rounds lift f visit fuel lanes so failed s).1 =
        (rounds lift f visit' fuel lanes so failed t).1 ∧
      R (rounds lift f visit fuel lanes so failed s).2
        (rounds lift f visit' fuel lanes so failed t).2 := by
  induction fuel generalizing lanes so failed s t with
  | zero => exact ⟨rfl, hst⟩
  | succ fuel ih =>
    rw [rounds, rounds]
    cases hnext : nextRound lanes with
    | error e => exact ⟨rfl, hst⟩
    | ok next =>
      obtain ⟨lanes', round?⟩ := next
      simp only
      cases hw : round?.bind fun r => r.winner?.map fun w => (r, w) with
      | none => exact ⟨rfl, hst⟩
      | some rw =>
        obtain ⟨r, w⟩ := rw
        simp only
        split
        · exact ⟨rfl, hst⟩
        · split
          · obtain ⟨hanswer, hleft⟩ := hv r s t hst
            cases hs : visit f r s with
            | mk answer s' =>
              cases ht : visit' f r t with
              | mk answer' t' =>
                rw [hs, ht] at hanswer hleft
                simp only at hanswer hleft
                subst hanswer
                cases answer with
                | ok used =>
                  simp only
                  cases consumeRound (r.mask &&& used) lanes' r.slots with
                  | error e => exact ⟨rfl, hleft⟩
                  | ok lanes => exact ih _ _ _ hleft
                | error e =>
                  simp only
                  split
                  · cases consumeRound r.mask lanes' r.slots with
                    | error e => exact ⟨rfl, hleft⟩
                    | ok lanes => exact ih _ _ _ hleft
                  · exact ⟨rfl, hleft⟩
          · cases consumeRound r.mask lanes' r.slots with
            | error e => exact ⟨rfl, hst⟩
            | ok lanes => exact ih _ _ _ hst

/-- Walks with related visitors end alike and leave related states. -/
theorem walk_related {R : σ → τ → Prop} {f : Frame} {visit : Visitor σ ε} {visit' : Visitor τ ε}
    (hv : visit.Related R f visit') (lift : TreeError → ε) (cursors : List Cursor)
    (patience : Nat) {s : σ} {t : τ} (hst : R s t) :
    (walk lift f cursors visit s patience).1 = (walk lift f cursors visit' t patience).1 ∧
      R (walk lift f cursors visit s patience).2 (walk lift f cursors visit' t patience).2 := by
  unfold walk
  split
  · exact ⟨rfl, hst⟩
  · split
    · exact ⟨rfl, hst⟩
    · exact rounds_related hv lift _ _ _ _ hst

/-! ### Logged visitors -/

/-- The visitor with a log of the rounds it was handed and of its answers. -/
def Visitor.logged (visit : Visitor σ ε) : Visitor (σ × List (Round × Except ε Nat)) ε :=
  fun f r s => ((visit f r s.1).1, ((visit f r s.1).2, s.2 ++ [(r, (visit f r s.1).1)]))

/-- The rounds that a walk hands to its visitor, in order. -/
def walkedRounds (lift : TreeError → ε) (f : Frame) (cursors : List Cursor) (visit : Visitor σ ε)
    (s : σ) (patience : Nat) : List Round :=
  (walk lift f cursors visit.logged (s, []) patience).2.2.map Prod.fst

/-- A visitor that consumes all it is offered from `n` trees, and fails only where the walk goes on
after a failure. -/
def Visitor.ConsumesAll (visit : Visitor σ ε) (f : Frame) (n : Nat) : Prop :=
  visit.Consumes f n ∧
    ∀ r s e, r.slots.length = n → (visit f r s).1 = .error e → f.options.showAllErrors = true

/-- Keeping a log changes neither the answer nor the state of a walk. -/
theorem walk_logged (lift : TreeError → ε) (f : Frame) (cursors : List Cursor)
    (visit : Visitor σ ε) (s : σ) (log : List (Round × Except ε Nat)) (patience : Nat) :
    (walk lift f cursors visit.logged (s, log) patience).1 =
        (walk lift f cursors visit s patience).1 ∧
      (walk lift f cursors visit.logged (s, log) patience).2.1 =
        (walk lift f cursors visit s patience).2 := by
  have hv : visit.logged.Related (fun s t => s.1 = t) f visit := by
    rintro r s _ rfl
    exact ⟨rfl, rfl⟩
  exact walk_related hv lift cursors patience rfl

/-- A visitor consumes the same while a log is kept. -/
theorem Visitor.ConsumesAll.logged {visit : Visitor σ ε} {f : Frame} {n : Nat}
    (h : visit.ConsumesAll f n) : visit.logged.ConsumesAll f n :=
  ⟨fun r s used hr hu => h.1 r s.1 used hr hu, fun r s e hr he => h.2 r s.1 e hr he⟩

/-- Every round that is played is logged. -/
theorem play_logged {visit : Visitor σ ε} {f : Frame} {n : Nat} (hv : visit.ConsumesAll f n)
    {rs : List Round} (hrs : ∀ r ∈ rs, r.slots.length = n) (failed : Option ε)
    (s : σ × List (Round × Except ε Nat)) :
    (play f visit.logged rs failed s).2.2.map Prod.fst = s.2.map Prod.fst ++ rs := by
  induction rs generalizing failed s with
  | nil => simp [play]
  | cons r rs ih =>
    have hrest := ih fun r' hr' => hrs r' (List.mem_cons_of_mem r hr')
    rw [play, Visitor.logged]
    cases hvis : visit f r s.1 with
    | mk answer s' =>
      cases answer with
      | ok used => simp [hrest]
      | error e =>
        have hshow := hv.2 r s.1 e (hrs r (List.mem_cons_self ..)) (by rw [hvis])
        simp [hrest, hshow]

/-- Every round has a slot for each tree. -/
theorem length_slots_of_mem_levelRounds {trees : List (List Placed)} {r : Round}
    (h : r ∈ levelRounds trees) : r.slots.length = trees.length := by
  obtain ⟨n, _, rfl⟩ := List.mem_map.mp h
  simp [gather]

/-- The rounds that are offered come in the order of all rounds. -/
theorem offered_sublist (f : Frame) (so : Interest) (rs : List Round) :
    (offered f so rs).Sublist rs := by
  induction rs generalizing so with
  | nil => exact List.nil_sublist _
  | cons r rs ih =>
    rw [offered]
    split
    · exact List.nil_sublist _
    · split
      · exact List.nil_sublist _
      · split
        · exact (ih _).cons_cons r
        · exact (ih _).cons r

/-- Without a pathspec every round is offered. -/
theorem offered_of_pathspec_none {f : Frame} (hp : f.pathspec = none) {rs : List Round}
    (hw : ∀ r ∈ rs, ∃ w, r.winner? = some w) (so : Interest) : offered f so rs = rs := by
  induction rs generalizing so with
  | nil => rfl
  | cons r rs ih =>
    obtain ⟨w, hr⟩ := hw r (List.mem_cons_self ..)
    have hrest := ih fun r' hr' => hw r' (List.mem_cons_of_mem r hr')
    rw [offered, hr]
    simp only [narrow, hp, reduceCtorEq, ite_false, Interest.isInteresting, ite_true, hrest]

/-- Every round has an entry. -/
theorem exists_winner_of_mem_levelRounds {trees : List (List Placed)} {r : Round}
    (h : r ∈ levelRounds trees) : ∃ w, r.winner? = some w := by
  obtain ⟨n, hn, rfl⟩ := List.mem_map.mp h
  exact exists_winner (mem_nameOrder.mp hn)

/-- The rounds that a walk hands to a visitor that consumes all of them. -/
theorem walkedRounds_eq {lift : TreeError → ε} {f : Frame} {visit : Visitor σ ε}
    {cursors : List Cursor} (hw : ∀ c ∈ cursors, c.WellFormed) (hn : cursors.length ≤ maxTrees)
    (hd : f.depth ≤ f.options.maxDepth) (hv : visit.ConsumesAll f cursors.length) (s : σ)
    (patience : Nat) :
    walkedRounds lift f cursors visit s patience =
      offered f .interesting (levelRounds (cursors.map Cursor.pending)) := by
  rw [walkedRounds, walk_eq_play hw hn hd hv.logged.1, play_logged hv]
  · rfl
  · intro r hr
    rw [length_slots_of_mem_levelRounds ((offered_sublist f _ _).subset hr), List.length_map]

end GitRemote
