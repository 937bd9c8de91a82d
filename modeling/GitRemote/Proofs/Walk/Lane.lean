import GitRemote.Proofs.Tree.WellFormed

/-!
# What a lane still has to offer

A lane over a well-formed tree offers the entries ahead that were not taken early. Settling leaves
them as they are and brings the first of them to the front, searching a name finds the entry that
bears it, and consuming an entry removes just that one.
-/

namespace GitRemote

namespace Lane

/-- The entries that are still to be offered. -/
def left (l : Lane) : List Placed := l.cursor.pending.filter fun p => !l.taken.contains p.offset

/-- The entries ahead that were taken early. -/
def early (l : Lane) : List Placed := l.cursor.pending.filter fun p => l.taken.contains p.offset

/-- A lane over a well-formed tree. -/
structure Sound (l : Lane) : Prop where
  fault : l.cursor.fault = none
  stored : Stored l.cursor.pending

theorem mem_left {l : Lane} {p : Placed} :
    p ∈ l.left ↔ p ∈ l.cursor.pending ∧ p.offset ∉ l.taken := by
  simp [left]

theorem mem_early {l : Lane} {p : Placed} :
    p ∈ l.early ↔ p ∈ l.cursor.pending ∧ p.offset ∈ l.taken := by
  simp [early]

end Lane

/-- Offsets that no entry has do not matter to what is left. -/
private theorem filter_erase_offset {pending : List Placed} {o : Nat}
    (h : o ∉ pending.map Placed.offset) (taken : List Nat) :
    pending.filter (fun p => !(taken.erase o).contains p.offset) =
      pending.filter (fun p => !taken.contains p.offset) := by
  apply List.filter_congr
  intro p hp
  have hne : p.offset ≠ o := fun he => h (he ▸ List.mem_map_of_mem hp)
  simp [List.mem_erase_of_ne hne]

theorem skipTaken_cons (p : Placed) (rest : List Placed) (taken : List Nat) :
    skipTaken none (p :: rest) taken =
      if taken.contains p.offset then skipTaken none rest (taken.erase p.offset)
      else .ok (p :: rest, taken) := by
  cases rest <;> rfl

theorem seek_cons (first : Bytes) (p : Placed) (rest : List Placed) :
    seek none first (p :: rest) =
      match sight first p.entry.name with
      | .found => .ok (some p)
      | .absent => .ok none
      | .keepLooking => seek none first rest := by
  cases rest <;> rfl

/-- Skipping ends at the first entry that is still to be offered. -/
private theorem skipTaken_spec (pending : List Placed) (taken : List Nat)
    (hn : (pending.map Placed.offset).Nodup) :
    ∃ pending' taken', skipTaken none pending taken = .ok (pending', taken') ∧
      pending' <:+ pending ∧
      pending'.filter (fun p => !taken'.contains p.offset) =
        pending.filter (fun p => !taken.contains p.offset) ∧
      (∀ p ∈ pending', p.offset ∈ taken' → p.offset ∈ taken) ∧
      ∀ p ∈ pending'.head?, p.offset ∉ taken' := by
  induction pending generalizing taken with
  | nil => exact ⟨[], taken, rfl, List.suffix_rfl, rfl, by simp, by simp⟩
  | cons p rest ih =>
    rw [List.map_cons, List.nodup_cons] at hn
    by_cases ht : p.offset ∈ taken
    · obtain ⟨pending', taken', hok, hsuf, hleft, hsub, hhead⟩ := ih (taken.erase p.offset) hn.2
      refine ⟨pending', taken', ?_, hsuf.trans (List.suffix_cons p rest), ?_, ?_, hhead⟩
      · simpa only [skipTaken_cons, List.contains_iff_mem, ht, ite_true] using hok
      · rw [hleft, filter_erase_offset hn.1, List.filter_cons_of_neg (by simp [ht])]
      · intro q hq hqt
        exact List.mem_of_mem_erase (hsub q hq hqt)
    · refine ⟨p :: rest, taken, ?_, List.suffix_rfl, rfl, fun _ _ h => h, ?_⟩
      · simp [skipTaken_cons, ht]
      · simpa using ht

/-- Without a fault ahead a search finds the first entry of the name it looks for. -/
private theorem seek_spec {pending : List Placed} (h : Stored pending) (first : Bytes) :
    seek none first pending = .ok (pending.find? fun p => p.entry.name == first) := by
  induction pending with
  | nil => rfl
  | cons p rest ih =>
    have hrest := ih (h.sublist (List.sublist_cons_self p rest))
    rw [seek_cons]
    cases hs : sight first p.entry.name with
    | found => simp [sight_eq_found.mp hs]
    | keepLooking =>
      have hne : p.entry.name ≠ first := by
        intro he
        rw [sight_eq_found.mpr he] at hs
        cases hs
      rw [List.find?_cons_of_neg (by simpa using hne), ← hrest]
    | absent =>
      obtain ⟨hlt, hnc⟩ := lt_of_sight_eq_absent hs
      have hnone : (p :: rest).find? (fun q => q.entry.name == first) = none := by
        rw [List.find?_eq_none]
        intro q hq he
        have hqn : q.entry.name = first := by simpa using he
        rcases List.mem_cons.mp hq with rfl | hq
        · rw [hqn] at hlt
          exact Std.lt_irrefl hlt
        · -- Behind a greater name the one looked for is a directory that this name continues.
          have hkey := List.rel_of_pairwise_cons h.keys hq
          have hc := continues_of_storedKey_lt (h.plain p (List.mem_cons_self ..)) hkey
            (by rw [hqn]; exact hlt)
          exact hnc (hqn ▸ hc)
      rw [hnone]

/-- Skipping leaves an end of what was pending. -/
theorem skipTaken_suffix {fault : Option TreeError} {pending pending' : List Placed}
    {taken taken' : List Nat} (h : skipTaken fault pending taken = .ok (pending', taken')) :
    pending' <:+ pending := by
  fun_induction skipTaken fault pending taken with
  | case1 =>
    cases h
    exact List.suffix_rfl
  | case2 => cases h
  | case3 p rest taken _ _ ih => exact (ih h).trans (List.suffix_cons p rest)
  | case4 =>
    cases h
    exact List.suffix_rfl

namespace Lane

variable {l : Lane}

/-- Settling moves ahead only. -/
theorem settle_suffix {l' : Lane} (h : l.settle = .ok l') :
    l'.cursor.pending <:+ l.cursor.pending := by
  rw [settle] at h
  split at h
  · cases h
  · next hskip =>
    cases h
    exact skipTaken_suffix hskip

/-- Consuming moves ahead only. -/
theorem consume_suffix {l' : Lane} {p : Placed} (h : l.consume p = .ok l') :
    l'.cursor.pending <:+ l.cursor.pending := by
  rw [consume] at h
  split at h
  · cases h
    exact List.suffix_rfl
  · split at h
    · split at h
      · cases h
      · next hadvance =>
        cases h
        rw [Cursor.advance] at hadvance
        split at hadvance
        · cases hadvance
        · cases hadvance
          exact List.tail_suffix _
    · cases h
      exact List.suffix_rfl

/-- Settling keeps what is to be offered and brings the first of it to the front. -/
theorem settle_spec (h : l.Sound) :
    ∃ l', l.settle = .ok l' ∧ l'.Sound ∧ l'.left = l.left ∧ l'.early ⊆ l.early ∧
      l'.cursor.pending.head? = l'.left.head? := by
  obtain ⟨pending', taken', hok, hsuf, hleft, hsub, hhead⟩ :=
    skipTaken_spec l.cursor.pending l.taken h.stored.offsets
  refine ⟨⟨{ l.cursor with pending := pending' }, taken'⟩, ?_, ⟨h.fault, ?_⟩, ?_, ?_, ?_⟩
  · simp only [settle, h.fault, hok]
  · exact h.stored.sublist hsuf.sublist
  · exact hleft
  · intro p hp
    obtain ⟨hpp, hpt⟩ := mem_early.mp hp
    exact mem_early.mpr ⟨hsuf.subset hpp, hsub p hpp hpt⟩
  · cases hc : pending' with
    | nil => simp [left]
    | cons p rest =>
      have hp : p.offset ∉ taken' := hhead p (by simp [hc])
      simp [left, hp]

/-- A search gives the entry ahead that bears the name, taken or not. -/
theorem find_spec (h : l.Sound) (first : Bytes) :
    l.find first = .ok (l.cursor.pending.find? fun p => p.entry.name == first) := by
  rw [find, h.fault]
  exact seek_spec h.stored first

/-- Consuming an entry takes it, and nothing else, from what is to be offered. -/
theorem consume_spec (h : l.Sound) {p : Placed} (hp : p ∈ l.cursor.pending) :
    ∃ l', l.consume p = .ok l' ∧ l'.Sound ∧
      l'.left = l.left.filter (fun q => q.offset != p.offset) ∧ l'.early ⊆ p :: l.early := by
  cases hc : l.cursor.pending with
  | nil => simp [hc] at hp
  | cons q rest =>
    by_cases ho : q.offset = p.offset
    · have hqp : q = p := h.stored.eq_of_offset (by simp [hc]) hp ho
      subst hqp
      have hnot : ∀ r ∈ rest, r.offset ≠ q.offset := by
        have hn := h.stored.offsets
        rw [hc, List.map_cons, List.nodup_cons] at hn
        exact fun r hr he => hn.1 (he ▸ List.mem_map_of_mem hr)
      refine ⟨{ l with cursor := l.cursor.dropFirst }, ?_, ⟨h.fault, ?_⟩, ?_, ?_⟩
      · simp only [consume, hc, ite_true, Cursor.advance_eq_ok h.fault]
      · exact h.stored.sublist (List.tail_sublist _)
      · have hkeep : rest.filter (fun r => r.offset != q.offset) = rest := by
          rw [List.filter_eq_self]
          intro r hr
          simpa using hnot r hr
        have hq : (q :: rest).filter (fun r => r.offset != q.offset) = rest := by
          rw [List.filter_cons_of_neg (by simp), hkeep]
        show l.cursor.pending.tail.filter _ = (l.cursor.pending.filter _).filter _
        rw [hc, List.filter_comm, hq]
        rfl
      · intro r hr
        obtain ⟨hrp, hrt⟩ := mem_early.mp hr
        exact List.mem_cons_of_mem q (mem_early.mpr ⟨List.mem_of_mem_tail hrp, hrt⟩)
    · refine ⟨{ l with taken := l.taken ++ [p.offset] }, ?_, ⟨h.fault, h.stored⟩, ?_, ?_⟩
      · simp only [consume, hc, ho, ite_false]
      · simp only [left, List.filter_filter]
        apply List.filter_congr
        intro r _
        by_cases hr : r.offset = p.offset <;> simp [hr]
      · intro r hr
        obtain ⟨hrp, hrt⟩ := mem_early.mp hr
        rcases List.mem_append.mp hrt with hrt | hrt
        · exact List.mem_cons_of_mem p (mem_early.mpr ⟨hrp, hrt⟩)
        · have hro : r.offset = p.offset := List.mem_singleton.mp hrt
          rw [h.stored.eq_of_offset hrp hp hro]
          exact List.mem_cons_self ..

end Lane

end GitRemote
