import GitRemote.Proofs.Tree.Order
import Mathlib.Data.List.Nodup

/-!
# Well-formed trees

A well-formed tree decodes to its end, passes `verifyOrder`, and has neither a slash in a name nor a
name twice. What walks need of it is kept in `Stored`: the entries ahead are in ascending order of
stored keys and of offsets. Every part of such a list is one as well.
-/

namespace GitRemote

/-- A tree that was read to its end and is in order. -/
structure Cursor.WellFormed (c : Cursor) : Prop where
  read : ∃ buf, Cursor.ofBytes buf = .ok c
  ordered : c.verifyOrder = .ok ()
  slashFree : ∀ e ∈ c.entries, 0x2F ∉ e.name
  distinct : (c.entries.map Entry.name).Nodup

/-- Entries as a well-formed tree holds them. -/
structure Stored (tree : List Placed) : Prop where
  keys : tree.Pairwise fun p q => p.entry.storedKey < q.entry.storedKey
  offsets : (tree.map Placed.offset).Nodup
  names : (tree.map fun p => p.entry.name).Nodup
  plain : ∀ p ∈ tree, PlainName p.entry.name
  nonempty : ∀ p ∈ tree, p.entry.name ≠ []

/-- Part of a stored tree is stored in order. -/
theorem Stored.sublist {tree part : List Placed} (h : Stored tree) (hs : part.Sublist tree) :
    Stored part where
  keys := h.keys.sublist hs
  offsets := h.offsets.sublist (hs.map _)
  names := h.names.sublist (hs.map _)
  plain p hp := h.plain p (hs.subset hp)
  nonempty p hp := h.nonempty p (hs.subset hp)

/-- A name says which entry it is. -/
theorem Stored.eq_of_name {tree : List Placed} (h : Stored tree) {p q : Placed} (hp : p ∈ tree)
    (hq : q ∈ tree) (hn : p.entry.name = q.entry.name) : p = q :=
  List.inj_on_of_nodup_map h.names hp hq hn

/-- An offset says which entry it is. -/
theorem Stored.eq_of_offset {tree : List Placed} (h : Stored tree) {p q : Placed} (hp : p ∈ tree)
    (hq : q ∈ tree) (ho : p.offset = q.offset) : p = q :=
  List.inj_on_of_nodup_map h.offsets hp hq ho

/-- The entry of a name, found in a tree that has no name twice. -/
theorem Stored.find?_eq_some {tree : List Placed} (h : Stored tree) {name : Bytes} {p : Placed} :
    tree.find? (·.entry.name == name) = some p ↔ p ∈ tree ∧ p.entry.name = name := by
  constructor
  · intro hf
    exact ⟨List.mem_of_find?_eq_some hf, by simpa using List.find?_some hf⟩
  · rintro ⟨hp, hname⟩
    cases hf : tree.find? (·.entry.name == name) with
    | none =>
      have hno := List.find?_eq_none.mp hf p hp
      simp [hname] at hno
    | some q =>
      have hq := List.mem_of_find?_eq_some hf
      have hqn : q.entry.name = name := by simpa using List.find?_some hf
      rw [h.eq_of_name hq hp (hqn.trans hname.symm)]

/-- The bytes up to the first NUL hold no NUL. -/
theorem not_mem_of_name? {buf name rest : Bytes} (h : name? buf = some (name, rest)) :
    0 ∉ name := by
  fun_induction name? buf generalizing name with
  | case1 => cases h
  | case2 => cases h; exact List.not_mem_nil
  | case3 b tail hb ih =>
    obtain ⟨⟨n, r⟩, hn, hr⟩ := Option.map_eq_some_iff.1 h
    cases hr
    simp only [List.mem_cons, not_or]
    exact ⟨fun h0 => hb h0.symm, ih hn⟩

/-- A decoded name is not empty and holds no NUL. -/
theorem Entry.name_of_decode {buf rest : Bytes} {e : Entry}
    (h : Entry.decode buf = .ok (e, rest)) : e.name ≠ [] ∧ 0 ∉ e.name := by
  unfold Entry.decode at h
  split at h
  · split at h
    · cases h
    · split at h
      · cases h
      · next name afterName hname =>
        split at h
        · cases h
        · next hempty =>
          split at h
          · cases h
          · cases h
            exact ⟨by simpa using hempty, not_mem_of_name? hname⟩
  · cases h

/-- Reading a sound entry goes on behind it. -/
theorem decodeEntries_of_ok {size : Nat} {buf rest : Bytes} {e : Entry}
    (h : Entry.decode buf = .ok (e, rest)) :
    decodeEntries size buf = { decodeEntries size rest with
      pending := ⟨size - buf.length, e⟩ :: (decodeEntries size rest).pending } := by
  have hne : buf.isEmpty = false := by
    cases buf with
    | nil => simp [Entry.decode, endsLikeTree, shortestEntry] at h
    | cons b buf => rfl
  rw [decodeEntries, hne]
  simp only [Bool.false_eq_true, ite_false]
  split
  · next f hf => rw [h] at hf; cases hf
  · next e' rest' hok =>
    rw [h] at hok
    cases hok
    rfl

theorem decodeEntries_nil (size : Nat) : decodeEntries size [] = ⟨[], none, size, size⟩ := by
  rw [decodeEntries]
  rfl

/-- Behind an entry that cannot be decoded nothing is pending. -/
theorem decodeEntries_of_error {size : Nat} {buf : Bytes} {f : EntryFault} (hne : buf ≠ [])
    (h : Entry.decode buf = .error f) : (decodeEntries size buf).pending = [] := by
  have he : buf.isEmpty = false := by simpa using hne
  rw [decodeEntries, he]
  simp only [Bool.false_eq_true, ite_false]
  split
  · rfl
  · next e rest hok => rw [h] at hok; cases hok

/-- Entries start behind what was read before them, one behind the other, under proper names. -/
theorem decodeEntries_pending (size : Nat) (buf : Bytes) (hs : buf.length ≤ size) :
    (decodeEntries size buf).pending.Pairwise (fun p q => p.offset < q.offset) ∧
      ∀ p ∈ (decodeEntries size buf).pending,
        size - buf.length ≤ p.offset ∧ p.entry.name ≠ [] ∧ 0 ∉ p.entry.name := by
  induction hl : buf.length using Nat.strongRecOn generalizing buf with
  | ind n ih =>
    subst hl
    rcases List.eq_nil_or_concat buf with rfl | ⟨_, _, hcat⟩
    · rw [decodeEntries_nil]
      simp
    have hne : buf ≠ [] := by rw [hcat]; simp
    cases hd : Entry.decode buf with
    | error f =>
      rw [decodeEntries_of_error hne hd]
      simp
    | ok out =>
      obtain ⟨e, rest⟩ := out
      have hlt := Entry.length_decode_lt hd
      obtain ⟨hpair, hall⟩ := ih rest.length hlt rest (by omega) rfl
      rw [decodeEntries_of_ok hd]
      constructor
      · refine List.pairwise_cons.mpr ⟨?_, hpair⟩
        intro q hq
        have hstart := (hall q hq).1
        show size - buf.length < q.offset
        omega
      · intro p hp
        rcases List.mem_cons.mp hp with rfl | hp
        · exact ⟨Nat.le_refl _, Entry.name_of_decode hd⟩
        · obtain ⟨hstart, hname⟩ := hall p hp
          exact ⟨by omega, hname⟩

/-- Where the entries end without a fault, moving over an entry always succeeds. -/
theorem Cursor.advance_eq_ok {c : Cursor} (h : c.fault = none) : c.advance = .ok c.dropFirst := by
  have hahead : c.faultAhead = none := by
    rw [Cursor.faultAhead, h]
    split <;> rfl
  rw [Cursor.advance, hahead]

/-- A cursor that starts on a sound entry holds the whole scan. -/
theorem Cursor.eq_scan_of_ofBytes {buf : Bytes} {c : Cursor} (h : Cursor.ofBytes buf = .ok c) :
    c = Cursor.scan buf := by
  unfold Cursor.ofBytes at h
  split at h
  · cases h
  · cases h
    rfl

/-- Decoded names are not empty and hold no NUL. -/
theorem Cursor.name_of_ofBytes {buf : Bytes} {c : Cursor} (h : Cursor.ofBytes buf = .ok c) :
    ∀ p ∈ c.pending, p.entry.name ≠ [] ∧ 0 ∉ p.entry.name := by
  intro p hp
  rw [Cursor.eq_scan_of_ofBytes h] at hp
  exact ((decodeEntries_pending buf.length buf (Nat.le_refl _)).2 p hp).2

/-- No two entries of a tree start at one offset. -/
theorem Cursor.nodup_offsets_of_ofBytes {buf : Bytes} {c : Cursor}
    (h : Cursor.ofBytes buf = .ok c) : (c.pending.map Placed.offset).Nodup := by
  rw [Cursor.eq_scan_of_ofBytes h]
  refine (List.pairwise_map (f := Placed.offset)).mpr ?_
  exact (decodeEntries_pending buf.length buf (Nat.le_refl _)).1.imp fun hlt => Nat.ne_of_lt hlt

namespace Cursor.WellFormed

variable {c : Cursor}

theorem fault_eq_none (h : c.WellFormed) : c.fault = none :=
  (Cursor.verifyOrder_eq_ok.mp h.ordered).1

/-- The entries of a well-formed tree stand as walks need them. -/
theorem stored (h : c.WellFormed) : Stored c.pending := by
  obtain ⟨buf, hbuf⟩ := h.read
  have hname := Cursor.name_of_ofBytes hbuf
  have hplain : ∀ p ∈ c.pending, PlainName p.entry.name := fun p hp =>
    ⟨(hname p hp).2, h.slashFree p.entry (List.mem_map_of_mem hp)⟩
  have hkeys : (c.pending.map Placed.entry).Pairwise fun a b => a.storedKey < b.storedKey :=
    (Cursor.verifyOrder_eq_ok.mp h.ordered).2.imp Below.lt
  exact {
    keys := (List.pairwise_map (f := Placed.entry)).mp hkeys
    offsets := Cursor.nodup_offsets_of_ofBytes hbuf
    names := by
      have hn := h.distinct
      rwa [Cursor.entries, List.map_map] at hn
    plain := hplain
    nonempty := fun p hp => (hname p hp).1 }

end Cursor.WellFormed

/-- What is pending of well-formed trees is stored in order. -/
theorem Cursor.stored_pending {cursors : List Cursor} (hw : ∀ c ∈ cursors, c.WellFormed) :
    ∀ t ∈ cursors.map Cursor.pending, Stored t := by
  intro t ht
  obtain ⟨c, hc, rfl⟩ := List.mem_map.mp ht
  exact (hw c hc).stored

/-- A tree without entries is well-formed. -/
theorem Cursor.wellFormed_nil : (Cursor.scan []).WellFormed where
  read := ⟨[], by rw [Cursor.ofBytes, Cursor.scan, decodeEntries_nil]⟩
  ordered := by rw [Cursor.scan, decodeEntries_nil]; rfl
  slashFree := by rw [Cursor.scan, decodeEntries_nil]; simp [Cursor.entries]
  distinct := by rw [Cursor.scan, decodeEntries_nil]; exact List.nodup_nil

end GitRemote
