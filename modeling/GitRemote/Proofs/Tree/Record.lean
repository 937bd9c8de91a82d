import GitRemote.Proofs.Text.Cut
import GitRemote.Proofs.Text.Digits
import GitRemote.Proofs.Tree.Written
import Mathlib.Data.List.Basic

/-!
# The grammar of trees

A record is what the grammar allows for one entry: octal digits for a mode of 32 bits, a blank, a name
without NUL, a NUL and an id. A buffer decodes to its end exactly when it is one record after another,
and the entries are those of the records. Writing them back gives the buffer exactly when each record
has its mode in canonical form.
-/

namespace GitRemote

/-- One entry as the grammar of trees allows it. -/
structure Record where
  modeText : Bytes
  mode : Nat
  name : Bytes
  id : ObjectId
  mode_eq : Text.digits? 8 modeText = some mode
  mode_lt : mode < modeBound
  nonempty : name ≠ []
  nul_not_mem : 0 ∉ name

namespace Record

/-- The bytes of a record. -/
def bytes (r : Record) : Bytes := r.modeText ++ 0x20 :: (r.name ++ 0 :: r.id.octets)

/-- The entry that a record stands for. -/
def entry (r : Record) : Entry := ⟨canonicalMode r.mode, r.name, r.id⟩

/-- Whether a record has its mode as it is written. -/
def Canonical (r : Record) : Prop := r.modeText = Text.digitBytes 8 (canonicalMode r.mode)

instance (r : Record) : Decidable r.Canonical :=
  inferInstanceAs (Decidable (r.modeText = Text.digitBytes 8 (canonicalMode r.mode)))

end Record

/-! ### Modes -/

theorem digitValue?_blank : Text.digitValue? 8 0x20 = none := rfl

theorem digitValue?_nul : Text.digitValue? 8 0 = none := rfl

/-- A mode is read up to the blank behind its digits. -/
theorem modeOnto?_eq_some {value mode : Nat} {buf rest : Bytes} (hv : value < modeBound) :
    modeOnto? value buf = some (mode, rest) ↔ ∃ text, buf = text ++ 0x20 :: rest ∧
      Text.digitsOnto? 8 value text = some mode ∧ mode < modeBound := by
  constructor
  · intro h
    fun_induction modeOnto? value buf with
    | case1 => cases h
    | case2 value tail => cases h; exact ⟨[], rfl, rfl, hv⟩
    | case3 value b tail _ d hd hlt ih =>
      obtain ⟨text, rfl, hmode, hbound⟩ := ih hlt h
      exact ⟨b :: text, rfl, digitsOnto?_cons.mpr ⟨d, hd, hmode⟩, hbound⟩
    | case4 => cases h
    | case5 => cases h
  · rintro ⟨text, rfl, hmode, hbound⟩
    induction text generalizing value with
    | nil => cases hmode; rfl
    | cons b text ih =>
      obtain ⟨d, hd, hmore⟩ := digitsOnto?_cons.mp hmode
      have hblank : b ≠ 0x20 := by
        rintro rfl
        rw [digitValue?_blank] at hd
        cases hd
      -- the digits still to come only add to the value, so the bound holds on the way
      have hlt : value * 8 + d < modeBound :=
        Nat.lt_of_le_of_lt (le_of_digitsOnto? (by decide) hmore) hbound
      rw [List.cons_append, modeOnto?, if_neg hblank, hd]
      simp only [if_pos hlt]
      exact ih hlt hmore

/-- A mode is read from octal digits up to a blank, if it fits. -/
theorem mode?_eq_some {mode : Nat} {buf rest : Bytes} :
    mode? buf = some (mode, rest) ↔ ∃ text, buf = text ++ 0x20 :: rest ∧
      Text.digits? 8 text = some mode ∧ mode < modeBound := by
  have hhead : ∀ text, Text.digitsOnto? 8 0 text = some mode →
      ((text ++ 0x20 :: rest).head? = some 0x20 ↔ text = []) := by
    intro text hmode
    cases text with
    | nil => simp
    | cons b text =>
      have hblank := not_mem_of_digitsOnto? hmode digitValue?_blank
      rw [List.mem_cons, not_or] at hblank
      simpa using Ne.symm hblank.1
  rw [mode?]
  constructor
  · intro h
    split at h
    · cases h
    · next hfirst =>
      obtain ⟨text, rfl, hmode, hbound⟩ := (modeOnto?_eq_some (by decide)).mp h
      have hne : text ≠ [] := fun he => hfirst ((hhead text hmode).mpr he)
      exact ⟨text, rfl, digits?_eq_some.mpr ⟨hne, hmode⟩, hbound⟩
  · rintro ⟨text, rfl, hdigits, hbound⟩
    obtain ⟨hne, hmode⟩ := digits?_eq_some.mp hdigits
    rw [if_neg fun hfirst => hne ((hhead text hmode).mp hfirst)]
    exact (modeOnto?_eq_some (by decide)).mpr ⟨text, rfl, hmode, hbound⟩

/-! ### Names -/

/-- A name is read up to the first zero byte. -/
theorem name?_eq_some {buf name rest : Bytes} :
    name? buf = some (name, rest) ↔ 0 ∉ name ∧ buf = name ++ 0 :: rest := by
  constructor
  · intro h
    refine ⟨not_mem_of_name? h, ?_⟩
    fun_induction name? buf generalizing name with
    | case1 => cases h
    | case2 => cases h; rfl
    | case3 b tail _ ih =>
      obtain ⟨⟨n, r⟩, hn, hr⟩ := Option.map_eq_some_iff.1 h
      cases hr
      rw [ih hn, List.cons_append]
  · rintro ⟨hname, rfl⟩
    exact name?_append hname rest

/-- A name does not end without a zero byte. -/
theorem name?_eq_none {buf : Bytes} : name? buf = none ↔ 0 ∉ buf := by
  fun_induction name? buf with
  | case1 => simp
  | case2 => simp
  | case3 b tail hb ih => simp [ih, Ne.symm hb]

/-! ### Records -/

/-- A tree has a NUL in front of its last twenty bytes. -/
theorem endsLikeTree_iff {buf : Bytes} : endsLikeTree buf = true ↔
    ∃ lead octets, 3 ≤ lead.length ∧ octets.length = 20 ∧ buf = lead ++ 0 :: octets := by
  constructor
  · intro h
    simp only [endsLikeTree, shortestEntry, Bool.and_eq_true, beq_iff_eq] at h
    obtain ⟨hdecide, hnul⟩ := h
    have hlong : 24 ≤ buf.length := of_decide_eq_true hdecide
    obtain ⟨hlt, hget⟩ := List.getElem?_eq_some_iff.mp hnul
    refine ⟨buf.take (buf.length - 21), buf.drop (buf.length - 21 + 1), ?_, ?_, ?_⟩
    · rw [List.length_take]
      omega
    · rw [List.length_drop]
      omega
    · rw [← hget, ← List.drop_eq_getElem_cons hlt, List.take_append_drop]
  · rintro ⟨lead, octets, hlead, hoctets, rfl⟩
    exact endsLikeTree_append hlead hoctets

/-- The NUL in front of the last id stands behind everything that has no NUL. -/
theorem exists_of_append_eq_append_nul {front back lead octets : Bytes} (hfront : 0 ∉ front)
    (h : front ++ back = lead ++ 0 :: octets) :
    ∃ between, lead = front ++ between ∧ back = between ++ 0 :: octets := by
  rcases List.append_eq_append_iff.mp h with ⟨between, hlead, hback⟩ | ⟨rest, hrest, hnul⟩
  · exact ⟨between, hlead, hback⟩
  · cases rest with
    | nil => exact ⟨[], by simpa using hrest.symm, by simpa using hnul.symm⟩
    | cons b rest =>
      have hb : (0 : UInt8) = b := (List.cons.inj hnul).1
      rw [hrest, ← hb] at hfront
      exact absurd (by simp) hfront

namespace Record

/-- A record's mode has neither a blank nor a NUL. -/
theorem not_mem_modeText (r : Record) {b : UInt8} (hb : Text.digitValue? 8 b = none) :
    b ∉ r.modeText :=
  not_mem_of_digitsOnto? (digits?_eq_some.mp r.mode_eq).2 hb

theorem modeText_ne_nil (r : Record) : r.modeText ≠ [] := (digits?_eq_some.mp r.mode_eq).1

/-- A buffer with a record at its end ends like a tree. -/
theorem endsLikeTree_bytes (r : Record) (before : Bytes) :
    endsLikeTree (before ++ r.bytes) = true := by
  have hmode := List.length_pos_iff.mpr r.modeText_ne_nil
  have hname := List.length_pos_iff.mpr r.nonempty
  refine endsLikeTree_iff.mpr
    ⟨before ++ (r.modeText ++ 0x20 :: r.name), r.id.octets, ?_, r.id.size_eq, by simp [bytes]⟩
  simp only [List.length_append, List.length_cons]
  omega

theorem endsLikeTree_flatMap {rs : List Record} (hne : rs ≠ []) :
    endsLikeTree (rs.flatMap bytes) = true := by
  obtain ⟨before, last, rfl⟩ := List.eq_nil_or_concat' rs |>.resolve_left hne
  rw [List.flatMap_append, List.flatMap_singleton]
  exact last.endsLikeTree_bytes _

end Record

/-- Decoding reads one record. -/
theorem Entry.decode_eq_ok {buf rest : Bytes} {e : Entry} :
    Entry.decode buf = .ok (e, rest) ↔
      endsLikeTree buf = true ∧ ∃ r : Record, buf = r.bytes ++ rest ∧ e = r.entry := by
  constructor
  · intro h
    unfold Entry.decode at h
    split at h
    · next hends =>
      split at h
      · cases h
      · next mode afterMode hmode =>
        split at h
        · cases h
        · next name afterName hname =>
          split at h
          · cases h
          · next hempty =>
            split at h
            · cases h
            · next id hid =>
              cases h
              obtain ⟨text, rfl, hdigits, hbound⟩ := mode?_eq_some.mp hmode
              obtain ⟨hnul, rfl⟩ := name?_eq_some.mp hname
              rw [ObjectId.ofOctets?, Option.dite_none_right_eq_some] at hid
              obtain ⟨_, hoctets⟩ := hid
              cases hoctets
              refine ⟨hends, ⟨text, mode, name, _, hdigits, hbound, by simpa using hempty, hnul⟩,
                ?_, rfl⟩
              simp [Record.bytes]
    · cases h
  · rintro ⟨hends, r, rfl, rfl⟩
    have hmode : mode? (r.bytes ++ rest) =
        some (r.mode, r.name ++ 0 :: (r.id.octets ++ rest)) :=
      mode?_eq_some.mpr ⟨r.modeText, by simp [Record.bytes], r.mode_eq, r.mode_lt⟩
    have hempty : r.name.isEmpty = false := by simpa using r.nonempty
    have htake : (r.id.octets ++ rest).take 20 = r.id.octets := by
      rw [← r.id.size_eq, List.take_left]
    have hdrop : (r.id.octets ++ rest).drop 20 = rest := by
      rw [← r.id.size_eq, List.drop_left]
    rw [Entry.decode, if_pos hends, hmode]
    simp only [name?_append r.nul_not_mem, hempty, Bool.false_eq_true, ite_false, htake, hdrop,
      ObjectId.ofOctets?, r.id.size_eq, dite_true]
    rfl

/-! ### Trees -/

/-- An entry that cannot be decoded is the fault of the tree, and where it starts is told. -/
theorem decodeEntries_fault_of_error {size : Nat} {buf : Bytes} {f : EntryFault} (hne : buf ≠ [])
    (h : Entry.decode buf = .error f) :
    (decodeEntries size buf).fault = some (.corrupt (size - buf.length) f) := by
  have he : buf.isEmpty = false := by simpa using hne
  rw [decodeEntries, he]
  simp only [Bool.false_eq_true, ite_false]
  split
  · next f' hf => rw [h] at hf; cases hf; rfl
  · next e rest hok => rw [h] at hok; cases hok

/-- Records one after another decode to their entries, up to the end. -/
theorem decodeEntries_records (rs : List Record) (size : Nat) :
    (decodeEntries size (rs.flatMap Record.bytes)).pending.map Placed.entry =
        rs.map Record.entry ∧
      (decodeEntries size (rs.flatMap Record.bytes)).fault = none := by
  induction rs with
  | nil =>
    rw [List.flatMap_nil, decodeEntries_nil]
    exact ⟨rfl, rfl⟩
  | cons r rs ih =>
    have hdecode : Entry.decode ((r :: rs).flatMap Record.bytes) =
        .ok (r.entry, rs.flatMap Record.bytes) :=
      Entry.decode_eq_ok.mpr
        ⟨Record.endsLikeTree_flatMap (List.cons_ne_nil r rs), r, List.flatMap_cons, rfl⟩
    rw [decodeEntries_of_ok hdecode]
    exact ⟨congrArg (r.entry :: ·) ih.1, ih.2⟩

/-- What decodes to its end is one record after another. -/
theorem exists_records_of_fault_eq_none {size : Nat} {buf : Bytes}
    (h : (decodeEntries size buf).fault = none) :
    ∃ rs : List Record, buf = rs.flatMap Record.bytes := by
  induction hl : buf.length using Nat.strongRecOn generalizing buf with
  | ind n ih =>
    subst hl
    by_cases hne : buf = []
    · exact ⟨[], by rw [hne, List.flatMap_nil]⟩
    cases hd : Entry.decode buf with
    | error f =>
      rw [decodeEntries_fault_of_error hne hd] at h
      cases h
    | ok out =>
      obtain ⟨e, rest⟩ := out
      rw [decodeEntries_of_ok hd] at h
      obtain ⟨rs, rfl⟩ := ih rest.length (Entry.length_decode_lt hd) h rfl
      obtain ⟨-, r, rfl, -⟩ := Entry.decode_eq_ok.mp hd
      exact ⟨r :: rs, List.flatMap_cons.symm⟩

/-- A buffer decodes to its end, and to these entries, exactly when it is their records. -/
theorem scan_eq_iff {buf : Bytes} {es : List Entry} :
    ((Cursor.scan buf).entries = es ∧ (Cursor.scan buf).fault = none) ↔
      ∃ rs : List Record, buf = rs.flatMap Record.bytes ∧ es = rs.map Record.entry := by
  constructor
  · rintro ⟨rfl, hfault⟩
    obtain ⟨rs, rfl⟩ := exists_records_of_fault_eq_none hfault
    exact ⟨rs, rfl, (decodeEntries_records rs _).1⟩
  · rintro ⟨rs, rfl, rfl⟩
    exact decodeEntries_records rs _

/-- Texts before the first blank are equal when the whole is. -/
theorem append_blank_inj {text text' rest rest' : Bytes} (h : 0x20 ∉ text) (h' : 0x20 ∉ text') :
    text ++ 0x20 :: rest = text' ++ 0x20 :: rest' ↔ text = text' ∧ rest = rest' := by
  have hcut : ∀ {a : Bytes}, 0x20 ∉ a → ∀ b, Text.cut? (· == 0x20) (a ++ 0x20 :: b) = some (a, b) :=
    fun ha b => cut?_eq_some.mpr ⟨0x20, rfl, fun x hx => by
      rw [beq_eq_false_iff_ne]
      rintro rfl
      exact ha hx, rfl⟩
  constructor
  · intro heq
    have hboth := hcut h rest
    rw [heq, hcut h' rest', Option.some.injEq, Prod.mk.injEq] at hboth
    exact ⟨hboth.1.symm, hboth.2.symm⟩
  · rintro ⟨rfl, rfl⟩
    rfl

/-- A mode that is written has no blank. -/
theorem blank_not_mem_digitBytes (mode : Nat) : 0x20 ∉ Text.digitBytes 8 (canonicalMode mode) := by
  rcases canonicalMode_cases mode with h | h | h | h | h <;> rw [h] <;> decide

/-- Records are written back as they were exactly when their modes are canonical. -/
theorem treeOf_eq_flatMap_iff {rs : List Record} :
    treeOf (rs.map Record.entry) = rs.flatMap Record.bytes ↔ ∀ r ∈ rs, r.Canonical := by
  induction rs with
  | nil => simp [treeOf]
  | cons r rs ih =>
    have hwritten : treeOf ((r :: rs).map Record.entry) =
        Text.digitBytes 8 (canonicalMode r.mode) ++
          0x20 :: (r.name ++ 0 :: r.id.octets ++ treeOf (rs.map Record.entry)) := by
      simp [treeOf, Entry.encode, Record.entry]
    have hread : (r :: rs).flatMap Record.bytes =
        r.modeText ++ 0x20 :: (r.name ++ 0 :: r.id.octets ++ rs.flatMap Record.bytes) := by
      simp [Record.bytes]
    rw [hwritten, hread, append_blank_inj (blank_not_mem_digitBytes r.mode)
      (r.not_mem_modeText digitValue?_blank), List.append_cancel_left_eq, ih, List.forall_mem_cons,
      Record.Canonical, eq_comm]

end GitRemote
