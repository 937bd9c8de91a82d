import GitRemote.Text.Number
import Mathlib.Data.List.Induction

/-!
# Numbers and their digits

Digits are read from the front, one after another, and a number is written from its last digit. What is
read as a number are its digits as they are written, with any number of zeros in front of them.
-/

namespace GitRemote

variable {base : Nat}

/-! ### Reading digits -/

/-- More digits make no smaller number. -/
theorem le_of_digitsOnto? (hbase : 0 < base) {value n : Nat} {text : Bytes}
    (h : Text.digitsOnto? base value text = some n) : value ≤ n := by
  fun_induction Text.digitsOnto? base value text with
  | case1 => cases h; exact Nat.le_refl _
  | case2 value b rest d _ ih =>
    have hmore := ih h
    have hless : value ≤ value * base := Nat.le_mul_of_pos_right value hbase
    omega
  | case3 => cases h

/-- Digits are read one after the other, each below those before it. -/
theorem digitsOnto?_cons {value n : Nat} {b : UInt8} {text : Bytes} :
    Text.digitsOnto? base value (b :: text) = some n ↔
      ∃ d, Text.digitValue? base b = some d ∧
        Text.digitsOnto? base (value * base + d) text = some n := by
  rw [Text.digitsOnto?]
  cases Text.digitValue? base b <;> simp

/-- No byte among digits is without a value. -/
theorem not_mem_of_digitsOnto? {value n : Nat} {text : Bytes} {b : UInt8}
    (h : Text.digitsOnto? base value text = some n) (hb : Text.digitValue? base b = none) :
    b ∉ text := by
  induction text generalizing value with
  | nil => exact List.not_mem_nil
  | cons c text ih =>
    obtain ⟨d, hd, hmore⟩ := digitsOnto?_cons.mp h
    rw [List.mem_cons, not_or]
    refine ⟨?_, ih hmore⟩
    rintro rfl
    rw [hb] at hd
    cases hd

theorem digits?_eq_some {text : Bytes} {n : Nat} :
    Text.digits? base text = some n ↔ text ≠ [] ∧ Text.digitsOnto? base 0 text = some n := by
  cases text <;> simp [Text.digits?]

/-- Digits in two parts are read one part after the other. -/
theorem digitsOnto?_append {value n : Nat} {front back : Bytes} :
    Text.digitsOnto? base value (front ++ back) = some n ↔
      ∃ m, Text.digitsOnto? base value front = some m ∧
        Text.digitsOnto? base m back = some n := by
  induction front generalizing value with
  | nil => simp [Text.digitsOnto?]
  | cons b front ih =>
    rw [List.cons_append, digitsOnto?_cons]
    simp only [ih, digitsOnto?_cons]
    constructor
    · rintro ⟨d, hd, m, hfront, hback⟩
      exact ⟨m, ⟨d, hd, hfront⟩, hback⟩
    · rintro ⟨m, ⟨d, hd, hfront⟩, hback⟩
      exact ⟨d, hd, m, hfront, hback⟩

/-! ### Writing digits -/

/-- The byte of a digit below ten. -/
def digitByte (d : Nat) : UInt8 := UInt8.ofNat (0x30 + d)

/-- Up to base ten, the digits are the characters from zero on. -/
theorem digitValue?_eq_some (hbase : base ≤ 10) {b : UInt8} {d : Nat} :
    Text.digitValue? base b = some d ↔ d < base ∧ b = digitByte d := by
  have hzero : (0x30 : UInt8).toNat = 0x30 := rfl
  rw [Text.digitValue?, Option.ite_none_right_eq_some, Option.some.injEq, UInt8.le_iff_toNat_le,
    hzero]
  constructor
  · rintro ⟨⟨hlow, hhigh⟩, rfl⟩
    refine ⟨by omega, ?_⟩
    rw [digitByte, Nat.add_sub_cancel' hlow, UInt8.ofNat_toNat]
  · rintro ⟨hd, rfl⟩
    have hbyte : (digitByte d).toNat = 0x30 + d := by
      rw [digitByte, UInt8.toNat_ofNat']
      omega
    rw [hbyte]
    omega

/-- The last digit comes off the end. -/
theorem digitBytes_eq (hbase : 1 < base) (hten : base ≤ 10) (n : Nat) :
    Text.digitBytes base n =
      (if n < base then [] else Text.digitBytes base (n / base)) ++ [digitByte (n % base)] := by
  have hchar : ∀ d < 10, UInt8.ofNat (Nat.digitChar d).toNat = digitByte d := by decide
  rw [Text.digitBytes, Nat.toDigits_eq_if hbase]
  split
  · next hn =>
    rw [Nat.mod_eq_of_lt hn, List.map_singleton, hchar n (by omega), List.nil_append]
  · have hlast : n % base < base := Nat.mod_lt _ (by omega)
    rw [List.map_append, List.map_singleton, hchar _ (by omega), Text.digitBytes]

/-- A number is read back from its digits. -/
theorem digitsOnto?_digitBytes (hbase : 1 < base) (hten : base ≤ 10) (n : Nat) :
    Text.digitsOnto? base 0 (Text.digitBytes base n) = some n := by
  induction n using Nat.strongRecOn with
  | ind n ih =>
    have hlast : Text.digitValue? base (digitByte (n % base)) = some (n % base) :=
      (digitValue?_eq_some hten).mpr ⟨Nat.mod_lt _ (by omega), rfl⟩
    rw [digitBytes_eq hbase hten, digitsOnto?_append]
    refine ⟨n / base, ?_, digitsOnto?_cons.mpr ⟨n % base, hlast, ?_⟩⟩
    · split
      · next hn => rw [Nat.div_eq_of_lt hn, Text.digitsOnto?]
      · next hn => exact ih _ (Nat.div_lt_self (by omega) hbase)
    · rw [Text.digitsOnto?, Nat.div_add_mod']

/-- Zeros in front of digits add nothing. -/
theorem digitsOnto?_zeros (hbase : 0 < base) (zeros : Nat) (text : Bytes) :
    Text.digitsOnto? base 0 (List.replicate zeros 0x30 ++ text) =
      Text.digitsOnto? base 0 text := by
  have hzero : Text.digitValue? base 0x30 = some 0 := by
    rw [Text.digitValue?, if_pos ⟨UInt8.le_refl _, by simpa using hbase⟩]
    rfl
  induction zeros with
  | zero => rfl
  | succ zeros ih =>
    rw [List.replicate_succ, List.cons_append, Text.digitsOnto?, hzero]
    simpa using ih

/-- What is read as a number are its digits as they are written, behind any number of zeros. -/
theorem digits?_eq_some_iff_zeros (hbase : 1 < base) (hten : base ≤ 10) {text : Bytes} {n : Nat} :
    Text.digits? base text = some n ↔
      ∃ zeros, text = List.replicate zeros 0x30 ++ Text.digitBytes base n := by
  rw [digits?_eq_some]
  constructor
  · rintro ⟨hne, h⟩
    -- by the last digit: what stands in front of it is empty, or the same for the other digits
    induction text using List.reverseRecOn generalizing n with
    | nil => exact absurd rfl hne
    | append_singleton front b ih =>
      obtain ⟨m, hfront, hlast⟩ := digitsOnto?_append.mp h
      obtain ⟨d, hd, hn⟩ := digitsOnto?_cons.mp hlast
      obtain ⟨hlt, rfl⟩ := (digitValue?_eq_some hten).mp hd
      obtain rfl : m * base + d = n := Option.some.inj hn
      have hmod : (m * base + d) % base = d := by
        rw [Nat.mul_comm, Nat.mul_add_mod, Nat.mod_eq_of_lt hlt]
      have hdiv : (m * base + d) / base = m := by
        rw [Nat.mul_comm, Nat.mul_add_div (by omega), Nat.div_eq_of_lt hlt, Nat.add_zero]
      rw [digitBytes_eq hbase hten, hmod, hdiv]
      by_cases hempty : front = []
      · subst hempty
        obtain rfl : 0 = m := Option.some.inj hfront
        exact ⟨0, by simp [hlt]⟩
      · obtain ⟨zeros, rfl⟩ := ih hempty hfront
        by_cases hm : m = 0
        · subst hm
          have hzero : Text.digitBytes base 0 = [0x30] := by
            rw [digitBytes_eq hbase hten, if_pos (by omega), Nat.zero_mod]
            rfl
          refine ⟨zeros + 1, ?_⟩
          rw [hzero, Nat.zero_mul, Nat.zero_add, if_pos hlt, List.replicate_succ']
          rfl
        · have hmore : ¬ m * base + d < base := by
            have hle : 1 * base ≤ m * base := Nat.mul_le_mul_right base (by omega)
            omega
          exact ⟨zeros, by rw [if_neg hmore, List.append_assoc]⟩
  · rintro ⟨zeros, rfl⟩
    refine ⟨?_, ?_⟩
    · rw [digitBytes_eq hbase hten]
      simp
    · rw [digitsOnto?_zeros (by omega), digitsOnto?_digitBytes hbase hten]

end GitRemote
