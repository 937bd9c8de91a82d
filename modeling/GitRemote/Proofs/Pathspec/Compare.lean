import GitRemote.Proofs.Tree.Names
import GitRemote.Pathspec.Match
import Mathlib.Data.List.TakeWhile

/-!
# Comparing patterns with names

`agreeUpTo` stops at a NUL on both sides, so what it compares is the text in front of the first NUL,
folded where case does not count. Two texts agree on a number of bytes if their beginnings of that
length are the same list.
-/

namespace GitRemote

/-- The bytes in front of the first NUL, as they are compared. -/
def foldedText (icase : Bool) (a : Bytes) : Bytes := (a.takeWhile (· != 0)).map (foldByte icase)

/-- Folding makes no zero byte and hides none. -/
theorem foldByte_eq_zero {icase : Bool} {b : UInt8} : foldByte icase b = 0 ↔ b = 0 := by
  simp only [foldByte, lowerByte]
  grind

/-- Only a slash compares as one. -/
theorem foldByte_eq_slash {icase : Bool} {b : UInt8} : foldByte icase b = 0x2F ↔ b = 0x2F := by
  simp only [foldByte, lowerByte]
  grind

theorem foldedText_cons (icase : Bool) (x : UInt8) (a : Bytes) :
    foldedText icase (x :: a) = if x = 0 then [] else foldByte icase x :: foldedText icase a := by
  by_cases hx : x = 0 <;> simp [foldedText, hx]

/-- A text without NUL is compared to its end. -/
theorem foldedText_of_not_mem {icase : Bool} {a : Bytes} (h : 0 ∉ a) :
    foldedText icase a = a.map (foldByte icase) := by
  rw [foldedText, List.takeWhile_eq_self_iff.mpr]
  intro b hb
  have hb0 : b ≠ 0 := fun he => h (he ▸ hb)
  simpa using hb0

/-- The first byte that is compared, which is NUL behind the end. -/
private theorem foldedText_of_headD (icase : Bool) (a : Bytes) :
    (foldByte icase (a.headD 0) = 0 ∧ foldedText icase a = []) ∨
      (foldByte icase (a.headD 0) ≠ 0 ∧
        foldedText icase a = foldByte icase (a.headD 0) :: foldedText icase a.tail) := by
  cases a with
  | nil => exact Or.inl ⟨foldByte_eq_zero.mpr rfl, rfl⟩
  | cons x a =>
    rw [foldedText_cons, List.headD_cons, List.tail_cons]
    by_cases hx : x = 0
    · exact Or.inl ⟨foldByte_eq_zero.mpr hx, if_pos hx⟩
    · exact Or.inr ⟨fun h => hx (foldByte_eq_zero.mp h), if_neg hx⟩

/-- Two texts agree on their first bytes if these are the same. -/
theorem agreeUpTo_iff {icase : Bool} {n : Nat} {a b : Bytes} :
    agreeUpTo icase n a b = true ↔ (foldedText icase a).take n = (foldedText icase b).take n := by
  rw [agreeUpTo, beq_iff_eq]
  induction n generalizing a b with
  | zero => simp [compareUpTo]
  | succ n ih =>
    rw [compareUpTo]
    rcases foldedText_of_headD icase a with ⟨hx, ha⟩ | ⟨hx, ha⟩ <;>
      rcases foldedText_of_headD icase b with ⟨hy, hb⟩ | ⟨hy, hb⟩
    · simp only [hx, hy, ha, hb, ite_true]
    · simp only [hx, ha, hb, Ne.symm hy, ite_false, Std.compare_eq_iff_eq, List.take_nil,
        List.take_succ_cons, reduceCtorEq]
    · simp only [hy, ha, hb, hx, ite_false, Std.compare_eq_iff_eq, List.take_nil,
        List.take_succ_cons, reduceCtorEq]
    · rw [ha, hb, List.take_succ_cons, List.take_succ_cons, List.cons.injEq, ← ih]
      by_cases hxy : foldByte icase (a.headD 0) = foldByte icase (b.headD 0)
      · simp only [hxy, ite_true, hy, ite_false, true_and]
      · simp only [hxy, ite_false, Std.compare_eq_iff_eq, false_and]

theorem agreeUpTo_comm (icase : Bool) (n : Nat) (a b : Bytes) :
    agreeUpTo icase n a b = agreeUpTo icase n b a := by
  rw [Bool.eq_iff_iff, agreeUpTo_iff, agreeUpTo_iff, eq_comm]

/-- Texts that agree so far agree on fewer bytes as well. -/
theorem agreeUpTo_of_le {icase : Bool} {n m : Nat} {a b : Bytes}
    (h : agreeUpTo icase n a b = true) (hm : m ≤ n) : agreeUpTo icase m a b = true := by
  rw [agreeUpTo_iff] at h ⊢
  have hcut := congrArg (List.take m) h
  rwa [List.take_take, List.take_take, Nat.min_eq_left hm] at hcut

/-- What is behind the bytes that are compared makes no difference. -/
theorem agreeUpTo_append {icase : Bool} {n : Nat} {a : Bytes} (hn : n ≤ a.length) (s b : Bytes) :
    agreeUpTo icase n (a ++ s) b = agreeUpTo icase n a b := by
  have hcut : (foldedText icase (a ++ s)).take n = (foldedText icase a).take n := by
    simp only [foldedText, ← List.map_take, List.take_takeWhile,
      List.take_append_of_le_length hn]
  rw [Bool.eq_iff_iff, agreeUpTo_iff, agreeUpTo_iff, hcut]

/-- A text without NUL agrees with another if that one starts with its bytes. -/
theorem agreeUpTo_of_not_mem {icase : Bool} {n : Nat} {a b : Bytes} (h : 0 ∉ a)
    (hn : n ≤ a.length) :
    agreeUpTo icase n a b = true ↔
      n ≤ b.length ∧ (b.take n).map (foldByte icase) = (a.take n).map (foldByte icase) := by
  rw [agreeUpTo_iff, foldedText_of_not_mem h, ← List.map_take]
  constructor
  · intro he
    have hlen := congrArg List.length he
    simp only [List.length_map, List.length_take, foldedText] at hlen
    have hle := (List.takeWhile_sublist (l := b) (· != 0)).length_le
    have hnb : n ≤ (b.takeWhile (· != 0)).length := by omega
    have htake : b.take n = (b.takeWhile (· != 0)).take n := by
      conv_lhs => rw [← List.takeWhile_append_dropWhile (l := b) (p := (· != 0))]
      exact List.take_append_of_le_length hnb
    refine ⟨by omega, ?_⟩
    rw [htake, List.map_take, he]
    rfl
  · rintro ⟨_, he⟩
    have hfree : 0 ∉ b.take n := by
      intro h0
      have hmem : foldByte icase 0 ∈ (a.take n).map (foldByte icase) := he ▸ List.mem_map_of_mem h0
      obtain ⟨x, hx, hx0⟩ := List.mem_map.mp hmem
      rw [foldByte_eq_zero.mpr rfl, foldByte_eq_zero] at hx0
      exact h (hx0 ▸ List.mem_of_mem_take hx)
    rw [← he, foldedText, ← List.map_take, List.take_takeWhile,
      List.takeWhile_eq_self_iff.mpr]
    intro x hx
    simpa using fun h0 : x = 0 => hfree (h0 ▸ hx)

theorem compareUpTo_cons (n : Nat) (x y : UInt8) (a b : Bytes) :
    compareUpTo false (n + 1) (x :: a) (y :: b) =
      if x = y then if x = 0 then .eq else compareUpTo false n a b else compare x y := rfl

/-- Of two texts of which the first comes before the other within both, a byte is less. -/
theorem lt_of_compareUpTo {n : Nat} {a b : Bytes} (h : compareUpTo false n a b = .lt)
    (ha : n ≤ a.length) (hb : n ≤ b.length) :
    ∃ c u v s t, a = c ++ u :: s ∧ b = c ++ v :: t ∧ u < v := by
  induction n generalizing a b with
  | zero => simp [compareUpTo] at h
  | succ n ih =>
    cases a with
    | nil => simp at ha
    | cons x a =>
      cases b with
      | nil => simp at hb
      | cons y b =>
        rw [compareUpTo_cons] at h
        by_cases hxy : x = y
        · subst hxy
          by_cases hx : x = 0
          · rw [if_pos rfl, if_pos hx] at h
            cases h
          · rw [if_pos rfl, if_neg hx] at h
            obtain ⟨c, u, v, s, t, rfl, rfl, huv⟩ := ih h (by simpa using ha) (by simpa using hb)
            exact ⟨x :: c, u, v, s, t, rfl, rfl, huv⟩
        · rw [if_neg hxy] at h
          exact ⟨[], x, y, a, b, rfl, rfl, Std.compare_eq_lt.mp h⟩

end GitRemote
