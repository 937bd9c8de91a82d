import GitRemote.Proofs.Text.Cut
import GitRemote.Tree.Walk
import Mathlib.Data.List.Basic

/-!
# Names in byte order and in stored order

`compareNames` is the lexicographic order of bytes. Stored order is the same order on stored keys: a
name with the byte that stands after its end. The two disagree only about a directory and the names
that continue its own with a byte below the slash, which is what `sight` looks out for.
-/

namespace GitRemote

/-- The name `y` is `x` followed by a byte below the slash. -/
def Continues (x y : Bytes) : Prop := ∃ b s, y = x ++ b :: s ∧ b < 0x2F

/-- The name `y` can come behind `x` in a walk. -/
def Later (x y : Bytes) : Prop := x < y ∨ Continues y x

/-- Two names in byte order either agree up to the end of the first, or differ at some byte. -/
theorem lt_cases {a b : Bytes} (h : a < b) :
    (∃ y s, b = a ++ y :: s) ∨
      ∃ c u v s t, a = c ++ u :: s ∧ b = c ++ v :: t ∧ u < v := by
  induction a generalizing b with
  | nil =>
    cases b with
    | nil => exact absurd h (List.not_lt_nil _)
    | cons y s => exact Or.inl ⟨y, s, rfl⟩
  | cons x a ih =>
    cases b with
    | nil => exact absurd h (List.not_lt_nil _)
    | cons y b =>
      rcases List.cons_lt_cons_iff.mp h with hxy | ⟨rfl, hab⟩
      · exact Or.inr ⟨[], x, y, a, b, rfl, rfl, hxy⟩
      · rcases ih hab with ⟨z, s, rfl⟩ | ⟨c, u, v, s, t, rfl, rfl, huv⟩
        · exact Or.inl ⟨z, s, rfl⟩
        · exact Or.inr ⟨x :: c, u, v, s, t, rfl, rfl, huv⟩

/-- A byte that is smaller after a common part decides. -/
theorem append_cons_lt {c : Bytes} {u v : UInt8} (s t : Bytes) (h : u < v) :
    c ++ u :: s < c ++ v :: t :=
  List.append_left_lt (List.cons_lt_cons_iff.mpr (Or.inl h))

/-- A name is less than those that it begins. -/
theorem lt_append_cons (a : Bytes) (y : UInt8) (s : Bytes) : a < a ++ y :: s := by
  have h : a ++ [] < a ++ y :: s := List.append_left_lt (List.nil_lt_cons y s)
  simpa only [List.append_nil] using h

/-- A name comes no later than one it leads to. -/
theorem le_append (a s : Bytes) : a ≤ a ++ s := by
  cases s with
  | nil => rw [List.append_nil]; exact Std.le_refl _
  | cons y s => exact Std.le_of_lt (lt_append_cons a y s)

/-- A name between another and one that continues it continues it as well. -/
theorem Continues.of_between {x y z : Bytes} (h : Continues x z) (hxy : x < y) (hyz : y ≤ z) :
    Continues x y := by
  obtain ⟨b, s, rfl, hb⟩ := h
  rcases lt_cases hxy with ⟨y', t, rfl⟩ | ⟨c, u, v, s', t, rfl, rfl, huv⟩
  · refine ⟨y', t, rfl, ?_⟩
    by_contra hy
    have hby : b < y' := Std.lt_of_lt_of_le hb (Std.not_lt.mp hy)
    exact Std.not_lt.mpr hyz (append_cons_lt s t hby)
  · refine absurd ?_ (Std.not_lt.mpr hyz)
    rw [List.append_assoc]
    exact append_cons_lt _ _ huv

/-- Comparison of lists of bytes is the lexicographic order. -/
theorem compare_bytes_eq_lt {a b : Bytes} : compare a b = .lt ↔ a < b := by
  induction a generalizing b with
  | nil => cases b <;> simp
  | cons x a ih =>
    cases b with
    | nil => simp
    | cons y b =>
      rw [List.compare_cons_cons, List.cons_lt_cons_iff, ← ih, ← Std.compare_eq_lt (a := x),
        ← Std.compare_eq_iff_eq (a := x)]
      cases compare x y <;> simp

/-- Walks compare names byte by byte. -/
theorem compareNames_eq_compare (a b : Bytes) : compareNames a b = compare a b := by
  induction a generalizing b with
  | nil => cases b <;> rfl
  | cons x a ih =>
    cases b with
    | nil => rfl
    | cons y b => rw [compareNames, ih, List.compare_cons_cons]

/-- Comparing names is comparing their bytes in order. -/
theorem compareNames_eq_lt {a b : Bytes} : compareNames a b = .lt ↔ a < b := by
  rw [compareNames_eq_compare, compare_bytes_eq_lt]

theorem compareNames_eq_eq {a b : Bytes} : compareNames a b = .eq ↔ a = b := by
  rw [compareNames_eq_compare, Std.compare_eq_iff_eq]

/-- The name as trees are sorted by it: a directory's goes on with a slash, all others with NUL. -/
def Entry.storedKey (e : Entry) : Bytes := e.name ++ [terminator e.isDir]

/-- What ends a name comes no later than a slash. -/
theorem terminator_le (isDir : Bool) : terminator isDir ≤ 0x2F := by
  cases isDir <;> decide

/-- What a name may hold: no NUL, which would end it, and no slash. -/
def PlainName (name : Bytes) : Prop := 0 ∉ name ∧ 0x2F ∉ name

instance (name : Bytes) : Decidable (PlainName name) := inferInstanceAs (Decidable (_ ∧ _))

theorem PlainName.of_append_right {a b : Bytes} (h : PlainName (a ++ b)) : PlainName b :=
  ⟨fun hm => h.1 (List.mem_append_right a hm), fun hm => h.2 (List.mem_append_right a hm)⟩

/-- What ends a name is not in a plain one. -/
private theorem terminator_ne_of_plain {b : UInt8} {s : Bytes} (h : PlainName (b :: s))
    (isDir : Bool) : terminator isDir ≠ b := by
  rintro rfl
  cases isDir with
  | true => exact h.2 (List.mem_cons_self ..)
  | false => exact h.1 (List.mem_cons_self ..)

/-- Stored order compares stored keys byte by byte. -/
theorem compareStored_eq_compare {a b : Bytes} (ha : PlainName a) (hb : PlainName b)
    (aDir bDir : Bool) :
    compareStored a aDir b bDir = compare (a ++ [terminator aDir]) (b ++ [terminator bDir]) := by
  induction a generalizing b with
  | nil =>
    cases b with
    | nil =>
      rw [compareStored, List.nil_append, List.nil_append, List.compare_cons_cons]
      cases compare (terminator aDir) (terminator bDir) <;> rfl
    | cons y b =>
      have hne := terminator_ne_of_plain hb aDir
      have hc : compare (terminator aDir) y ≠ .eq := fun h => hne (Std.compare_eq_iff_eq.mp h)
      rw [compareStored, List.nil_append, List.cons_append, List.compare_cons_cons]
      cases he : compare (terminator aDir) y with
      | eq => exact absurd he hc
      | lt => rfl
      | gt => rfl
  | cons x a ih =>
    cases b with
    | nil =>
      have hne := terminator_ne_of_plain ha bDir
      have hc : compare x (terminator bDir) ≠ .eq :=
        fun h => hne (Std.compare_eq_iff_eq.mp h).symm
      rw [compareStored, List.nil_append, List.cons_append, List.compare_cons_cons]
      cases he : compare x (terminator bDir) with
      | eq => exact absurd he hc
      | lt => rfl
      | gt => rfl
    | cons y b =>
      have ha' : PlainName a := PlainName.of_append_right (a := [x]) ha
      have hb' : PlainName b := PlainName.of_append_right (a := [y]) hb
      rw [compareStored, ih ha' hb', List.cons_append, List.cons_append, List.compare_cons_cons]

/-- An entry stored behind one with a greater name is a directory whose name that one continues. -/
theorem continues_of_storedKey_lt {a b : Entry} (ha : PlainName a.name)
    (hk : a.storedKey < b.storedKey) (hn : b.name < a.name) : Continues b.name a.name := by
  rcases lt_cases hn with ⟨y, s, hy⟩ | ⟨c, u, v, s, t, hb, ha', huv⟩
  · refine ⟨y, s, hy, ?_⟩
    have hkey : b.name ++ y :: (s ++ [terminator a.isDir]) < b.name ++ [terminator b.isDir] := by
      simpa only [Entry.storedKey, hy, List.append_assoc, List.cons_append] using hk
    have hle : y ≤ 0x2F := by
      by_contra hgt
      have hlt : terminator b.isDir < y :=
        Std.lt_of_le_of_lt (terminator_le b.isDir) (Std.not_le.mp hgt)
      exact List.lt_asymm hkey (append_cons_lt _ _ hlt)
    have hne : y ≠ 0x2F := by
      rintro rfl
      rw [hy] at ha
      exact ha.2 (List.mem_append_right _ (List.mem_cons_self ..))
    exact Std.lt_of_le_of_ne hle hne
  · have hkey : c ++ v :: (t ++ [terminator a.isDir]) < c ++ u :: (s ++ [terminator b.isDir]) := by
      simpa only [Entry.storedKey, hb, ha', List.append_assoc, List.cons_append] using hk
    exact absurd hkey (List.lt_asymm (append_cons_lt _ _ huv))

/-- A name is found where it stands. -/
theorem sight_eq_found {first name : Bytes} : sight first name = .found ↔ name = first := by
  unfold sight
  cases hc : compareNames first name with
  | eq => simp [(compareNames_eq_eq.mp hc)]
  | gt =>
    have hne : name ≠ first := by
      rintro rfl
      rw [compareNames_eq_eq.mpr rfl] at hc
      cases hc
    simp [hne]
  | lt =>
    have hne : name ≠ first := by
      rintro rfl
      rw [compareNames_eq_eq.mpr rfl] at hc
      cases hc
    simp only [hne, iff_false]
    split
    · split <;> simp
    · simp

/-- The search ends only at a name that is greater and does not continue the one looked for. -/
theorem lt_of_sight_eq_absent {first name : Bytes} (h : sight first name = .absent) :
    first < name ∧ ¬ Continues first name := by
  unfold sight at h
  cases hc : compareNames first name with
  | eq => simp [hc] at h
  | gt => simp [hc] at h
  | lt =>
    refine ⟨compareNames_eq_lt.mp hc, ?_⟩
    rintro ⟨b, s, hs, hb⟩
    rw [hc, after?_eq_some.mpr hs] at h
    simp [hb] at h

end GitRemote
