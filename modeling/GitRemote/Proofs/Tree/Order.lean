import GitRemote.Proofs.Tree.Names
import GitRemote.Tree.Cursor

/-!
# Stored order without conditions on names

One entry is stored before another if its key has the lesser byte where the two first differ. This
holds of all names, those with a slash included, and it is transitive, although of two keys neither
need have a lesser byte. So entries of which each is stored before the next are in order throughout.
-/

namespace GitRemote

/-- The first list has the lesser byte where the two first differ. -/
inductive Below : Bytes → Bytes → Prop
  | here {u v : UInt8} {s t : Bytes} (h : u < v) : Below (u :: s) (v :: t)
  | behind (b : UInt8) {s t : Bytes} (h : Below s t) : Below (b :: s) (b :: t)

/-- The first byte decides, unless it is the same. -/
theorem below_cons_cons {u v : UInt8} {s t : Bytes} :
    Below (u :: s) (v :: t) ↔ u < v ∨ u = v ∧ Below s t := by
  constructor
  · intro h
    cases h with
    | here h => exact .inl h
    | behind _ h => exact .inr ⟨rfl, h⟩
  · rintro (h | ⟨rfl, h⟩)
    · exact .here h
    · exact .behind u h

/-- The first byte that differs decides. -/
theorem below_append_cons (c : Bytes) {u v : UInt8} (s t : Bytes) (h : u < v) :
    Below (c ++ u :: s) (c ++ v :: t) := by
  induction c with
  | nil => exact .here h
  | cons b c ih => exact .behind b ih

namespace Below

variable {x y z : Bytes}

/-- What is below is less. -/
theorem lt (h : Below x y) : x < y := by
  induction h with
  | here h => exact List.cons_lt_cons_iff.mpr (.inl h)
  | behind b _ ih => exact List.cons_lt_cons_iff.mpr (.inr ⟨rfl, ih⟩)

theorem asymm (h : Below x y) : ¬ Below y x := fun h' => List.lt_asymm h.lt h'.lt

theorem irrefl (x : Bytes) : ¬ Below x x := fun h => h.asymm h

/-- The order is transitive. -/
theorem trans (hxy : Below x y) (hyz : Below y z) : Below x z := by
  induction hxy generalizing z with
  | here h =>
    cases hyz with
    | here h' => exact .here (Std.lt_trans h h')
    | behind _ _ => exact .here h
  | behind b _ ih =>
    cases hyz with
    | here h' => exact .here h'
    | behind _ h' => exact .behind b (ih h')

/-- What follows the byte that decides does not matter. -/
theorem append (h : Below x y) (s t : Bytes) : Below (x ++ s) (y ++ t) := by
  induction h with
  | here h => exact .here h
  | behind b _ ih => exact .behind b ih

end Below

/-- Stored order asks for a byte that decides, be it in a name or behind its end. -/
theorem compareStored_eq_lt_iff_below {a b : Bytes} {aDir bDir : Bool} :
    compareStored a aDir b bDir = .lt ↔
      Below (a ++ [terminator aDir]) (b ++ [terminator bDir]) := by
  have hnil (s : Bytes) : ¬ Below [] s := by rintro ⟨⟩
  have hnil' (s : Bytes) : ¬ Below s [] := by rintro ⟨⟩
  fun_induction compareStored a aDir b bDir with
  | case1 => simp [below_cons_cons, hnil, Std.compare_eq_lt]
  | case2 => simp [below_cons_cons, hnil, Std.compare_eq_lt]
  | case3 => simp [below_cons_cons, hnil', Std.compare_eq_lt]
  | case4 x a aDir y b bDir ih =>
    rw [Ordering.then_eq_lt, Std.compare_eq_lt, Std.compare_eq_iff_eq, List.cons_append,
      List.cons_append, below_cons_cons]
    exact or_congr_right (and_congr_right fun _ => ih)

/-- An entry is stored before another one. -/
def Entry.StoredBefore (a b : Entry) : Prop := Below a.storedKey b.storedKey

theorem Entry.storedBefore_iff {a b : Entry} :
    a.StoredBefore b ↔ compareStored a.name a.isDir b.name b.isDir = .lt :=
  compareStored_eq_lt_iff_below.symm

instance : IsTrans Entry Entry.StoredBefore := ⟨fun _ _ _ hab hbc => Below.trans hab hbc⟩

/-- No neighbours are out of order just if every entry is stored before all behind it. -/
theorem firstDisorder?_eq_none_iff {es : List Entry} :
    firstDisorder? es = none ↔ es.Pairwise Entry.StoredBefore := by
  rw [← List.isChain_iff_pairwise]
  fun_induction firstDisorder? es with
  | case1 a b rest hab ih =>
    rw [List.isChain_cons_cons, and_iff_right (Entry.storedBefore_iff.mpr hab)]
    exact ih
  | case2 a b rest hab =>
    simp only [reduceCtorEq, false_iff, List.isChain_cons_cons, not_and]
    exact fun h => absurd (Entry.storedBefore_iff.mp h) hab
  | case3 es hshort =>
    cases es with
    | nil => simp
    | cons a rest =>
      cases rest with
      | nil => simp
      | cons b rest => exact absurd rfl (hshort a b rest)

/-- A tree is in order just if it decodes to its end and every entry is stored before all behind it.
-/
theorem Cursor.verifyOrder_eq_ok {c : Cursor} :
    c.verifyOrder = .ok () ↔ c.fault = none ∧ c.entries.Pairwise Entry.StoredBefore := by
  rw [← firstDisorder?_eq_none_iff, Cursor.verifyOrder]
  cases firstDisorder? c.entries with
  | some p => simp
  | none => cases c.fault <;> simp

end GitRemote
