import GitRemote.Proofs.Tree.Indexed
import Mathlib.Order.Defs.Unbundled

/-!
# Sorted trees

`verifyOrder` looks at neighbours only. That is enough whatever the names hold, because stored order
asks for a byte that decides, and such an order is transitive; that two entries merely compare equal
is not, once a name may hold a slash. Among plain names stored order is total as well: it is the order
of stored keys, and a key tells the name and whether it is a directory's.
-/

namespace GitRemote

/-- A buffer is these entries to its end, decoded one after another. -/
inductive DecodesTo : Bytes → List Entry → Prop
  | nil : DecodesTo [] []
  | cons {buf rest : Bytes} {e : Entry} {es : List Entry}
      (h : Entry.decode buf = .ok (e, rest)) (later : DecodesTo rest es) : DecodesTo buf (e :: es)

/-- A buffer that decodes to entries is scanned to them, without a fault. -/
theorem DecodesTo.decodeEntries {buf : Bytes} {es : List Entry} (h : DecodesTo buf es)
    (size : Nat) : (decodeEntries size buf).entries = es ∧ (decodeEntries size buf).fault = none := by
  induction h with
  | nil =>
    rw [decodeEntries_nil]
    exact ⟨rfl, rfl⟩
  | cons h _ ih =>
    rw [decodeEntries_of_ok h]
    exact ⟨congrArg (_ :: ·) ih.1, ih.2⟩

/-- One record after another decodes record by record. -/
theorem decodesTo_records (rs : List Record) :
    DecodesTo (rs.flatMap Record.bytes) (rs.map Record.entry) := by
  induction rs with
  | nil => exact .nil
  | cons r rs ih =>
    refine .cons (Entry.decode_eq_ok.mpr ⟨?_, r, List.flatMap_cons, rfl⟩) ih
    exact Record.endsLikeTree_flatMap (List.cons_ne_nil r rs)

/-- A scan that meets no fault has decoded the buffer entry by entry. -/
theorem decodesTo_iff {buf : Bytes} {es : List Entry} :
    DecodesTo buf es ↔ (Cursor.scan buf).entries = es ∧ (Cursor.scan buf).fault = none := by
  refine ⟨fun h => h.decodeEntries buf.length, fun h => ?_⟩
  obtain ⟨rs, rfl, rfl⟩ := scan_eq_iff.mp h
  exact decodesTo_records rs

/-- A cursor on a buffer checks what a scan of it finds. -/
theorem ofBytes_verifyOrder_eq_ok {buf : Bytes} :
    (Cursor.ofBytes buf).bind Cursor.verifyOrder = .ok () ↔
      (Cursor.scan buf).verifyOrder = .ok () := by
  by_cases hstarts : (Cursor.scan buf).pending ≠ [] ∨ (Cursor.scan buf).fault = none
  · rw [Cursor.ofBytes_eq_ok hstarts]
    rfl
  · rw [not_or, not_not, ← ne_eq, Option.ne_none_iff_exists'] at hstarts
    obtain ⟨hpending, f, hfault⟩ := hstarts
    rw [Cursor.ofBytes_eq_error hpending hfault, Cursor.verifyOrder_eq_ok, hfault]
    simp [Except.bind]

/-- What ends a name tells directories from the rest. -/
theorem terminator_injective : Function.Injective terminator := by
  intro aDir bDir h
  cases aDir <;> cases bDir <;> first | rfl | cases h

/-- A plain name, and whether it is a directory's. -/
structure StoredName where
  name : Bytes
  isDir : Bool
  plain : PlainName name
  deriving DecidableEq

namespace StoredName

variable {a b c : StoredName}

/-- The name as trees are sorted by it. -/
def key (a : StoredName) : Bytes := a.name ++ [terminator a.isDir]

/-- The one is stored before the other. -/
def Before (a b : StoredName) : Prop := compareStored a.name a.isDir b.name b.isDir = .lt

/-- A name and its kind can be told from the key. -/
theorem key_injective : Function.Injective key := by
  rintro ⟨x, xDir, hx⟩ ⟨y, yDir, hy⟩ h
  obtain ⟨hname, hterminator⟩ := List.append_inj' h rfl
  obtain rfl : x = y := hname
  obtain rfl : xDir = yDir := terminator_injective (List.singleton_inj.mp hterminator)
  rfl

/-- The stored order is that of the keys. -/
theorem compareStored_eq (a b : StoredName) :
    compareStored a.name a.isDir b.name b.isDir = compare a.key b.key :=
  compareStored_eq_compare a.plain b.plain a.isDir b.isDir

theorem compareStored_eq_eq :
    compareStored a.name a.isDir b.name b.isDir = .eq ↔ a = b := by
  rw [compareStored_eq, Std.compare_eq_iff_eq, key_injective.eq_iff]

theorem before_iff_below : a.Before b ↔ Below a.key b.key := compareStored_eq_lt_iff_below

instance : IsStrictTotalOrder StoredName Before where
  irrefl a h := Below.irrefl _ (before_iff_below.mp h)
  trans _ _ _ hab hbc :=
    before_iff_below.mpr ((before_iff_below.mp hab).trans (before_iff_below.mp hbc))
  trichotomous a b hab hba := by
    rw [Before, compareStored_eq, compare_bytes_eq_lt, Std.not_lt] at hab hba
    exact key_injective (Std.le_antisymm hba hab)

end StoredName

/-- Neighbours that are in order say that all entries are: a buffer passes the check exactly if it
decodes to its end and every entry is stored before all behind it, be there slashes in names or not.
And on plain names the comparison is the bytewise one of names that a slash or NUL ends, which is a
strict total order of names with their kinds. -/
theorem neighbours_decide_stored_order :
    (∀ buf, (Cursor.ofBytes buf).bind Cursor.verifyOrder = .ok () ↔
      ∃ es, DecodesTo buf es ∧ ∀ (i j : Nat) (hij : i < j) (hj : j < es.length),
        compareStored es[i].name es[i].isDir es[j].name es[j].isDir = .lt) ∧
    (∀ a b : StoredName,
      compareStored a.name a.isDir b.name b.isDir =
        compare (a.name ++ [if a.isDir then 0x2F else 0])
          (b.name ++ [if b.isDir then 0x2F else 0]) ∧
      (compareStored a.name a.isDir b.name b.isDir = .eq ↔ a = b)) ∧
    IsStrictTotalOrder StoredName fun a b =>
      compareStored a.name a.isDir b.name b.isDir = .lt := by
  refine ⟨fun buf => ?_, fun a b => ⟨StoredName.compareStored_eq a b,
    StoredName.compareStored_eq_eq⟩, inferInstanceAs (IsStrictTotalOrder StoredName StoredName.Before)⟩
  have hbefore (es : List Entry) : es.Pairwise Entry.StoredBefore ↔
      ∀ (i j : Nat) (hij : i < j) (hj : j < es.length),
        compareStored es[i].name es[i].isDir es[j].name es[j].isDir = .lt := by
    rw [List.pairwise_iff_getElem]
    exact ⟨fun h i j hij hj => Entry.storedBefore_iff.mp (h i j (by omega) hj hij),
      fun h i j _ hj hij => Entry.storedBefore_iff.mpr (h i j hij hj)⟩
  rw [ofBytes_verifyOrder_eq_ok, Cursor.verifyOrder_eq_ok]
  constructor
  · rintro ⟨hfault, hordered⟩
    exact ⟨_, decodesTo_iff.mpr ⟨rfl, hfault⟩, (hbefore _).mp hordered⟩
  · rintro ⟨es, hdecodes, hall⟩
    obtain ⟨rfl, hfault⟩ := decodesTo_iff.mp hdecodes
    exact ⟨hfault, (hbefore _).mpr hall⟩

/-- Files whose names hold a slash, which no tree of git's own making has. -/
def slashedEntries : List Entry :=
  [.file (bytesOf "t") 1, .file (bytesOf "t/x") 2, .file (bytesOf "t/y") 3,
    .directory (bytesOf "u") 4]

theorem decodesTo_slashedEntries : DecodesTo (treeOf slashedEntries) slashedEntries := by
  have hdecode (i : Fin 4) : Entry.decode (treeOf (slashedEntries.drop i)) =
      .ok (slashedEntries[i], treeOf (slashedEntries.drop (i + 1))) := by
    revert i
    decide +kernel
  exact .cons (hdecode 0) (.cons (hdecode 1) (.cons (hdecode 2) (.cons (hdecode 3) .nil)))

/-- A tree with slashes in names passes the check because its neighbours do, and the last entry is
behind the first. -/
theorem neighbours_decide_stored_order_slashes :
    (Cursor.ofBytes (treeOf slashedEntries)).bind Cursor.verifyOrder = .ok () ∧
    ∃ es, DecodesTo (treeOf slashedEntries) es ∧
      ∀ (i j : Nat) (hij : i < j) (hj : j < es.length),
        compareStored es[i].name es[i].isDir es[j].name es[j].isDir = .lt := by
  have hordered : slashedEntries.Pairwise Entry.StoredBefore :=
    firstDisorder?_eq_none_iff.mp (by decide)
  have hpasses := (neighbours_decide_stored_order.1 (treeOf slashedEntries)).mpr
    ⟨slashedEntries, decodesTo_slashedEntries, fun i j hij hj => Entry.storedBefore_iff.mp
      (List.pairwise_iff_getElem.mp hordered i j (by omega) hj hij)⟩
  exact ⟨hpasses, (neighbours_decide_stored_order.1 (treeOf slashedEntries)).mp hpasses⟩

/-- Where slashes are allowed, comparing equal is not transitive: both files compare equal to the
directory, and one is before the other. -/
example :
    compareStored (bytesOf "t/x") false (bytesOf "t") true = .eq ∧
    compareStored (bytesOf "t") true (bytesOf "t/y") false = .eq ∧
    compareStored (bytesOf "t/x") false (bytesOf "t/y") false = .lt := by decide

end GitRemote
