import GitRemote.Proofs.Tree.WellFormed

/-!
# Trees as they are written

Writing entries one after another and reading the result gives the entries back. So entries that
stand in stored order under different names make up a well-formed tree.
-/

namespace GitRemote

/-- An entry that reads back as it was written. -/
structure Entry.Writable (e : Entry) : Prop where
  mode : canonicalMode e.mode = e.mode
  plain : PlainName e.name
  nonempty : e.name ≠ []

instance (e : Entry) : Decidable e.Writable :=
  decidable_of_iff (canonicalMode e.mode = e.mode ∧ PlainName e.name ∧ e.name ≠ [])
    ⟨fun h => ⟨h.1, h.2.1, h.2.2⟩, fun h => ⟨h.mode, h.plain, h.nonempty⟩⟩

/-- A file of this name, under an id of equal bytes. -/
def Entry.file (name : Bytes) (b : UInt8) : Entry :=
  ⟨modeFile, name, List.replicate 20 b, List.length_replicate⟩

/-- A directory of this name, under an id of equal bytes. -/
def Entry.directory (name : Bytes) (b : UInt8) : Entry :=
  ⟨modeTree, name, List.replicate 20 b, List.length_replicate⟩

/-- The bytes of a tree with these entries. -/
def treeOf (es : List Entry) : Bytes := es.flatMap Entry.encode

/-- Modes are brought into one of five forms. -/
theorem canonicalMode_cases (mode : Nat) :
    canonicalMode mode = modeFile ∨ canonicalMode mode = modeExecutable ∨
      canonicalMode mode = modeSymlink ∨ canonicalMode mode = modeTree ∨
      canonicalMode mode = modeGitlink := by
  unfold canonicalMode
  simp only
  split
  · split
    · exact Or.inl rfl
    · exact Or.inr (Or.inl rfl)
  · split
    · exact Or.inr (Or.inr (Or.inl rfl))
    · split
      · exact Or.inr (Or.inr (Or.inr (Or.inl rfl)))
      · exact Or.inr (Or.inr (Or.inr (Or.inr rfl)))

/-- A mode that is written reads back. -/
theorem mode?_digitBytes {mode : Nat} (h : canonicalMode mode = mode) (rest : Bytes) :
    mode? (Text.digitBytes 8 mode ++ 0x20 :: rest) = some (mode, rest) := by
  rw [← h]
  rcases canonicalMode_cases mode with h | h | h | h | h <;> rw [h] <;> rfl

/-- A name that is written reads back. -/
theorem name?_append {name : Bytes} (h : 0 ∉ name) (rest : Bytes) :
    name? (name ++ 0 :: rest) = some (name, rest) := by
  induction name with
  | nil => rfl
  | cons b name ih =>
    rw [List.mem_cons, not_or] at h
    rw [List.cons_append, name?, if_neg (Ne.symm h.1), ih h.2]
    rfl

/-- A zero byte and an id at the end, behind enough bytes, make the end of a tree. -/
theorem endsLikeTree_append {lead octets : Bytes} (hlead : 3 ≤ lead.length)
    (hoctets : octets.length = 20) : endsLikeTree (lead ++ 0 :: octets) = true := by
  have hlen : (lead ++ 0 :: octets).length = lead.length + 21 := by
    rw [List.length_append, List.length_cons, hoctets]
  have hat : (lead ++ 0 :: octets)[(lead ++ 0 :: octets).length - 21]? = some 0 := by
    rw [hlen, Nat.add_sub_cancel, List.getElem?_append_right (Nat.le_refl _), Nat.sub_self,
      List.getElem?_cons_zero]
  have hlong : shortestEntry ≤ (lead ++ 0 :: octets).length := by
    rw [hlen, shortestEntry]
    omega
  rw [endsLikeTree, hat, decide_eq_true hlong]
  rfl

/-- A buffer with an entry at its end ends like a tree. -/
theorem endsLikeTree_encode {e : Entry} (he : e.Writable) (before : Bytes) :
    endsLikeTree (before ++ e.encode) = true := by
  have hmode : 2 ≤ (Text.digitBytes 8 e.mode).length := by
    rw [← he.mode]
    rcases canonicalMode_cases e.mode with h | h | h | h | h <;> rw [h] <;> decide
  have hsplit : before ++ e.encode =
      (before ++ (Text.digitBytes 8 e.mode ++ 0x20 :: e.name)) ++ 0 :: e.id.octets := by
    simp [Entry.encode]
  rw [hsplit]
  refine endsLikeTree_append ?_ e.id.size_eq
  simp only [List.length_append, List.length_cons]
  omega

/-- A tree that was written of some entries ends like one. -/
theorem endsLikeTree_treeOf {es : List Entry} (he : ∀ e ∈ es, e.Writable) (hne : es ≠ []) :
    endsLikeTree (treeOf es) = true := by
  obtain ⟨before, last, rfl⟩ := List.eq_nil_or_concat' es |>.resolve_left hne
  rw [treeOf, List.flatMap_append, List.flatMap_singleton]
  exact endsLikeTree_encode (he last (by simp)) _

/-- The first entry of a tree reads back. -/
theorem decode_treeOf {e : Entry} {es : List Entry} (he : ∀ x ∈ e :: es, x.Writable) :
    Entry.decode (treeOf (e :: es)) = .ok (e, treeOf es) := by
  have hw := he e (List.mem_cons_self ..)
  have hends := endsLikeTree_treeOf he (List.cons_ne_nil e es)
  have hsplit : treeOf (e :: es) = Text.digitBytes 8 e.mode ++
      0x20 :: (e.name ++ 0 :: (e.id.octets ++ treeOf es)) := by
    simp [treeOf, Entry.encode]
  have hempty : e.name.isEmpty = false := by simpa using hw.nonempty
  have htake : (e.id.octets ++ treeOf es).take 20 = e.id.octets := by
    rw [← e.id.size_eq, List.take_left]
  have hdrop : (e.id.octets ++ treeOf es).drop 20 = treeOf es := by
    rw [← e.id.size_eq, List.drop_left]
  rw [Entry.decode, if_pos hends, hsplit, mode?_digitBytes hw.mode]
  simp only [name?_append hw.plain.1, hempty, Bool.false_eq_true, ite_false, htake, hdrop,
    ObjectId.ofOctets?, e.id.size_eq, dite_true, hw.mode]

/-- Reading what was written gives the entries back and ends without a fault. -/
theorem decodeEntries_treeOf {es : List Entry} (he : ∀ e ∈ es, e.Writable) (size : Nat) :
    (decodeEntries size (treeOf es)).pending.map Placed.entry = es ∧
      (decodeEntries size (treeOf es)).fault = none := by
  induction es with
  | nil =>
    rw [treeOf, List.flatMap_nil, decodeEntries_nil]
    exact ⟨rfl, rfl⟩
  | cons e es ih =>
    obtain ⟨hes, hfault⟩ := ih fun x hx => he x (List.mem_cons_of_mem e hx)
    rw [decodeEntries_of_ok (decode_treeOf he)]
    exact ⟨congrArg (e :: ·) hes, hfault⟩

/-- The entries of a tree that was written are those it was made of. -/
theorem entries_treeOf {es : List Entry} (he : ∀ e ∈ es, e.Writable) :
    (Cursor.scan (treeOf es)).entries = es :=
  (decodeEntries_treeOf he _).1

/-- A tree that was written gives a cursor. -/
theorem ofBytes_treeOf {es : List Entry} (he : ∀ e ∈ es, e.Writable) :
    Cursor.ofBytes (treeOf es) = .ok (Cursor.scan (treeOf es)) := by
  have hfault : (Cursor.scan (treeOf es)).fault = none := (decodeEntries_treeOf he _).2
  rw [Cursor.ofBytes]
  split
  · next e _ _ hscan => rw [hscan] at hfault; cases hfault
  · rfl

/-- Entries in stored order under different names are written as a well-formed tree. -/
theorem wellFormed_treeOf {es : List Entry} (he : ∀ e ∈ es, e.Writable)
    (hn : (es.map Entry.name).Nodup) (ho : firstDisorder? es = none) :
    (Cursor.scan (treeOf es)).WellFormed where
  read := ⟨treeOf es, ofBytes_treeOf he⟩
  ordered := by
    have hfault : (Cursor.scan (treeOf es)).fault = none := (decodeEntries_treeOf he _).2
    rw [Cursor.verifyOrder, entries_treeOf he, ho, hfault]
  slashFree e hx := by
    rw [entries_treeOf he] at hx
    exact (he e hx).plain.2
  distinct := by rwa [entries_treeOf he]

end GitRemote
