import GitRemote.Proofs.Tree.Record

/-!
# Reading trees by position

The same tree read by positions in its buffer: every index and every slice is looked up and may lie
outside, and a read entry says how many bytes it took. No look-up ever does lie outside, and reading
by position, reading to the end and walking a cursor give the same entries at the same offsets and
stop with the same fault.
-/

namespace GitRemote

theorem slice?_eq_some {buf : Bytes} {start stop : Nat} (h : start ≤ stop) (hs : stop ≤ buf.length) :
    slice? buf start stop = some ((buf.take stop).drop start) := if_pos ⟨h, hs⟩

/-- The rest of a buffer is a slice. -/
theorem slice?_rest {buf : Bytes} {start : Nat} (h : start ≤ buf.length) :
    slice? buf start buf.length = some (buf.drop start) := by
  rw [slice?_eq_some h (Nat.le_refl _), List.take_length]

/-- A part of a buffer is the slice between its ends. -/
theorem slice?_middle (front middle back : Bytes) :
    slice? (front ++ (middle ++ back)) front.length (front.length + middle.length) =
      some middle := by
  rw [slice?_eq_some (Nat.le_add_right _ _) (by simp), List.take_length_add_append,
    List.take_left, List.drop_left]

/-- The first NUL of a buffer stands where the name ends. -/
theorem idxOf?_nul (buf : Bytes) : buf.idxOf? 0 = (name? buf).map fun p => p.1.length := by
  induction buf with
  | nil => rfl
  | cons b buf ih =>
    rw [List.idxOf?_cons, name?]
    by_cases hb : b = 0
    · simp [hb]
    · simp [hb, ih, Function.comp_def]

/-- A mode read by positions ends where the mode read from the rest does, as long as there is a NUL
ahead to stop at. -/
theorem modeFrom?_append (front : Bytes) {buf : Bytes} (value : Nat) (h : 0 ∈ buf) :
    modeFrom? (front ++ buf) value front.length =
      some (match modeOnto? value buf with
        | some (mode, rest) => .ok (mode, front.length + (buf.length - rest.length))
        | none => .error .malformedMode) := by
  induction buf generalizing front value with
  | nil => cases h
  | cons b buf ih =>
    have hpos : front.length < (front ++ b :: buf).length := by simp
    have hat : (front ++ b :: buf)[front.length] = b := by simp
    rw [modeFrom?, dif_pos hpos, hat, modeOnto?]
    by_cases hblank : b = 0x20
    · simp [hblank]
    rw [if_neg hblank, if_neg hblank]
    cases hd : Text.digitValue? 8 b with
    | none => rfl
    | some d =>
      by_cases hbound : value * 8 + d < modeBound
      · have hb : b ≠ 0 := by
          rintro rfl
          rw [digitValue?_nul] at hd
          cases hd
        have hnul : 0 ∈ buf := (List.mem_cons.mp h).resolve_left (Ne.symm hb)
        have hnext := ih (front ++ [b]) (value * 8 + d) hnul
        rw [List.append_assoc, List.singleton_append, List.length_append] at hnext
        simp only [if_pos hbound]
        rw [List.length_singleton] at hnext
        rw [hnext]
        cases hm : modeOnto? (value * 8 + d) buf with
        | none => rfl
        | some out =>
          have hlt := length_modeOnto_lt hm
          simp only [List.length_cons]
          congr 3
          omega
      · simp only [if_neg hbound]

/-- The name and the id behind a mode lie inside of the buffer. -/
theorem nameFrom?_append (front : Bytes) {name octets tail : Bytes} (hname : 0 ∉ name)
    (ho : octets.length = 20) (mode : Nat) :
    nameFrom? (front ++ (name ++ 0 :: (octets ++ tail))) mode front.length =
      some (if name = [] then .error .emptyName
        else .ok (⟨canonicalMode mode, name, octets, ho⟩, front.length + name.length + 21)) := by
  have hrest : slice? (front ++ (name ++ 0 :: (octets ++ tail))) front.length
      (front ++ (name ++ 0 :: (octets ++ tail))).length = some (name ++ 0 :: (octets ++ tail)) := by
    rw [slice?_rest (by simp), List.drop_left]
  have hat : (name ++ 0 :: (octets ++ tail)).idxOf? 0 = some name.length := by
    rw [idxOf?_nul, name?_append hname, Option.map_some]
  have hoctets : slice? (front ++ (name ++ 0 :: (octets ++ tail)))
      (front.length + name.length + 1) (front.length + name.length + 1 + 20) = some octets := by
    have hmiddle := slice?_middle (front ++ name ++ [0]) octets tail
    simpa [ho, Nat.add_assoc] using hmiddle
  rw [nameFrom?, hrest]
  simp only [Option.bind_eq_bind, Option.bind_some, hat, List.length_eq_zero_iff, slice?_middle,
    hoctets, ObjectId.ofOctets?, ho, dite_true]
  split <;> rfl

/-- Where a tree ends, a mode is followed by a NUL and at least an id's bytes: the entry behind a
mode that was read fails for an empty name only. -/
theorem Entry.decode_of_mode {buf afterMode : Bytes} {mode : Nat} (hends : endsLikeTree buf = true)
    (hmode : mode? buf = some (mode, afterMode)) :
    ∃ name octets tail, ∃ ho : octets.length = 20, 0 ∉ name ∧
      afterMode = name ++ 0 :: (octets ++ tail) ∧
      Entry.decode buf = if name = [] then .error .emptyName
        else .ok (⟨canonicalMode mode, name, octets, ho⟩, tail) := by
  obtain ⟨text, hbuf, hdigits, -⟩ := mode?_eq_some.mp hmode
  have hfront : 0 ∉ text ++ [0x20] := by
    have htext := not_mem_of_digitsOnto? (digits?_eq_some.mp hdigits).2 digitValue?_nul
    simpa using htext
  obtain ⟨lead, last, -, hlast, hlead⟩ := endsLikeTree_iff.mp hends
  have hboth : (text ++ [0x20]) ++ afterMode = lead ++ 0 :: last := by
    rw [← hlead, hbuf, List.append_assoc, List.singleton_append]
  obtain ⟨between, -, hafter⟩ := exists_of_append_eq_append_nul hfront hboth
  cases hn : name? afterMode with
  | none =>
    have hno := name?_eq_none.mp hn
    rw [hafter] at hno
    exact absurd (by simp) hno
  | some out =>
    obtain ⟨name, afterName⟩ := out
    obtain ⟨hname, hsplit⟩ := name?_eq_some.mp hn
    obtain ⟨later, -, hlater⟩ := exists_of_append_eq_append_nul hname (hsplit.symm.trans hafter)
    have hlong : 20 ≤ afterName.length := by
      have hlen := congrArg List.length hlater
      simp only [List.length_cons, List.length_append, hlast] at hlen
      omega
    have ho : (afterName.take 20).length = 20 := by rw [List.length_take, Nat.min_eq_left hlong]
    refine ⟨name, afterName.take 20, afterName.drop 20, ho, hname, ?_, ?_⟩
    · rw [hsplit, List.take_append_drop]
    · rw [Entry.decode, if_pos hends, hmode]
      simp only [hn, List.isEmpty_iff, ObjectId.ofOctets?, ho, dite_true]

/-- A mode is read by positions as from the front of the buffer. -/
theorem modeFrom?_zero {buf : Bytes} (hnul : 0 ∈ buf) (hhead : buf.head? ≠ some 0x20) :
    modeFrom? buf 0 0 = some (match mode? buf with
      | some (mode, rest) => .ok (mode, buf.length - rest.length)
      | none => .error .malformedMode) := by
  have hfrom := modeFrom?_append [] 0 hnul
  simp only [List.nil_append, List.length_nil, Nat.zero_add] at hfrom
  rw [hfrom, mode?, if_neg hhead]

/-- Behind a mode that was read, reading by positions finds what is decoded. -/
theorem nameFrom?_of_mode {buf afterMode : Bytes} {mode : Nat} (hends : endsLikeTree buf = true)
    (hmode : mode? buf = some (mode, afterMode)) :
    nameFrom? buf mode (buf.length - afterMode.length) =
      some ((Entry.decode buf).map fun (e, rest) => (e, buf.length - rest.length)) := by
  obtain ⟨text, hbuf, -, -⟩ := mode?_eq_some.mp hmode
  obtain ⟨name, octets, tail, ho, hname, hafter, hdecode⟩ := Entry.decode_of_mode hends hmode
  have hsplit : buf = (text ++ [0x20]) ++ (name ++ 0 :: (octets ++ tail)) := by
    rw [hbuf, hafter, List.append_assoc, List.singleton_append]
  have hpos : buf.length - afterMode.length = (text ++ [0x20]).length := by
    rw [hbuf]
    simp only [List.length_append, List.length_cons, List.length_nil]
    omega
  have hlength : buf.length - tail.length = (text ++ [0x20]).length + name.length + 21 := by
    rw [hsplit]
    simp only [List.length_append, List.length_cons, ho]
    omega
  calc nameFrom? buf mode (buf.length - afterMode.length)
      = nameFrom? ((text ++ [0x20]) ++ (name ++ 0 :: (octets ++ tail))) mode
          (text ++ [0x20]).length := by rw [hpos, ← hsplit]
    _ = some (if name = [] then .error .emptyName
          else .ok (⟨canonicalMode mode, name, octets, ho⟩,
            (text ++ [0x20]).length + name.length + 21)) := nameFrom?_append _ hname ho mode
    _ = _ := by
      rw [hdecode, ← hlength]
      split <;> rfl

/-- Reading by positions checks the end of the buffer as decoding does. -/
theorem decodeFront?_of_not_ends {buf : Bytes} (hends : endsLikeTree buf = false) :
    decodeFront? buf = some (.error .tooShort) := by
  rw [decodeFront?]
  split
  · rfl
  · next hlong =>
    have hin : buf.length - 21 < buf.length := by
      rw [shortestEntry] at hlong
      omega
    have hnul : buf[buf.length - 21] ≠ 0 := by
      rw [endsLikeTree, decide_eq_true (Nat.le_of_not_lt hlong), Bool.true_and,
        List.getElem?_eq_getElem hin] at hends
      simpa using hends
    simp only [List.getElem?_eq_getElem hin, Option.bind_eq_bind, Option.bind_some, if_pos hnul]
    rfl

/-- By indices, the first entry of a buffer that ends like a tree is the one that is decoded. -/
theorem decodeFront?_of_ends {buf : Bytes} (hends : endsLikeTree buf = true) :
    decodeFront? buf = some ((Entry.decode buf).map fun (e, rest) =>
      (e, buf.length - rest.length)) := by
  have hboth := hends
  rw [endsLikeTree, Bool.and_eq_true, beq_iff_eq] at hboth
  obtain ⟨hlong, hnul⟩ := hboth
  have hmem : 0 ∈ buf := List.mem_of_getElem? hnul
  obtain ⟨b, tail, rfl⟩ := List.exists_cons_of_ne_nil (List.ne_nil_of_mem hmem)
  rw [decodeFront?, if_neg (Nat.not_lt_of_le (of_decide_eq_true hlong)), hnul,
    List.getElem?_cons_zero]
  simp only [Option.bind_eq_bind, Option.bind_some, ne_eq, not_true_eq_false, ite_false]
  by_cases hblank : b = 0x20
  · rw [if_pos hblank, Entry.decode, if_pos hends, mode?, hblank]
    rfl
  rw [if_neg hblank, modeFrom?_zero hmem (by simpa using hblank), Option.bind_some]
  cases hmode : mode? (b :: tail) with
  | none =>
    rw [Entry.decode, if_pos hends, hmode]
    rfl
  | some out => exact nameFrom?_of_mode hends hmode

/-- Reading the entry at the front by positions never looks outside of the buffer, and finds what is
decoded. -/
theorem decodeFront?_eq (buf : Bytes) :
    decodeFront? buf = some ((Entry.decode buf).map fun (e, rest) =>
      (e, buf.length - rest.length)) := by
  cases hends : endsLikeTree buf with
  | false =>
    rw [decodeFront?_of_not_ends hends, Entry.decode, hends]
    rfl
  | true => exact decodeFront?_of_ends hends

/-- Reading an entry by positions never looks outside of the buffer, and finds what is decoded from
the offset on. -/
theorem decodeAt?_eq {buf : Bytes} {offset : Nat} (h : offset ≤ buf.length) :
    decodeAt? buf offset = some ((Entry.decode (buf.drop offset)).map fun (e, rest) =>
      (e, buf.length - offset - rest.length)) := by
  rw [decodeAt?, slice?_rest h]
  simp only [Option.bind_eq_bind, Option.bind_some, decodeFront?_eq, List.length_drop]

/-! ### Whole trees -/

/-- What follows an entry is the buffer behind its length. -/
theorem Entry.rest_of_decode {buf rest : Bytes} {e : Entry} (h : Entry.decode buf = .ok (e, rest)) :
    rest = buf.drop (buf.length - rest.length) := by
  obtain ⟨-, r, rfl, -⟩ := Entry.decode_eq_ok.mp h
  rw [List.length_append, Nat.add_sub_cancel, List.drop_left]

/-- Reading by positions finds the entries and the fault of a scan. -/
theorem entriesFrom?_eq {buf : Bytes} {offset : Nat} (h : offset ≤ buf.length) :
    entriesFrom? buf offset = some ((decodeEntries buf.length (buf.drop offset)).pending,
      (decodeEntries buf.length (buf.drop offset)).fault) := by
  have hstart : buf.length - (buf.drop offset).length = offset := by
    rw [List.length_drop]
    omega
  fun_induction entriesFrom? buf offset with
  | case1 offset hend =>
    rw [List.drop_eq_nil_of_le hend, decodeEntries_nil]
  | case2 offset hend hd =>
    rw [decodeAt?_eq h] at hd
    cases hd
  | case3 offset hend f hd =>
    have hne : buf.drop offset ≠ [] := by
      rw [Ne, List.drop_eq_nil_iff]
      exact hend
    rw [decodeAt?_eq h, Option.some.injEq] at hd
    cases hdecode : Entry.decode (buf.drop offset) with
    | error f' =>
      rw [hdecode] at hd
      cases hd
      rw [decodeEntries_of_error hne hdecode, decodeEntries_fault_of_error hne hdecode, hstart]
    | ok out => rw [hdecode] at hd; cases hd
  | case4 offset hend e length hd ih =>
    rw [decodeAt?_eq h, Option.some.injEq] at hd
    cases hdecode : Entry.decode (buf.drop offset) with
    | error f => rw [hdecode] at hd; cases hd
    | ok out =>
      obtain ⟨e', rest⟩ := out
      rw [hdecode] at hd
      cases hd
      have hrest := Entry.rest_of_decode hdecode
      rw [List.length_drop, List.drop_drop] at hrest
      have hlt := Entry.length_decode_lt hdecode
      rw [List.length_drop] at hlt
      rw [ih (by omega) (by rw [List.length_drop]; omega), ← hrest, decodeEntries_of_ok hdecode,
        hstart]
      rfl

namespace Cursor

/-- Moving behind an entry leaves fewer of them. -/
theorem length_pending_advance {c next : Cursor} {e : Entry} (hcurrent : c.current? = some e)
    (h : c.advance = .ok next) : next.pending.length < c.pending.length := by
  cases hpending : c.pending with
  | nil =>
    rw [current?, hpending] at hcurrent
    cases hcurrent
  | cons p later =>
    unfold advance at h
    split at h
    · cases h
    · cases h
      simp [dropFirst, hpending]

/-- The entries that a cursor meets on its way to the end of the tree, each with where it starts, and
the fault that ends the way. -/
def walk (c : Cursor) : List Placed × Option TreeError :=
  match _h : c.current? with
  | none => ([], none)
  | some e =>
    match _ha : c.advance with
    | .error f => ([⟨c.offset, e⟩], some f)
    | .ok next => (⟨c.offset, e⟩ :: next.walk.1, next.walk.2)
termination_by c.pending.length
decreasing_by all_goals exact length_pending_advance _h _ha

/-- The walk over a buffer by a cursor that starts at its front. -/
def walkBytes (buf : Bytes) : List Placed × Option TreeError :=
  match ofBytes buf with
  | .error f => ([], some f)
  | .ok c => c.walk

/-- A cursor at its end gives no entry. -/
theorem walk_of_nil {c : Cursor} (h : c.pending = []) : c.walk = ([], none) := by
  have hcurrent : c.current? = none := by rw [current?, h]; rfl
  rw [walk]
  split
  · rfl
  · next e he => rw [hcurrent] at he; cases he

/-- A walk that moves on meets the current entry and what the walk from behind it meets. -/
theorem walk_of_advance {c next : Cursor} {p : Placed} {later : List Placed}
    (hpending : c.pending = p :: later) (h : c.advance = .ok next) :
    c.walk = (p :: next.walk.1, next.walk.2) := by
  have hcurrent : c.current? = some p.entry := by rw [current?, hpending]; rfl
  have hoffset : c.offset = p.offset := by rw [offset, hpending]
  rw [walk]
  split
  · next hnone => rw [hcurrent] at hnone; cases hnone
  · next e he =>
    rw [hcurrent] at he
    cases he
    split
    · next f hf => rw [h] at hf; cases hf
    · next next' hnext =>
      rw [h] at hnext
      cases hnext
      rw [hoffset]

/-- A walk that cannot move on ends with the fault ahead. -/
theorem walk_of_fault {c : Cursor} {p : Placed} {later : List Placed} {f : TreeError}
    (hpending : c.pending = p :: later) (h : c.advance = .error f) :
    c.walk = ([p], some f) := by
  have hcurrent : c.current? = some p.entry := by rw [current?, hpending]; rfl
  have hoffset : c.offset = p.offset := by rw [offset, hpending]
  rw [walk]
  split
  · next hnone => rw [hcurrent] at hnone; cases hnone
  · next e he =>
    rw [hcurrent] at he
    cases he
    split
    · next f' hf =>
      rw [h] at hf
      cases hf
      rw [hoffset]
    · next next hnext => rw [h] at hnext; cases hnext

/-- A walk meets all entries ahead, and then the fault behind them. -/
theorem walk_eq {c : Cursor} (hne : c.pending ≠ []) : c.walk = (c.pending, c.fault) := by
  obtain ⟨p, later, hpending⟩ := List.exists_cons_of_ne_nil hne
  clear hne
  induction later generalizing c p with
  | nil =>
    have hahead : c.faultAhead = c.fault := by rw [faultAhead, hpending]
    cases hfault : c.fault with
    | some f =>
      have hadvance : c.advance = .error f := by rw [advance, hahead, hfault]
      rw [walk_of_fault hpending hadvance, hpending]
    | none =>
      have hadvance : c.advance = .ok c.dropFirst := by rw [advance, hahead, hfault]
      have hend : c.dropFirst.pending = [] := by rw [dropFirst, hpending]; rfl
      rw [walk_of_advance hpending hadvance, walk_of_nil hend, hpending]
  | cons q later ih =>
    have hahead : c.faultAhead = none := by rw [faultAhead, hpending]
    have hadvance : c.advance = .ok c.dropFirst := by rw [advance, hahead]
    have hnext : c.dropFirst.pending = q :: later := by rw [dropFirst, hpending]; rfl
    rw [walk_of_advance hpending hadvance, ih q hnext, hnext, hpending]
    rfl

/-- A cursor starts where there is an entry, and where there is no fault. -/
theorem ofBytes_eq_ok {buf : Bytes} (h : (scan buf).pending ≠ [] ∨ (scan buf).fault = none) :
    ofBytes buf = .ok (scan buf) := by
  rw [ofBytes]
  split
  · next f _ _ hscan =>
    rw [hscan] at h
    rcases h with h | h
    · exact absurd rfl h
    · cases h
  · rfl

/-- A tree whose first entry is at fault gives no cursor. -/
theorem ofBytes_eq_error {buf : Bytes} {f : TreeError} (hpending : (scan buf).pending = [])
    (hfault : (scan buf).fault = some f) : ofBytes buf = .error f := by
  rw [ofBytes]
  split
  · next f' _ _ hscan =>
    rw [hscan] at hfault
    cases hfault
    rfl
  · next c hno =>
    exact (hno f (scan buf).stop (scan buf).size (by rw [← hpending, ← hfault])).elim

/-- Walking a buffer meets what a scan of it finds. -/
theorem walkBytes_eq (buf : Bytes) : walkBytes buf = ((scan buf).pending, (scan buf).fault) := by
  rw [walkBytes]
  by_cases hpending : (scan buf).pending = []
  · cases hfault : (scan buf).fault with
    | some f => rw [ofBytes_eq_error hpending hfault, hpending]
    | none =>
      rw [ofBytes_eq_ok (Or.inr hfault), hpending]
      exact walk_of_nil hpending
  · rw [ofBytes_eq_ok (Or.inl hpending)]
    exact walk_eq hpending

end Cursor

/-- Trees are read by their grammar. A buffer decodes to its end exactly when it is one record after
another, and its entries are those of the records; they are written back as the same buffer exactly
when every mode is canonical. On every buffer a cursor that walks and a reader by positions find the
same entries at the same offsets and stop with the same fault, and no position that is read lies
outside of the buffer. -/
theorem trees_read_by_grammar (buf : Bytes) :
    (∀ es, ((Cursor.scan buf).entries = es ∧ (Cursor.scan buf).fault = none) ↔
      ∃ rs : List Record, buf = rs.flatMap Record.bytes ∧ es = rs.map Record.entry) ∧
    (∀ rs : List Record, buf = rs.flatMap Record.bytes →
      (treeOf (Cursor.scan buf).entries = buf ↔ ∀ r ∈ rs, r.Canonical)) ∧
    Cursor.walkBytes buf = ((Cursor.scan buf).pending, (Cursor.scan buf).fault) ∧
    entriesFrom? buf 0 = some ((Cursor.scan buf).pending, (Cursor.scan buf).fault) ∧
    ∀ offset ≤ buf.length, decodeAt? buf offset =
      some ((Entry.decode (buf.drop offset)).map fun (e, rest) =>
        (e, buf.length - offset - rest.length)) := by
  refine ⟨fun es => scan_eq_iff, ?_, Cursor.walkBytes_eq buf, ?_, fun offset h => decodeAt?_eq h⟩
  · intro rs hrs
    have hentries : (Cursor.scan buf).entries = rs.map Record.entry :=
      (scan_eq_iff.mpr ⟨rs, hrs, rfl⟩).1
    rw [hentries, hrs]
    exact treeOf_eq_flatMap_iff
  · have hall := entriesFrom?_eq (Nat.zero_le buf.length)
    rwa [List.drop_zero] at hall

/-- A file whose mode has a zero in front, and one whose mode has a bit too many. -/
def Record.zeroLed : Record where
  modeText := bytesOf "0100644"
  mode := 0o100644
  name := bytesOf "a"
  id := ⟨bytesOf "01234567890123456789", by decide⟩
  mode_eq := by decide
  mode_lt := by decide
  nonempty := by decide
  nul_not_mem := by decide
@[inherit_doc Record.zeroLed] def Record.groupWritten : Record where
  modeText := bytesOf "100664"
  mode := 0o100664
  name := bytesOf "b"
  id := ⟨bytesOf "98765432109876543210", by decide⟩
  mode_eq := by decide
  mode_lt := by decide
  nonempty := by decide
  nul_not_mem := by decide

/-- Both records decode, and neither is written back as it was. -/
theorem trees_read_by_grammar_two :
    (Cursor.scan (Record.zeroLed.bytes ++ Record.groupWritten.bytes)).entries =
        [⟨modeFile, bytesOf "a", Record.zeroLed.id⟩,
          ⟨modeFile, bytesOf "b", Record.groupWritten.id⟩] ∧
      treeOf (Cursor.scan (Record.zeroLed.bytes ++ Record.groupWritten.bytes)).entries ≠
        Record.zeroLed.bytes ++ Record.groupWritten.bytes := by
  have hrecords : Record.zeroLed.bytes ++ Record.groupWritten.bytes =
      [Record.zeroLed, Record.groupWritten].flatMap Record.bytes := by simp
  obtain ⟨hgrammar, hwritten, -⟩ :=
    trees_read_by_grammar (Record.zeroLed.bytes ++ Record.groupWritten.bytes)
  constructor
  · exact ((hgrammar _).mpr ⟨_, hrecords, by decide⟩).1
  · rw [Ne, hwritten _ hrecords]
    decide

end GitRemote
