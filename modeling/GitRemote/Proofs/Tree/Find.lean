import GitRemote.Proofs.Tree.Order
import GitRemote.Proofs.Tree.Written
import GitRemote.Tree.Lookup

/-!
# Looking up names

The search for a name compares it with the front of each entry's name and stops at the first that
has a greater byte. In a tree that is in order no entry of the name can stand behind that, not even
a directory behind names that continue its own. So the search finds what a scan of all entries
finds.
-/

namespace GitRemote

variable {name path behind : Bytes}

/-- A name starts a path if the path is the name with more behind it. -/
theorem matchName_eq_starts : matchName name path = .starts behind ↔ path = name ++ behind := by
  rw [matchName]
  constructor
  · intro h
    split at h
    · cases h
    · split at h
      · next heq =>
        cases h
        conv_lhs => rw [← List.take_append_drop name.length path, compareNames_eq_eq.mp heq]
      · cases h
      · cases h
  · rintro rfl
    have hlen : ¬ (name ++ behind).length < name.length := by
      rw [List.length_append]
      omega
    rw [if_neg hlen, List.take_left, List.drop_left, compareNames_eq_eq.mpr rfl]

/-- A path is below a name where it has the lesser byte after a common part. -/
theorem exists_of_matchName_eq_below (h : matchName name path = .below) :
    ∃ front u v s t, path = front ++ u :: s ∧ name = front ++ v :: t ∧ u < v := by
  rw [matchName] at h
  split at h
  · cases h
  · next hlen =>
    split at h
    · cases h
    · next hlt =>
      rcases lt_cases (compareNames_eq_lt.mp hlt) with
        ⟨y, s, hname⟩ | ⟨front, u, v, s, t, hpath, hname, huv⟩
      · have hshort := congrArg List.length hname
        rw [List.length_append, List.length_take, List.length_cons] at hshort
        omega
      · refine ⟨front, u, v, s ++ path.drop name.length, t, ?_, hname, huv⟩
        conv_lhs => rw [← List.take_append_drop name.length path, hpath]
        rw [List.append_assoc, List.cons_append]
    · cases h

/-- An entry of a lesser name is stored in front. -/
theorem storedBefore_of_below {e e' : Entry} (h : matchName e.name e'.name = .below) :
    e'.StoredBefore e := by
  obtain ⟨front, u, v, s, t, hpath, hname, huv⟩ := exists_of_matchName_eq_below h
  have hnames : Below e'.name e.name := by
    rw [hpath, hname]
    exact below_append_cons front s t huv
  exact hnames.append _ _

/-- Among entries in order, the search for a name finds the first entry that bears it. -/
theorem findName_eq {es : List Entry} (h : es.Pairwise Entry.StoredBefore) (name : Bytes) :
    findName name none es = .ok (es.find? (·.name == name)) := by
  induction es with
  | nil => rfl
  | cons e rest ih =>
    obtain ⟨hlater, hrest⟩ := List.pairwise_cons.mp h
    have hself (he : e.name = name) : matchName e.name name = .starts [] :=
      matchName_eq_starts.mpr (by rw [he, List.append_nil])
    rw [findName]
    split
    · next hmatch =>
      have hname : name = e.name := by simpa using matchName_eq_starts.mp hmatch
      rw [List.find?_cons_of_pos (by simp [hname])]
    · next hmatch =>
      -- An entry of the name would have come before this one.
      have hnone : (e :: rest).find? (·.name == name) = none := by
        refine List.find?_eq_none.mpr fun e' he' hfound => ?_
        obtain rfl : e'.name = name := by simpa using hfound
        have hbefore := storedBefore_of_below hmatch
        rcases List.mem_cons.mp he' with rfl | he'
        · exact Below.irrefl _ hbefore
        · exact hbefore.asymm (hlater e' he')
      rw [hnone]
    · next hno _ =>
      have hne : e.name ≠ name := fun he => hno (hself he)
      rw [List.find?_cons_of_neg (by simpa using hne), ih hrest]

namespace Cursor

variable {c : Cursor}

/-- Moving over a number of entries drops them. -/
theorem advanceBy_eq (h : c.fault = none) (n : Nat) :
    c.advanceBy n = .ok { c with pending := c.pending.drop n } := by
  induction n generalizing c with
  | zero => rfl
  | succ n ih =>
    rw [advanceBy, advance_eq_ok h]
    dsimp only
    rw [ih (c := c.dropFirst) h, dropFirst, List.drop_tail]

/-- Wherever the cursor of a tree in order has moved, looking a name up finds the first entry from
there on that bears just that name, as a scan of all these entries does, and nothing if none of them
does. -/
theorem find_is_first_of_name (h : c.verifyOrder = .ok ()) (n : Nat) (name : Bytes) :
    ∃ c', c.advanceBy n = .ok c' ∧ c'.entries = c.entries.drop n ∧
      c'.find name = .ok ((c.entries.drop n).find? (·.name == name)) := by
  obtain ⟨hfault, hordered⟩ := verifyOrder_eq_ok.mp h
  have hentries : (c.pending.drop n).map Placed.entry = c.entries.drop n := List.map_drop
  refine ⟨_, advanceBy_eq hfault n, hentries, ?_⟩
  rw [find, entries, hentries, hfault]
  exact findName_eq (hordered.sublist (List.drop_sublist n _)) name

end Cursor

/-- Entries of which a directory `t` is stored behind files whose names continue its own. -/
def hiddenEntries : List Entry :=
  [.file (bytesOf "s") 1, .file (bytesOf "t-2") 2, .file (bytesOf "t.x") 3,
    .directory (bytesOf "t") 4, .file (bytesOf "t0") 5]

theorem writable_hiddenEntries : ∀ e ∈ hiddenEntries, e.Writable := by decide

/-- From the second entry on the directory is found, and the first entry is not. -/
theorem find_is_first_of_name_hidden :
    (Cursor.scan (treeOf hiddenEntries)).verifyOrder = .ok () ∧
    ∃ c, (Cursor.scan (treeOf hiddenEntries)).advanceBy 1 = .ok c ∧
      c.find (bytesOf "t") = .ok (some (.directory (bytesOf "t") 4)) ∧
      c.find (bytesOf "s") = .ok none := by
  have hentries := entries_treeOf writable_hiddenEntries
  have hordered : (Cursor.scan (treeOf hiddenEntries)).verifyOrder = .ok () :=
    (wellFormed_treeOf writable_hiddenEntries (by decide) (by decide)).ordered
  obtain ⟨c, hadvance, -, hfound⟩ := Cursor.find_is_first_of_name hordered 1 (bytesOf "t")
  obtain ⟨c', hadvance', -, hgone⟩ := Cursor.find_is_first_of_name hordered 1 (bytesOf "s")
  obtain rfl : c = c' := Except.ok.inj (hadvance.symm.trans hadvance')
  rw [hentries] at hfound hgone
  exact ⟨hordered, c, hadvance, hfound, hgone⟩

end GitRemote
