import GitRemote.Proofs.Diff.Exact
import GitRemote.Proofs.Tree.Find

/-!
# Looking up paths

Looking a path up gives what going down from the root by the exact names of its components gives: the
scan of a tree stops early only where stored order leaves no entry of the name that is looked for. So the
files that are found are those that are added to the empty tree.
-/

namespace GitRemote

/-- Going down from a tree by the names of components leads to an entry. All but the last of them are
directories. -/
inductive LeadsTo (source : ObjectSource) : ObjectId → List Bytes → Entry → Prop
  | last {root : ObjectId} {c : Cursor} {e : Entry} :
    source.Opens (some root) c → e ∈ c.entries → LeadsTo source root [e.name] e
  | step {root : ObjectId} {c : Cursor} {dir e : Entry} {components : List Bytes} :
    source.Opens (some root) c → dir ∈ c.entries → dir.isDir = true →
      LeadsTo source dir.id components e → LeadsTo source root (dir.name :: components) e

/-- A component of a path. -/
def IsComponent (name : Bytes) : Prop := name ≠ [] ∧ 0x2F ∉ name

instance (name : Bytes) : Decidable (IsComponent name) := inferInstanceAs (Decidable (_ ∧ _))

/-- The path of some components, which a slash may end. -/
def slashed (components : List Bytes) (slash : Bool) : Bytes :=
  [0x2F].intercalate components ++ if slash then [0x2F] else []

variable {source : ObjectSource} {root : ObjectId} {c : Cursor} {e : Entry} {slash : Bool}
  {first name path behind : Bytes} {components : List Bytes}

/-! ### One tree -/

/-- What stands behind the first component of a path. -/
def EndsComponent (behind : Bytes) : Prop := behind = [] ∨ ∃ below, behind = 0x2F :: below

/-- What follows a component starts with a slash. -/
theorem EndsComponent.eq_slash {b : UInt8} {below : Bytes} (h : EndsComponent (b :: below)) :
    b = 0x2F := by
  rcases h with hnil | ⟨_, hslash⟩
  · cases hnil
  · exact (List.cons.inj hslash).1

/-- What the scan for the first component makes of the entry of that name, by what stands behind it. -/
def stepOn (behind : Bytes) : Option Entry → PathStep
  | none => .absent
  | some e =>
    match behind with
    | [] => .found e
    | _ :: below =>
      if e.isDir then if below.isEmpty then .found e else .descend e below else .absent

/-- The first component of a path can be cut off in one way only. -/
theorem eq_of_append_eq {other rest : Bytes} (hfirst : 0x2F ∉ first) (hother : 0x2F ∉ other)
    (hbehind : EndsComponent behind) (hrest : EndsComponent rest)
    (h : first ++ behind = other ++ rest) : first = other ∧ behind = rest := by
  have hleft := nameAt_append [] hfirst hbehind
  have hright := nameAt_append [] hother hrest
  rw [h, hright] at hleft
  subst hleft
  exact ⟨rfl, List.append_cancel_left h⟩

/-- A byte of two parts stands in the second or in the first. -/
theorem append_eq_append_cons {a b c d : Bytes} {u : UInt8} (h : a ++ b = c ++ u :: d) :
    (∃ m, c = a ++ m ∧ b = m ++ u :: d) ∨ ∃ m, a = c ++ u :: m := by
  rcases List.append_eq_append_iff.mp h with hsecond | ⟨_ | ⟨x, m⟩, ha, hd⟩
  · exact .inl hsecond
  · rw [List.append_nil] at ha
    exact .inl ⟨[], by rw [ha, List.append_nil], hd.symm⟩
  · rw [List.cons_append] at hd
    obtain ⟨rfl, -⟩ := List.cons.inj hd
    exact .inr ⟨m, ha⟩

/-- Where a path is below a name, an entry of the path's first component is stored in front of it. -/
theorem storedKey_lt_of_below {e' : Entry} (hplain : PlainName e.name) (hbehind : EndsComponent behind)
    (h : matchName e.name (e'.name ++ behind) = .below) : e'.storedKey < e.storedKey := by
  obtain ⟨front, u, v, s, t, hpath, hname, huv⟩ := exists_of_matchName_eq_below h
  rw [Entry.storedKey, Entry.storedKey, hname, List.append_assoc, List.cons_append]
  rcases append_eq_append_cons hpath with ⟨_ | ⟨x, m⟩, rfl, htail⟩ | ⟨m, hm⟩
  · -- The path goes on with the slash there, and no entry of the component with a greater byte.
    rw [htail] at hbehind
    obtain rfl := hbehind.eq_slash
    rw [List.append_nil]
    exact append_cons_lt _ _ (Std.lt_of_le_of_lt (terminator_le _) huv)
  · -- The slash behind the component would stand in the name.
    rw [htail] at hbehind
    obtain rfl := hbehind.eq_slash
    rw [hname] at hplain
    exact absurd (by simp) hplain.2
  · rw [hm, List.append_assoc, List.cons_append]
    exact append_cons_lt _ _ huv

/-- The scan of a tree comes to the entry of the first component. -/
theorem pathStep_eq (hfirst : 0x2F ∉ first) (hbehind : EndsComponent behind) {es : List Entry}
    (hplain : ∀ e ∈ es, PlainName e.name)
    (hkeys : es.Pairwise fun a b => a.storedKey < b.storedKey) :
    pathStep (first ++ behind) none es = .ok (stepOn behind (es.find? (·.name == first))) := by
  induction es with
  | nil => rfl
  | cons e rest ih =>
    obtain ⟨hname, hrest⟩ := List.forall_mem_cons.mp hplain
    obtain ⟨hlater, hkeys⟩ := List.pairwise_cons.mp hkeys
    have hskip (hne : e.name ≠ first) :
        (e :: rest).find? (·.name == first) = rest.find? (·.name == first) :=
      List.find?_cons_of_neg (by simpa using hne)
    have hself (h : e.name = first) : matchName e.name (first ++ behind) = .starts behind :=
      matchName_eq_starts.mpr (by rw [h])
    rw [pathStep]
    split
    · next hmatch =>
      have hpath := matchName_eq_starts.mp hmatch
      obtain ⟨rfl, rfl⟩ := eq_of_append_eq hfirst hname.2 hbehind (.inl rfl) hpath
      rw [List.find?_cons_of_pos (by simp)]
      rfl
    · next b below hmatch =>
      have hpath := matchName_eq_starts.mp hmatch
      split
      · next hb =>
        subst hb
        obtain ⟨rfl, rfl⟩ := eq_of_append_eq hfirst hname.2 hbehind (.inr ⟨below, rfl⟩) hpath
        rw [List.find?_cons_of_pos (by simp), stepOn]
        split
        · split <;> rfl
        · rfl
      · next hb =>
        -- The name is only the front of the component.
        rw [hskip, ih hrest hkeys]
        intro h
        rw [hself h] at hmatch
        cases hmatch
        exact hb hbehind.eq_slash
    · next hmatch =>
      -- An entry of the component would have come before this one.
      have hnone : (e :: rest).find? (·.name == first) = none := by
        refine List.find?_eq_none.mpr fun e' he' hfound => ?_
        obtain rfl : e'.name = first := by simpa using hfound
        have hbefore := storedKey_lt_of_below hname hbehind hmatch
        rcases List.mem_cons.mp he' with rfl | he'
        · exact List.lt_irrefl _ hbefore
        · exact List.lt_asymm hbefore (hlater e' he')
      rw [hnone]
      rfl
    · next hmatch =>
      rw [hskip, ih hrest hkeys]
      intro h
      rw [hself h] at hmatch
      cases hmatch

/-! ### Trees below trees -/

/-- A tree is read as its cursor. -/
theorem readTree_of_opens (h : source.Opens (some root) c) :
    ∃ buf, source.readTree root = .ok buf ∧ Cursor.ofBytes buf = .ok c := by
  obtain ⟨buf, hload, hc⟩ := h
  rw [loadTree] at hload
  cases hread : source.readTree root with
  | error e =>
    rw [hread] at hload
    cases hload
  | ok buf' =>
    rw [hread] at hload
    cases hload
    exact ⟨buf, rfl, hc⟩

/-- A path is looked up from the entry of its first component on. -/
theorem lookupPathFrom_succ (hs : source.Sound (some root)) (hc : source.Opens (some root) c)
    (hfirst : 0x2F ∉ first) (hbehind : EndsComponent behind) (fuel : Nat) :
    lookupPathFrom source (fuel + 1) root (first ++ behind) =
      match stepOn behind (c.entryOf first) with
      | .absent => .ok none
      | .found e => .ok (some (e.id, e.mode))
      | .descend e rest => lookupPathFrom source fuel e.id rest := by
  have hw := hs.wellFormed hc
  have hkeys : c.entries.Pairwise fun a b => a.storedKey < b.storedKey :=
    (List.pairwise_map (f := Placed.entry)).mpr hw.stored.keys
  have hentry : c.entries.find? (·.name == first) = c.entryOf first := List.find?_map
  have hstep := pathStep_eq hfirst hbehind (fun e he => hw.plain he) hkeys
  obtain ⟨buf, hread, hcursor⟩ := readTree_of_opens hc
  rw [lookupPathFrom, hread]
  simp only [hcursor, hw.fault_eq_none, hstep, hentry]
  cases stepOn behind (c.entryOf first) <;> rfl

/-- One component leads to the entry of its name. -/
theorem leadsTo_singleton_iff (hc : source.Opens (some root) c) (hw : c.WellFormed) :
    LeadsTo source root [first] e ↔ c.entryOf first = some e := by
  rw [hw.entryOf_eq_some]
  constructor
  · intro h
    cases h with
    | last hc' he => exact ⟨hc'.unique hc ▸ he, rfl⟩
    | step _ _ _ h => cases h
  · rintro ⟨he, rfl⟩
    exact .last hc he

/-- Some components lead on from the directory of the first. -/
theorem leadsTo_cons_iff (hc : source.Opens (some root) c) (hw : c.WellFormed)
    (hne : components ≠ []) :
    LeadsTo source root (first :: components) e ↔
      ∃ dir, c.entryOf first = some dir ∧ dir.isDir = true ∧ LeadsTo source dir.id components e := by
  constructor
  · intro h
    cases h with
    | last => exact absurd rfl hne
    | step hc' hmem hdir h =>
      exact ⟨_, hw.entryOf_eq_some.mpr ⟨hc'.unique hc ▸ hmem, rfl⟩, hdir, h⟩
  · rintro ⟨dir, hentry, hdir, h⟩
    obtain ⟨hmem, rfl⟩ := hw.entryOf_eq_some.mp hentry
    exact .step hc hmem hdir h

theorem slashed_cons (hne : components ≠ []) :
    slashed (first :: components) slash = first ++ 0x2F :: slashed components slash := by
  rw [slashed, slashed, List.intercalate_cons_of_ne_nil hne]
  simp only [List.append_assoc, List.cons_append, List.nil_append]

theorem slashed_singleton : slashed [first] slash = first ++ if slash then [0x2F] else [] := by
  rw [slashed, List.intercalate_singleton]

/-- A path with a component in it is not empty. -/
theorem slashed_ne_nil (hne : components ≠ []) (hcs : ∀ c ∈ components, IsComponent c) :
    slashed components slash ≠ [] := by
  intro h
  have hjoin : [0x2F].intercalate components = [] := (List.append_eq_nil_iff.mp h).1
  exact hne ((Frame.intercalate_eq_nil_iff fun c hc => (hcs c hc).1).mp hjoin)

/-- What a path names: the entry that its components lead to, which is a directory if a slash follows. -/
def Named (source : ObjectSource) (root : ObjectId) (components : List Bytes) (slash : Bool)
    (id : ObjectId) (mode : Nat) : Prop :=
  ∃ e, LeadsTo source root components e ∧ (slash = true → e.isDir = true) ∧ e.id = id ∧ e.mode = mode

/-- Going down from a root finds just what the path names. -/
theorem exists_lookupPathFrom (hs : source.Sound (some root)) (hne : components ≠ [])
    (hcs : ∀ c ∈ components, IsComponent c) {fuel : Nat}
    (hfuel : (slashed components slash).length ≤ fuel) :
    ∃ found, lookupPathFrom source fuel root (slashed components slash) = .ok found ∧
      ∀ id mode, found = some (id, mode) ↔ Named source root components slash id mode := by
  induction components generalizing root fuel with
  | nil => exact absurd rfl hne
  | cons first rest ih =>
    obtain ⟨⟨hfirst, hfree⟩, hrest⟩ := List.forall_mem_cons.mp hcs
    obtain ⟨c, hc, hw⟩ := hs.opens
    obtain ⟨fuel, rfl⟩ : ∃ less, fuel = less + 1 := by
      have hpath : slashed (first :: rest) slash ≠ [] := slashed_ne_nil hne hcs
      have hpos := List.length_pos_iff.mpr hpath
      exact ⟨fuel - 1, by omega⟩
    by_cases hlast : rest = []
    · subst hlast
      have hbehind : EndsComponent (if slash then [0x2F] else []) := by
        cases slash
        · exact .inl rfl
        · exact .inr ⟨[], rfl⟩
      rw [slashed_singleton, lookupPathFrom_succ hs hc hfree hbehind]
      simp only [Named, leadsTo_singleton_iff hc hw]
      cases c.entryOf first with
      | none => exact ⟨none, rfl, by simp⟩
      | some e =>
        cases slash with
        | false => exact ⟨some (e.id, e.mode), rfl, by simp⟩
        | true =>
          cases hdir : e.isDir with
          | false => exact ⟨none, by simp [stepOn, hdir], by simp [hdir]⟩
          | true => exact ⟨some (e.id, e.mode), by simp [stepOn, hdir], by simp [hdir]⟩
    · have hbelow : (slashed rest slash).isEmpty = false :=
        List.isEmpty_eq_false_iff.mpr (slashed_ne_nil hlast hrest)
      rw [slashed_cons hlast, List.length_append, List.length_cons] at hfuel
      rw [slashed_cons hlast, lookupPathFrom_succ hs hc hfree (.inr ⟨_, rfl⟩)]
      simp only [Named, leadsTo_cons_iff hc hw hlast]
      cases hentry : c.entryOf first with
      | none => exact ⟨none, rfl, by simp⟩
      | some dir =>
        cases hdir : dir.isDir with
        | false => exact ⟨none, by simp [stepOn, hdir], by simp [hdir]⟩
        | true =>
          have hmem := (hw.entryOf_eq_some.mp hentry).1
          have hroom : (slashed rest slash).length ≤ fuel := by omega
          obtain ⟨found, hfound, hnamed⟩ := ih (hs.child hc hmem hdir) hlast hrest hroom
          exact ⟨found, by simp [stepOn, hdir, hbelow, hfound], by simp [hnamed, Named, hdir]⟩

/-- A lookup in a sound tree ends, and finds what the components name. -/
theorem exists_lookupPath (hs : source.Sound (some root)) (hne : components ≠ [])
    (hcs : ∀ c ∈ components, IsComponent c) (slash : Bool) :
    ∃ found, lookupPath source root (slashed components slash) = .ok found ∧
      ∀ id mode, found = some (id, mode) ↔ Named source root components slash id mode := by
  have hpath : (slashed components slash).isEmpty = false :=
    List.isEmpty_eq_false_iff.mpr (slashed_ne_nil hne hcs)
  rw [lookupPath, hpath]
  exact exists_lookupPathFrom hs hne hcs (Nat.le_refl _)

/-! ### Files -/

/-- What is at the end of a path and no directory is an entry that the components lead to. -/
theorem leaf_slashed_iff (hs : source.Sound (some root)) (hne : components ≠ [])
    (hcs : ∀ c ∈ components, IsComponent c) (base : Bytes) (mode : Nat) (id : ObjectId) :
    Leaf source base (some root) (base ++ slashed components false) mode id ↔
      ∃ e, LeadsTo source root components e ∧ e.isDir = false ∧ e.id = id ∧ e.mode = mode := by
  induction components generalizing root base with
  | nil => exact absurd rfl hne
  | cons first rest ih =>
    obtain ⟨⟨hfirst, hfree⟩, hrest⟩ := List.forall_mem_cons.mp hcs
    obtain ⟨c, hc, hw⟩ := hs.opens
    rw [leaf_iff_entryOf hc hw]
    by_cases hlast : rest = []
    · subst hlast
      have hpath : slashed [first] false = first ++ [] := slashed_singleton
      rw [hpath, nameAt_append base hfree (.inl rfl), List.append_nil]
      simp only [leadsTo_singleton_iff hc hw]
      refine exists_congr fun e => and_congr_right fun hentry => ?_
      obtain ⟨hmem, rfl⟩ := hw.entryOf_eq_some.mp hentry
      cases hdir : e.isDir with
      | false =>
        rw [Entry.LeafIn, hdir]
        simp [eq_comm, and_comm]
      | true =>
        rw [Entry.LeafIn, if_pos hdir]
        simp only [reduceCtorEq, false_and, iff_false]
        exact fun h => h.path_ne rfl
    · rw [slashed_cons hlast, nameAt_append base hfree (.inr ⟨_, rfl⟩)]
      simp only [leadsTo_cons_iff hc hw hlast]
      cases hentry : c.entryOf first with
      | none => simp
      | some dir =>
        obtain ⟨hmem, rfl⟩ := hw.entryOf_eq_some.mp hentry
        simp only [Option.some.injEq, exists_eq_left']
        cases hdir : dir.isDir with
        | false =>
          rw [Entry.LeafIn, hdir]
          simp
        | true =>
          have hpath : base ++ (dir.name ++ 0x2F :: slashed rest false) =
              base ++ dir.name ++ [0x2F] ++ slashed rest false := by simp
          rw [Entry.LeafIn, if_pos hdir, hpath, ih (hs.child hc hmem hdir) hlast hrest]
          simp

/-- Where all trees below a root are there and well-formed, looking a path up succeeds. It gives what
going down by the names of the components leads to, each but the last a directory, and the last as well if
a slash follows; where they lead nowhere it gives nothing. If the trees are not nested too deep either, the
entries that are found without such a slash and are no directories are those that are added to the empty
tree. -/
theorem lookup_follows_components (hs : source.Sound (some root)) (hne : components ≠ [])
    (hcs : ∀ c ∈ components, IsComponent c) :
    (∀ slash, ∃ found, lookupPath source root (slashed components slash) = .ok found ∧
      ∀ id mode, found = some (id, mode) ↔ ∃ e, LeadsTo source root components e ∧
        (slash = true → e.isDir = true) ∧ e.id = id ∧ e.mode = mode) ∧
    (source.Nested ({} : WalkOptions).maxDepth (some root) →
      ∃ changes, diff source none (some root) none = .ok changes ∧
        ∀ id mode, lookupPath source root (slashed components false) = .ok (some (id, mode)) ∧
          mode &&& modeKindMask ≠ modeTree ↔ .added (slashed components false) mode id ∈ changes) := by
  refine ⟨exists_lookupPath hs hne hcs, fun hn => ?_⟩
  obtain ⟨changes, hdiff, hexact⟩ := exists_exact_diff .none hs (.none _) hn
  refine ⟨changes, hdiff, fun id mode => ?_⟩
  obtain ⟨found, hfound, hnamed⟩ := exists_lookupPath hs hne hcs false
  have hadded : .added (slashed components false) mode id ∈ changes ↔
      Leaf source [] (some root) (slashed components false) mode id := by
    rw [hexact.mem_iff, Differs, and_iff_left fun _ _ => not_leaf_none]
  have hleaf := leaf_slashed_iff hs hne hcs [] mode id
  rw [List.nil_append] at hleaf
  rw [hadded, hleaf, hfound, Except.ok.injEq, hnamed]
  constructor
  · rintro ⟨⟨e, hleads, -, rfl, rfl⟩, hmode⟩
    exact ⟨e, hleads, by simpa [Entry.isDir] using hmode, rfl, rfl⟩
  · rintro ⟨e, hleads, hdir, rfl, rfl⟩
    exact ⟨⟨e, hleads, by simp, rfl, rfl⟩, by simpa [Entry.isDir] using hdir⟩

/-- A source with a directory `a` of one file `x`, between files whose names go on with a byte below the
slash and one above it. -/
def flankedSource : ObjectSource where
  read id :=
    match id.octets.head? with
    | some 1 =>
      .ok (some (.tree (treeOf
        [.file (bytesOf "a-") 4, .directory (bytesOf "a") 3, .file (bytesOf "a0") 5])))
    | some 3 => .ok (some (.tree (treeOf [.file (bytesOf "x") 6])))
    | _ => .ok none

theorem keeps_flankedSource_inner : flankedSource.Keeps (plainId 3) [.file (bytesOf "x") 6] :=
  ⟨rfl, by decide, by decide, by decide⟩

theorem keeps_flankedSource : flankedSource.Keeps (plainId 1)
    [.file (bytesOf "a-") 4, .directory (bytesOf "a") 3, .file (bytesOf "a0") 5] :=
  ⟨rfl, by decide, by decide, by decide⟩

/-- The only directory in the outer tree is the one of the inner. -/
theorem id_of_directory_flankedSource : ∀ e ∈ [Entry.file (bytesOf "a-") 4,
    .directory (bytesOf "a") 3, .file (bytesOf "a0") 5], e.isDir = true → e.id = plainId 3 := by
  decide

theorem sound_flankedSource : flankedSource.Sound (some (plainId 1)) := by
  refine keeps_flankedSource.sound fun e he hdir => ?_
  rw [id_of_directory_flankedSource e he hdir]
  exact keeps_flankedSource_inner.sound_of_files (by decide)

theorem nested_flankedSource (less : Nat) : flankedSource.Nested (less + 1) (some (plainId 1)) := by
  refine keeps_flankedSource.nested fun e he hdir => ?_
  rw [id_of_directory_flankedSource e he hdir]
  exact keeps_flankedSource_inner.nested_of_files (by decide) less

/-- The file in the directory is found behind the name that goes on below the slash. -/
theorem lookup_follows_components_flanked :
    flankedSource.Sound (some (plainId 1)) ∧
    flankedSource.Nested ({} : WalkOptions).maxDepth (some (plainId 1)) ∧
    (∀ c ∈ [bytesOf "a", bytesOf "x"], IsComponent c) ∧
    lookupPath flankedSource (plainId 1) (bytesOf "a/x") = .ok (some (plainId 6, modeFile)) ∧
    ∃ changes, diff flankedSource none (some (plainId 1)) none = .ok changes ∧
      .added (bytesOf "a/x") modeFile (plainId 6) ∈ changes := by
  have hnested := nested_flankedSource (({} : WalkOptions).maxDepth - 1)
  have hcs : ∀ c ∈ [bytesOf "a", bytesOf "x"], IsComponent c := by decide
  obtain ⟨hfound, hadded⟩ :=
    lookup_follows_components sound_flankedSource (List.cons_ne_nil _ _) hcs
  have hpath : slashed [bytesOf "a", bytesOf "x"] false = bytesOf "a/x" := by decide
  obtain ⟨found, hlookup, hnamed⟩ := hfound false
  obtain ⟨changes, hdiff, hiff⟩ := hadded hnested
  rw [hpath] at hlookup hiff
  have houter : .directory (bytesOf "a") 3 ∈ (Cursor.scan (treeOf [.file (bytesOf "a-") 4,
      .directory (bytesOf "a") 3, .file (bytesOf "a0") 5])).entries := by
    rw [entries_treeOf keeps_flankedSource.writable]
    decide
  have hinner : .file (bytesOf "x") 6 ∈ (Cursor.scan (treeOf [.file (bytesOf "x") 6])).entries := by
    rw [entries_treeOf keeps_flankedSource_inner.writable]
    decide
  have hleads : LeadsTo flankedSource (plainId 1) [bytesOf "a", bytesOf "x"]
      (.file (bytesOf "x") 6) :=
    .step keeps_flankedSource.opens houter rfl (.last keeps_flankedSource_inner.opens hinner)
  have hsome : found = some (plainId 6, modeFile) :=
    (hnamed _ _).mpr ⟨_, hleads, fun h => absurd h (by decide), rfl, rfl⟩
  rw [hsome] at hlookup
  exact ⟨sound_flankedSource, hnested, hcs, hlookup, changes, hdiff,
    (hiff _ _).mp ⟨hlookup, by decide⟩⟩

end GitRemote
