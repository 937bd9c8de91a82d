import GitRemote.Proofs.Fetch.Download
import GitRemote.Proofs.Object.Header
import GitRemote.Proofs.Tree.Record
import GitRemote.Zlib.Stored
import Mathlib.Data.List.Forall2
import Mathlib.Data.List.Perm.Subperm
import Mathlib.Data.List.TakeWhile

/-!
# Fetching is complete and exact

A fetch that ends well leaves every object that its targets reach readable. It has added a file for
exactly those that had none, with one download for each. However it ends, it has added no file that
does not hold the object it is named for.
-/

namespace GitRemote

/-! ### What objects link to

A commit links to its tree and its parents, a tag to its object, and a tree to the objects of its
entries that name no commit. Where the targets of an object are found they are what it links to. -/

/-- An object links to an id: a commit by its header to its tree and its parents, a tag by its
header to its object, and a tree by its entries that name no commit. -/
def Object.LinksTo (o : Object) (id : ObjectId) : Prop :=
  match o.kind with
  | .commit => HeaderGives ["tree", "parent"] o.data id
  | .tag => HeaderGives ["object"] o.data id
  | .tree => ∃ rs : List Record, o.data = rs.flatMap Record.bytes ∧
      ∃ r ∈ rs, r.entry.isGitlink = false ∧ r.id = id
  | .blob => False

/-- The targets read off a header are the ids that its lines give. -/
theorem mem_targets_of_header {keys : List String} {data : Bytes} {links : List Target}
    (hkeys : ∀ key ∈ keys.map Utf8.encode, (0x20 : UInt8) ∉ key)
    (h : (liftStorage (headerLinks keys data)).map (·.map (⟨·, 0⟩)) = .ok links) (id : ObjectId) :
    id ∈ links.map Target.id ↔ HeaderGives keys data id := by
  cases hfound : headerLinks keys data with
  | error e =>
    rw [hfound] at h
    cases h
  | ok ids =>
    rw [hfound] at h
    cases h
    have hids : (ids.map fun i => (⟨i, 0⟩ : Target)).map Target.id = ids := by
      rw [List.map_map]
      exact List.map_id' ids
    rw [hids]
    exact mem_linksIn hkeys hfound id

/-- The targets of a tree are its entries, but for those that name commits. -/
theorem mem_entryTargets {depth : Nat} {entries : List Entry} {id : ObjectId} :
    id ∈ (entryTargets depth entries).map Target.id ↔
      ∃ e ∈ entries, e.isGitlink = false ∧ e.id = id := by
  simp [entryTargets, and_assoc]

/-- Where the targets of an object are found they are what it links to. -/
theorem Object.mem_targets {o : Object} {limit depth : Nat} {links : List Target}
    (h : o.targets limit depth = .ok links) (id : ObjectId) :
    id ∈ links.map Target.id ↔ o.LinksTo id := by
  rw [targets] at h
  rw [LinksTo]
  cases hkind : o.kind with
  | commit =>
    rw [hkind] at h
    exact mem_targets_of_header (by decide) h id
  | tag =>
    rw [hkind] at h
    exact mem_targets_of_header (by decide) h id
  | blob =>
    rw [hkind] at h
    cases h
    simp
  | tree =>
    rw [hkind] at h
    dsimp only at h
    split at h
    · cases h
    · split at h
      · cases h
      · next hfault =>
        cases h
        obtain ⟨rs, hdata, hentries⟩ := scan_eq_iff.mp ⟨rfl, hfault⟩
        rw [mem_entryTargets]
        constructor
        · rintro ⟨e, he, hlink, hid⟩
          rw [hentries] at he
          obtain ⟨r, hr, rfl⟩ := List.mem_map.mp he
          exact ⟨rs, hdata, r, hr, hlink, hid⟩
        · rintro ⟨rs', hdata', r, hr, hlink, hid⟩
          rw [(scan_eq_iff.mpr ⟨rs', hdata', rfl⟩).1]
          exact ⟨r.entry, List.mem_map_of_mem hr, hlink, hid⟩

/-! ### What is reached -/

/-- The ids that some ids reach over the objects of a directory. -/
inductive LooseDir.Reaches (dir : LooseDir) (roots : List ObjectId) : ObjectId → Prop
  | root {id : ObjectId} (h : id ∈ roots) : Reaches dir roots id
  | link {id id' : ObjectId} {o : Object} (h : Reaches dir roots id)
      (hread : dir.read id = .ok (some o)) (hlink : o.LinksTo id') : Reaches dir roots id'

/-- What is reached is still reached when files are added. -/
theorem LooseDir.Reaches.append {dir : LooseDir} {roots : List ObjectId} {id : ObjectId}
    (h : dir.Reaches roots id) (new : List (ObjectId × Bytes)) :
    (⟨dir.files ++ new⟩ : LooseDir).Reaches roots id := by
  induction h with
  | root h => exact .root h
  | link _ hread hlink ih => exact .link ih (read_append hread new) hlink

namespace Fetch

variable {base : String} {start f f' : Fetch} {roots seen : List ObjectId}
  {queue rest : List Target} {new : List (ObjectId × Bytes)} {id : ObjectId} {o : Object} {t : Target}

/-! ### Downloads so far -/

/-- Some files were downloaded since the start of a fetch: each was asked for once, in their order, and
for nothing else was asked. -/
structure Downloaded (base : String) (start : Fetch) (new : List (ObjectId × Bytes)) (f : Fetch) :
    Prop where
  adds : start.dir.Adds new f.dir
  fetched : f.fetched = start.fetched + new.length
  asked : ∃ requests, List.Forall₂ (fun p asked => AsksFor base p.1 asked) new requests ∧
    f.client.server.requests = start.client.server.requests ++ requests.flatten
  responses : f.client.server.responses.length + new.length ≤
    start.client.server.responses.length

theorem downloaded_nil (base : String) (start : Fetch) : Downloaded base start [] start :=
  ⟨LooseDir.adds_nil _, rfl, ⟨[], .nil, (List.append_nil _).symm⟩, Nat.le_refl _⟩

/-- One more download adds its file behind those that were stored before. -/
theorem Downloaded.snoc {bytes : Bytes} {asked : List Http.Received}
    (h : Downloaded base start new f) (hd : Downloads base f id bytes o asked f') :
    Downloaded base start (new ++ [(id, bytes)]) f' := by
  obtain ⟨requests, hasked, hrequests⟩ := h.asked
  refine ⟨?_, ?_, ⟨requests ++ [asked], ?_, ?_⟩, ?_⟩
  · rw [hd.dir]
    exact h.adds.snoc hd.missing hd.decodes hd.named
  · rw [hd.fetched, h.fetched, List.length_append, List.length_singleton, Nat.add_assoc]
  · exact List.rel_append hasked (.cons hd.asks .nil)
  · rw [hd.requests, hrequests, List.append_assoc, List.flatten_append, List.flatten_singleton]
  · have hless := hd.responses
    have hmany := h.responses
    rw [List.length_append, List.length_singleton]
    omega

/-- An object that is visited can be read afterwards, and at most its own file was added for it. -/
theorem Downloaded.object (h : Downloaded base start new f)
    (hobject : f.object base id = (.ok o, f')) :
    ∃ more, Downloaded base start (new ++ more) f' ∧ f'.dir = ⟨f.dir.files ++ more⟩ ∧
      f'.dir.read id = .ok (some o) ∧ ∀ p ∈ more, p.1 = id := by
  rcases object_eq_ok hobject with ⟨rfl, hread⟩ | ⟨bytes, asked, hd⟩
  · exact ⟨[], by rwa [List.append_nil], by rw [List.append_nil], hread, by simp⟩
  · refine ⟨[(id, bytes)], h.snoc hd, hd.dir, ?_, by simp⟩
    rw [hd.dir]
    exact LooseDir.read_snoc hd.missing hd.decodes hd.named

/-! ### Objects to visit -/

/-- An object was visited or is in the queue. -/
def Due (seen : List ObjectId) (queue : List Target) (id : ObjectId) : Prop :=
  id ∈ seen ∨ id ∈ queue.map Target.id

/-- The part of the queue that is skipped was visited. -/
theorem due_dropWhile (h : Due seen queue id) :
    Due seen (queue.dropWhile fun t => seen.contains t.id) id := by
  refine h.elim .inl fun hqueue => ?_
  rw [← List.takeWhile_append_dropWhile (p := fun t : Target => seen.contains t.id) (l := queue),
    List.map_append, List.mem_append] at hqueue
  refine hqueue.elim (fun hskipped => .inl ?_) .inr
  obtain ⟨t, ht, rfl⟩ := List.mem_map.mp hskipped
  simpa using List.mem_takeWhile_imp ht

/-- What was due is due when the first of the queue has been visited. -/
theorem due_visit (h : Due seen (t :: rest) id) (links : List Target) :
    Due (t.id :: seen) (rest ++ links) id := by
  rcases h with h | h
  · exact .inl (List.mem_cons_of_mem _ h)
  · rw [List.map_cons, List.mem_cons] at h
    refine h.elim (fun he => .inl (he ▸ List.mem_cons_self)) fun h => .inr ?_
    rw [List.map_append]
    exact List.mem_append_left _ h

/-- The state between two visits: what was visited can be read, and all that it links to and all that is
wanted is due; nothing is due that the targets do not reach, and no file was added but for a visit. -/
structure Visiting (base : String) (start : Fetch) (roots seen : List ObjectId) (queue : List Target)
    (new : List (ObjectId × Bytes)) (f : Fetch) : Prop where
  downloaded : Downloaded base start new f
  nodup : seen.Nodup
  visited : ∀ p ∈ new, p.1 ∈ seen
  closed : ∀ id ∈ seen, ∃ o, f.dir.read id = .ok (some o) ∧
    ∀ id', o.LinksTo id' → Due seen queue id'
  wanted : ∀ id ∈ roots, Due seen queue id
  reached : ∀ id, Due seen queue id → f.dir.Reaches roots id

/-- At the start nothing was visited, and the ids that are wanted wait. -/
theorem visiting_start (base : String) (start : Fetch) (roots : List ObjectId) :
    Visiting base start roots [] (roots.map (⟨·, 0⟩)) [] start := by
  have hids : (roots.map fun id => (⟨id, 0⟩ : Target)).map Target.id = roots := by
    rw [List.map_map]
    exact List.map_id' roots
  refine ⟨downloaded_nil base start, List.nodup_nil, by simp, by simp, fun id hid => ?_, ?_⟩
  · exact .inr (hids.symm ▸ hid)
  · rintro id (hid | hid)
    · cases hid
    · exact .root (hids ▸ hid)

/-- One visit. -/
theorem Visiting.visit {links : List Target} {limit depth : Nat}
    (h : Visiting base start roots seen queue new f)
    (hnext : queue.dropWhile (fun t => seen.contains t.id) = t :: rest)
    (hobject : f.object base t.id = (.ok o, f')) (hlinks : o.targets limit depth = .ok links) :
    ∃ more, Visiting base start roots (t.id :: seen) (rest ++ links) (new ++ more) f' := by
  obtain ⟨more, hdownloaded, hdir, hread, hmore⟩ := h.downloaded.object hobject
  have hdue (id : ObjectId) (hid : Due seen queue id) : Due (t.id :: seen) (rest ++ links) id := by
    have hdropped := due_dropWhile hid
    rw [hnext] at hdropped
    exact due_visit hdropped links
  have hlinked (id : ObjectId) (hid : o.LinksTo id) : Due (t.id :: seen) (rest ++ links) id := by
    refine .inr ?_
    rw [List.map_append]
    exact List.mem_append_right _ ((Object.mem_targets hlinks id).mpr hid)
  have hkept (id : ObjectId) (hid : Due seen queue id) : f'.dir.Reaches roots id := by
    rw [hdir]
    exact (h.reached id hid).append more
  have hqueue : ∀ q ∈ t :: rest, Due seen queue q.id := by
    intro q hq
    rw [← hnext] at hq
    exact .inr (List.mem_map_of_mem ((List.dropWhile_sublist _).subset hq))
  have hfresh : t.id ∉ seen := by
    have hstop := List.head?_dropWhile_not (fun t : Target => seen.contains t.id) queue
    rw [hnext] at hstop
    simpa using hstop
  refine ⟨more, hdownloaded, List.nodup_cons.mpr ⟨hfresh, h.nodup⟩, ?_, ?_,
    fun id hid => hdue id (h.wanted id hid), ?_⟩
  · intro p hp
    rcases List.mem_append.mp hp with hp | hp
    · exact List.mem_cons_of_mem _ (h.visited p hp)
    · rw [hmore p hp]
      exact List.mem_cons_self
  · intro id hid
    rcases List.mem_cons.mp hid with rfl | hid
    · exact ⟨o, hread, hlinked⟩
    · obtain ⟨o', hread', hlinks'⟩ := h.closed id hid
      refine ⟨o', ?_, fun id' hlink => hdue id' (hlinks' id' hlink)⟩
      rw [hdir]
      exact LooseDir.read_append hread' more
  · rintro id (hid | hid)
    · rcases List.mem_cons.mp hid with rfl | hid
      · exact hkept t.id (hqueue t List.mem_cons_self)
      · exact hkept id (.inl hid)
    · rw [List.map_append, List.mem_append] at hid
      rcases hid with hid | hid
      · obtain ⟨q, hq, rfl⟩ := List.mem_map.mp hid
        exact hkept q.id (hqueue q (List.mem_cons_of_mem _ hq))
      · exact .link (hkept t.id (hqueue t List.mem_cons_self)) hread
          ((Object.mem_targets hlinks id).mp hid)

/-- No more was visited than there were files and responses. -/
theorem Visiting.length_seen_le (h : Visiting base start roots seen queue new f) :
    seen.length ≤ start.dir.files.length + start.client.server.responses.length := by
  have hfiles : seen ⊆ f.dir.files.map Prod.fst := by
    intro id hid
    obtain ⟨o, hread, -⟩ := h.closed id hid
    by_contra hno
    refine LooseDir.file?_ne_none_of_read hread (List.lookup_eq_none_iff.mpr fun p hp => ?_)
    rw [bne_iff_ne]
    rintro rfl
    exact hno (List.mem_map_of_mem hp)
  have hlength := (List.subperm_of_subset h.nodup hfiles).length_le
  have hresponses := h.downloaded.responses
  rw [List.length_map, h.downloaded.adds.files, List.length_append] at hlength
  omega

/-- A fetch leaves files that were downloaded, and if it ends well nothing is due any more. -/
theorem visitAll_spec {fuel : Nat} (limit : Nat) (h : Visiting base start roots seen queue new f)
    (hfuel : start.dir.files.length + start.client.server.responses.length < fuel + seen.length) :
    ∃ new', start.dir.Adds new' (visitAll base limit fuel seen queue f).2.dir ∧
      (visitAll base limit fuel seen queue f).2.fetched = start.fetched + new'.length ∧
      ((visitAll base limit fuel seen queue f).1 = .ok () → ∃ seen',
        Visiting base start roots seen' [] new' (visitAll base limit fuel seen queue f).2) := by
  induction fuel generalizing seen queue f new with
  | zero =>
    -- The fuel covers all that can be visited.
    have hle := h.length_seen_le
    omega
  | succ fuel ih =>
    rw [visitAll]
    split
    · next hnone =>
      refine ⟨new, h.downloaded.adds, h.downloaded.fetched, fun _ => ⟨seen, ?_⟩⟩
      have hdue (id : ObjectId) (hid : Due seen queue id) : Due seen [] id := by
        have hdropped := due_dropWhile hid
        rwa [hnone] at hdropped
      refine { h with
        closed := fun id hid => ?_
        wanted := fun id hid => hdue id (h.wanted id hid)
        reached := ?_ }
      · obtain ⟨o, hread, hlinks⟩ := h.closed id hid
        exact ⟨o, hread, fun id' hlink => hdue id' (hlinks id' hlink)⟩
      · rintro id (hid | hid)
        · exact h.reached id (.inl hid)
        · cases hid
    · next t rest hnext =>
      split
      · next hobject =>
        obtain ⟨hdir, hfetched⟩ := object_eq_error hobject
        refine ⟨new, ?_, ?_, fun hok => by cases hok⟩
        · rw [hdir]
          exact h.downloaded.adds
        · rw [hfetched]
          exact h.downloaded.fetched
      · next o f' hobject =>
        split
        · obtain ⟨more, hdownloaded, -⟩ := h.downloaded.object hobject
          exact ⟨_, hdownloaded.adds, hdownloaded.fetched, fun hok => by cases hok⟩
        · next links hlinks =>
          obtain ⟨more, hvisiting⟩ := h.visit hnext hobject hlinks
          refine ih hvisiting ?_
          rw [List.length_cons]
          omega

/-- Where nothing is due any more, what was visited is what is reached. -/
theorem Visiting.reaches_iff (h : Visiting base start roots seen [] new f) :
    f.dir.Reaches roots id ↔ id ∈ seen := by
  have hseen {id : ObjectId} (hid : Due seen [] id) : id ∈ seen :=
    hid.resolve_right List.not_mem_nil
  refine ⟨fun hreaches => ?_, fun hid => h.reached id (.inl hid)⟩
  induction hreaches with
  | root hroot => exact hseen (h.wanted _ hroot)
  | link _ hread hlink ih =>
    obtain ⟨o, hread', hlinks⟩ := h.closed _ ih
    rw [hread'] at hread
    cases hread
    exact hseen (hlinks _ hlink)

/-- A fetch is complete and exact, whatever the server answers and the directory holds. However it ends,
it has added files under ids that had none, no two under one id, and each holds the object of its id.
If it ends well, every object that the wanted ids reach can be read; files were added for exactly those
that had none; and the requests are those for these objects, one after another and each asked for
once. -/
theorem fetch_is_complete_and_exact (base : String) (limit : Nat) (ids : List ObjectId) (f : Fetch) :
    ∃ new, f.dir.Adds new (f.run base limit ids).2.dir ∧
      (f.run base limit ids).2.fetched = f.fetched + new.length ∧
      ((f.run base limit ids).1 = .ok () →
        (∀ id, (f.run base limit ids).2.dir.Reaches ids id →
          ∃ o, (f.run base limit ids).2.dir.read id = .ok (some o)) ∧
        (∀ id, id ∈ new.map Prod.fst ↔
          (f.run base limit ids).2.dir.Reaches ids id ∧ f.dir.file? id = none) ∧
        ∃ requests, List.Forall₂ (fun p asked => AsksFor base p.1 asked) new requests ∧
          (f.run base limit ids).2.client.server.requests =
            f.client.server.requests ++ requests.flatten) := by
  obtain ⟨new, hadds, hfetched, hended⟩ :=
    visitAll_spec limit (visiting_start base f ids) (Nat.lt_succ_self _)
  refine ⟨new, hadds, hfetched, fun hok => ?_⟩
  obtain ⟨seen, hvisiting⟩ := hended hok
  refine ⟨fun id hid => ?_, fun id => ?_, hvisiting.downloaded.asked⟩
  · obtain ⟨o, hread, -⟩ := hvisiting.closed id (hvisiting.reaches_iff.mp hid)
    exact ⟨o, hread⟩
  · constructor
    · intro hid
      obtain ⟨p, hp, rfl⟩ := List.mem_map.mp hid
      exact ⟨hvisiting.reaches_iff.mpr (hvisiting.visited p hp), hadds.fresh p hp⟩
    · rintro ⟨hreaches, hnone⟩
      obtain ⟨o, hread, -⟩ := hvisiting.closed id (hvisiting.reaches_iff.mp hreaches)
      by_contra hno
      exact LooseDir.file?_ne_none_of_read hread (hadds.file?_eq_none.mpr ⟨hnone, hno⟩)

end Fetch

/-- A short file. -/
def noteBlob : Object := .blob (bytesOf "x")

/-- A tag of that file. -/
def noteTag : Object := ⟨.tag, Object.headerLine "object" noteBlob.id.hexBytes⟩

/-- A fetch from a server of that file, into a directory with the tag. -/
def noteFetch : Fetch where
  client := { server := { responses := [⟨200, none, noteBlob.toLoose Zlib.stored⟩] } }
  dir := ⟨[(noteTag.id, noteTag.toLoose Zlib.stored)]⟩

/-- Fetching the tag follows its link although the tag is there, and downloads the file only. -/
theorem fetch_is_complete_and_exact_tagged :
    (noteFetch.run "http://h/" 10 [noteTag.id]).1 = .ok () ∧
    ∃ new, noteFetch.dir.Adds new (noteFetch.run "http://h/" 10 [noteTag.id]).2.dir ∧
      noteBlob.id ∈ new.map Prod.fst ∧ noteTag.id ∉ new.map Prod.fst := by
  have hok : (noteFetch.run "http://h/" 10 [noteTag.id]).1 = .ok () := by decide +kernel
  obtain ⟨new, hadds, -, hended⟩ := Fetch.fetch_is_complete_and_exact "http://h/" 10 [noteTag.id] noteFetch
  obtain ⟨-, hexact, -⟩ := hended hok
  have hread : (noteFetch.run "http://h/" 10 [noteTag.id]).2.dir.read noteTag.id =
      .ok (some noteTag) := by decide +kernel
  have hlink : noteTag.LinksTo noteBlob.id :=
    ⟨bytesOf "object " ++ noteBlob.id.hexBytes, by decide +kernel, bytesOf "object",
      by decide, noteBlob.id.hexBytes, by decide +kernel, by decide +kernel⟩
  refine ⟨hok, new, hadds, (hexact _).mpr ⟨.link (.root List.mem_cons_self) hread hlink, ?_⟩,
    fun hmem => ?_⟩
  · decide +kernel
  · have hpresent : noteFetch.dir.file? noteTag.id ≠ none := by decide +kernel
    exact hpresent ((hexact _).mp hmem).2

end GitRemote
