import GitRemote.Fetch.Walk
import GitRemote.Proofs.Http.Turn
import GitRemote.Proofs.Object.Loose

/-!
# Downloading an object

A download adds one file to the directory, under the id that was asked for, and the file holds the
object of that id. It takes one answer of the server, or two if the first one was a refusal. A download
that fails leaves the directory as it was.
-/

namespace GitRemote

/-! ### Directories that grow -/

namespace LooseDir

/-- Some files were added to a directory: behind the others, no two under one id, under ids that had no
file, and each with the object of its id. -/
structure Adds (dir : LooseDir) (new : List (ObjectId × Bytes)) (dir' : LooseDir) : Prop where
  files : dir'.files = dir.files ++ new
  nodup : (new.map Prod.fst).Nodup
  fresh : ∀ p ∈ new, dir.file? p.1 = none
  sound : ∀ p ∈ new, ∃ o, Object.ofLoose p.2 = .ok o ∧ o.id = p.1

variable {dir dir' : LooseDir} {new : List (ObjectId × Bytes)} {id : ObjectId} {bytes : Bytes}
  {o : Object}

theorem adds_nil (dir : LooseDir) : dir.Adds [] dir :=
  ⟨(List.append_nil _).symm, List.nodup_nil, by simp, by simp⟩

theorem file?_append (dir : LooseDir) (new : List (ObjectId × Bytes)) (id : ObjectId) :
    (⟨dir.files ++ new⟩ : LooseDir).file? id = (dir.file? id).or (new.lookup id) :=
  List.lookup_append

/-- A directory has a file under an id if it had one or one was added. -/
theorem Adds.file?_eq_none (h : dir.Adds new dir') :
    dir'.file? id = none ↔ dir.file? id = none ∧ id ∉ new.map Prod.fst := by
  have hlookup : dir'.file? id = (dir.file? id).or (new.lookup id) := by
    rw [← file?_append, ← h.files]
  rw [hlookup, Option.or_eq_none_iff, List.lookup_eq_none_iff, List.mem_map]
  refine and_congr_right fun _ => ⟨fun hall => ?_, fun hno p hp => ?_⟩
  · rintro ⟨p, hp, rfl⟩
    simpa using hall p hp
  · rw [bne_iff_ne]
    rintro rfl
    exact hno ⟨p, hp, rfl⟩

/-- An object that can be read can still be read when files are added. -/
theorem read_append (h : dir.read id = .ok (some o)) (new : List (ObjectId × Bytes)) :
    (⟨dir.files ++ new⟩ : LooseDir).read id = .ok (some o) := by
  rw [read] at h ⊢
  rw [file?_append]
  cases hfile : dir.file? id with
  | none =>
    rw [hfile] at h
    cases h
  | some compressed =>
    rw [hfile] at h
    exact h

/-- An object that can be read has a file. -/
theorem file?_ne_none_of_read (h : dir.read id = .ok (some o)) : dir.file? id ≠ none := by
  intro hnone
  rw [read, hnone] at h
  cases h

/-- An object is missing only if it has no file. -/
theorem file?_eq_none_of_read (h : dir.read id = .ok none) : dir.file? id = none := by
  rw [read] at h
  cases hfile : dir.file? id with
  | none => rfl
  | some compressed =>
    rw [hfile] at h
    dsimp only at h
    split at h
    · cases h
    · split at h <;> cases h

/-- What was added last can be read. -/
theorem read_snoc (hnone : dir.file? id = none) (hdecode : Object.ofLoose bytes = .ok o)
    (hid : o.id = id) : (⟨dir.files ++ [(id, bytes)]⟩ : LooseDir).read id = .ok (some o) := by
  have hfile : (⟨dir.files ++ [(id, bytes)]⟩ : LooseDir).file? id = some bytes := by
    rw [file?_append, hnone, Option.none_or, List.lookup_cons, beq_self_eq_true]
  simp only [read, hfile, hdecode, hid, ite_true]

/-- One more file is added. -/
theorem Adds.snoc (h : dir.Adds new dir') (hnone : dir'.file? id = none)
    (hdecode : Object.ofLoose bytes = .ok o) (hid : o.id = id) :
    dir.Adds (new ++ [(id, bytes)]) ⟨dir'.files ++ [(id, bytes)]⟩ := by
  obtain ⟨hold, hnot⟩ := h.file?_eq_none.mp hnone
  refine ⟨by rw [h.files, List.append_assoc], ?_, fun p hp => ?_, fun p hp => ?_⟩
  · rw [List.map_append, List.nodup_append]
    refine ⟨h.nodup, by simp, fun a ha b hb => ?_⟩
    rw [List.mem_singleton.mp hb]
    rintro rfl
    exact hnot ha
  · rcases List.mem_append.mp hp with hp | hp
    · exact h.fresh p hp
    · rw [List.mem_singleton.mp hp]
      exact hold
  · rcases List.mem_append.mp hp with hp | hp
    · exact h.sound p hp
    · rw [List.mem_singleton.mp hp]
      exact ⟨o, hdecode, hid⟩

/-- A directory takes a file in under an id that it has none for if the file holds that object. -/
theorem writeCompressed_eq_ok (hnone : dir.file? id = none)
    (h : dir.writeCompressed id bytes = .ok dir') :
    dir' = ⟨dir.files ++ [(id, bytes)]⟩ ∧ ∃ o, Object.ofLoose bytes = .ok o ∧ o.id = id := by
  obtain ⟨o, hdecode, hid, rfl⟩ := writeCompressed_eq_ok_iff.mp h
  exact ⟨by rw [addFile, hnone], o, hdecode, hid⟩

end LooseDir

/-! ### Downloads -/

namespace Fetch

variable {base : String} {f f' : Fetch} {id : ObjectId} {o : Object}

/-- Where the file of an object is kept by a server. -/
def objectUrl (base : String) (id : ObjectId) : String := base ++ "objects/" ++ id.loosePath

/-- The requests of one download: one for the file of the object, or two if the first was refused. -/
def AsksFor (base : String) (id : ObjectId) (asked : List Http.Received) : Prop :=
  0 < asked.length ∧ asked.length ≤ 2 ∧
    ∀ q ∈ asked, q.method = .get ∧ q.url = objectUrl base id

/-- An object was downloaded. -/
structure Downloads (base : String) (f : Fetch) (id : ObjectId) (bytes : Bytes) (o : Object)
    (asked : List Http.Received) (f' : Fetch) : Prop where
  missing : f.dir.file? id = none
  dir : f'.dir = ⟨f.dir.files ++ [(id, bytes)]⟩
  decodes : Object.ofLoose bytes = .ok o
  named : o.id = id
  fetched : f'.fetched = f.fetched + 1
  asks : AsksFor base id asked
  requests : f'.client.server.requests = f.client.server.requests ++ asked
  responses : f'.client.server.responses.length < f.client.server.responses.length

/-- Asking for the file of an object, and getting a response, is one download's requests. -/
theorem send_get_eq_ok {c c' : Http.Client} {response : Http.Response}
    (h : c.send (.get (objectUrl base id)) = (.ok response, c')) :
    ∃ asked, AsksFor base id asked ∧ c'.server.requests = c.server.requests ++ asked ∧
      c'.server.responses.length < c.server.responses.length := by
  obtain ⟨steps, hadds, hturn⟩ := c.send_turn (.get (objectUrl base id))
  have hcontent : (Http.Request.get (objectUrl base id)).body.content = .ok ([], false) := rfl
  rw [h] at hadds hturn
  obtain ⟨ks, hpos, htwo, hreceived, hcount⟩ := hturn.received_eq hcontent
  refine ⟨_, ⟨?_, ?_, ?_⟩, hadds.requests.trans (by rw [hreceived]), ?_⟩
  · rwa [List.length_map]
  · rwa [List.length_map]
  · intro q hq
    obtain ⟨k, -, rfl⟩ := List.mem_map.mp hq
    exact ⟨Http.Request.method_carrying _ k, Http.Request.url_carrying _ k⟩
  · have hresponses := hadds.responses
    dsimp only at hresponses
    omega

/-- A download that ends well adds the object that it was for. -/
theorem download_eq_ok (hnone : f.dir.file? id = none) (h : f.download base id = (.ok o, f')) :
    ∃ bytes asked, Downloads base f id bytes o asked f' := by
  rw [download, ← objectUrl] at h
  dsimp only at h
  split at h
  · cases h
  next response client hsend =>
    obtain ⟨asked, hasks, hrequests, hresponses⟩ := send_get_eq_ok hsend
    split at h
    · split at h
      · cases h
      next dir hwrite =>
        obtain ⟨hdir, found, hdecode, hid⟩ := LooseDir.writeCompressed_eq_ok hnone hwrite
        rw [hdecode] at h
        cases h
        exact ⟨response.body, asked, hnone, hdir, hdecode, hid, rfl, hasks, hrequests, hresponses⟩
    · split at h <;> cases h

/-- A download that fails leaves the directory as it was. -/
theorem download_eq_error {e : RemoteError} (hnone : f.dir.file? id = none)
    (h : f.download base id = (.error e, f')) : f'.dir = f.dir ∧ f'.fetched = f.fetched := by
  rw [download] at h
  dsimp only at h
  split at h
  · cases h
    exact ⟨rfl, rfl⟩
  · split at h
    · split at h
      · cases h
        exact ⟨rfl, rfl⟩
      next dir hwrite =>
        obtain ⟨-, found, hdecode, -⟩ := LooseDir.writeCompressed_eq_ok hnone hwrite
        rw [hdecode] at h
        cases h
    · split at h <;> cases h <;> exact ⟨rfl, rfl⟩

/-- An object that is asked for is there already, or is downloaded. -/
theorem object_eq_ok (h : f.object base id = (.ok o, f')) :
    f' = f ∧ f.dir.read id = .ok (some o) ∨ ∃ bytes asked, Downloads base f id bytes o asked f' := by
  rw [object] at h
  split at h
  · cases h
  · next hread =>
    cases h
    exact .inl ⟨rfl, hread⟩
  · next hread => exact .inr (download_eq_ok (LooseDir.file?_eq_none_of_read hread) h)

/-- Where an object cannot be had, nothing was stored and nothing counted as fetched. -/
theorem object_eq_error {e : RemoteError} (h : f.object base id = (.error e, f')) :
    f'.dir = f.dir ∧ f'.fetched = f.fetched := by
  rw [object] at h
  split at h
  · cases h
    exact ⟨rfl, rfl⟩
  · cases h
  · next hread => exact download_eq_error (LooseDir.file?_eq_none_of_read hread) h

end Fetch

end GitRemote
