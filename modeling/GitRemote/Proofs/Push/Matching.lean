import GitRemote.Push.Matching
import Mathlib.Data.List.Basic

/-!
# What refspecs give to refs

Each refspec goes to the first ref of its target's name, and a second one for the same ref ends the
matching. So a ref that has a local counterpart has it from one refspec only, keeps the value that was
advertised first for its name, and is left without a status that stops it only if its update keeps
what the remote has.
-/

namespace GitRemote

/-- The value that was advertised first for a name; there is no object if none was. -/
def advertisedValue (refs : List Ref) (name : String) : ObjectId :=
  ((refs.map fun r => (r.name, r.oldId)).lookup name).getD .null

/-- The first ref of a name is searched by names only. -/
theorem findRef_eq (refs : List Ref) (name : String) :
    findRef refs name = (refs.map Ref.name).findIdx? (· == name) := by
  rw [findRef, findRefFrom, List.drop_zero, List.findIdx?_map]
  exact Option.map_id'

/-- What is found by a name is a ref of that name. -/
theorem exists_of_findRef {refs : List Ref} {name : String} {i : Nat}
    (h : findRef refs name = some i) : ∃ r, refs[i]? = some r ∧ r.name = name := by
  rw [findRef_eq] at h
  obtain ⟨hi, hname, _⟩ := List.findIdx?_eq_some_iff_getElem.mp h
  rw [List.length_map] at hi
  rw [List.getElem_map, beq_iff_eq] at hname
  exact ⟨refs[i], List.getElem?_eq_getElem hi, hname⟩

/-- The first ref of a name has the value that counts. -/
theorem advertisedValue_of_findRef {refs : List Ref} {name : String} {i : Nat} {r : Ref}
    (hfind : findRef refs name = some i) (hr : refs[i]? = some r) :
    advertisedValue refs name = r.oldId := by
  rw [findRef_eq] at hfind
  induction refs generalizing i with
  | nil => cases hr
  | cons a refs ih =>
    rw [List.map_cons, List.findIdx?_cons] at hfind
    by_cases ha : a.name = name
    · rw [if_pos (by simpa using ha), Option.some.injEq] at hfind
      rw [← hfind, List.getElem?_cons_zero, Option.some.injEq] at hr
      rw [advertisedValue, List.map_cons, List.lookup_cons, ha, beq_self_eq_true, ← hr]
      rfl
    · have hne : (name == a.name) = false := by simpa using Ne.symm ha
      rw [if_neg (by simpa using ha)] at hfind
      obtain ⟨j, hj, rfl⟩ := Option.map_eq_some_iff.mp hfind
      rw [List.getElem?_cons_succ] at hr
      rw [← ih hj hr, advertisedValue, List.map_cons, List.lookup_cons, hne]
      rfl

/-- A ref that is put in the place of another changes no more of the list than the two differ. -/
theorem map_set_of_eq {α : Type} {f : Ref → α} {refs : List Ref} {i : Nat} {r r' : Ref}
    (hr : refs[i]? = some r) (hf : f r' = f r) : (refs.set i r').map f = refs.map f := by
  apply List.ext_getElem?
  intro j
  rw [List.getElem?_map, List.getElem?_map]
  by_cases hij : i = j
  · subst hij
    rw [List.getElem?_set_self (List.getElem?_eq_some_iff.mp hr).1, hr, Option.map_some,
      Option.map_some, hf]
  · rw [List.getElem?_set_ne hij]

namespace LocalRepository

variable {repo : LocalRepository} {remote refs refs' : List Ref} {specs : List Refspec}
  {spec : Refspec}

/-- The update from one value to another may be sent: it changes the value, unless it deletes, and
what it replaces is kept in the history of the new value, unless it is forced. -/
structure Keeps (repo : LocalRepository) (force : Bool) (old new : ObjectId) : Prop where
  changes : new ≠ .null → old ≠ new
  present : old ≠ .null → new ≠ .null → force = false → repo.source.contains old = .ok true
  behind : old ≠ .null → new ≠ .null → force = false → repo.isAncestor old new = .ok true

/-- One of some refspecs, and no other, gave its value to a ref. -/
structure Grants (repo : LocalRepository) (remote : List Ref) (specs : List Refspec)
    (spec : Refspec) (r : Ref) : Prop where
  only : specs.filter (·.target == r.name) = [spec]
  old : r.oldId = advertisedValue remote r.name
  new : if spec.isDeletion then r.newId = .null else repo.resolve spec.source = .ok (some r.newId)
  keeps : r.status ≠ .upToDate → r.status ≠ .nonFastForward →
    repo.Keeps spec.force r.oldId r.newId

/-- The refs of a remote after some refspecs were matched with them. -/
structure Matched (repo : LocalRepository) (remote : List Ref) (specs : List Refspec)
    (refs : List Ref) : Prop where
  values : ∀ name, advertisedValue refs name = advertisedValue remote name
  first : ∀ i r, refs[i]? = some r → r.peer.isSome = true → findRef refs r.name = some i
  granted : ∀ r ∈ refs, r.peer.isSome = true → ∃ spec, repo.Grants remote specs spec r
  covered : ∀ spec ∈ specs, ∃ r ∈ refs, r.name = spec.target ∧ r.peer.isSome = true

/-- At first there are the advertised values only. -/
theorem matched_plain (repo : LocalRepository) (remote : List Ref) :
    repo.Matched remote [] (remote.map plain) where
  values name := by
    rw [advertisedValue, advertisedValue, List.map_map]
    rfl
  first i r hr hpeer := by
    obtain ⟨r₀, _, rfl⟩ := List.mem_map.mp (List.mem_of_getElem? hr)
    cases hpeer
  granted r hr hpeer := by
    obtain ⟨r₀, _, rfl⟩ := List.mem_map.mp hr
    cases hpeer
  covered spec hspec := by cases hspec

/-- The value of a refspec. -/
theorem valueOf_eq_ok {peer : String} {new : ObjectId} (h : repo.valueOf spec = .ok (peer, new)) :
    if spec.isDeletion then new = .null else repo.resolve spec.source = .ok (some new) := by
  rw [valueOf] at h
  split at h
  · next hdel =>
    cases h
    rw [if_pos hdel]
  · next hdel =>
    rw [if_neg hdel]
    split at h
    · cases h
    · cases h
    · next hresolve =>
      cases h
      exact hresolve

/-- A fast-forward is from an object that is there to one that descends from it. -/
theorem isFastForward_eq_true {old new : ObjectId} (h : repo.isFastForward old new = .ok true) :
    repo.source.contains old = .ok true ∧ repo.isAncestor old new = .ok true := by
  rw [isFastForward] at h
  split at h
  · cases h
  · cases h
  · next hcontains => exact ⟨hcontains, h⟩

/-- Deciding on the status of a ref changes nothing else that counts, and a ref that is not stopped
keeps what the remote has. -/
theorem annotate_eq_ok {force : Bool} {r r' : Ref} (hdel : r.deletion = r.newId.isNull)
    (h : repo.annotate force r = .ok r') :
    r'.name = r.name ∧ r'.oldId = r.oldId ∧ r'.newId = r.newId ∧ r'.peer = r.peer ∧
      (r'.status ≠ .upToDate → r'.status ≠ .nonFastForward →
        repo.Keeps force r.oldId r.newId) := by
  rw [annotate] at h
  split at h
  · next hdeletion =>
    cases h
    have hnew : r.newId = .null := by
      rw [hdel, ObjectId.isNull, beq_iff_eq] at hdeletion
      exact hdeletion
    exact ⟨rfl, rfl, rfl, rfl, fun _ _ => ⟨fun hn => absurd hnew hn, fun _ hn => absurd hnew hn,
      fun _ hn => absurd hnew hn⟩⟩
  · split at h
    · cases h
      exact ⟨rfl, rfl, rfl, rfl, fun hstatus => absurd rfl hstatus⟩
    · next hne =>
      split at h
      · next hnull =>
        cases h
        have hold : r.oldId = .null := by
          rw [ObjectId.isNull, beq_iff_eq] at hnull
          exact hnull
        exact ⟨rfl, rfl, rfl, rfl, fun _ _ => ⟨fun _ => hne, fun ho => absurd hold ho,
          fun ho => absurd hold ho⟩⟩
      · split at h
        · cases h
        · next fastForward hff =>
          cases h
          refine ⟨rfl, rfl, rfl, rfl, fun _ hstatus => ?_⟩
          have hgood : force = false → fastForward = true := by
            intro hforce
            by_contra hslow
            simp [hforce, hslow] at hstatus
          refine ⟨fun _ => hne, fun _ _ hforce => ?_, fun _ _ hforce => ?_⟩
          · exact (isFastForward_eq_true (hgood hforce ▸ hff)).1
          · exact (isFastForward_eq_true (hgood hforce ▸ hff)).2

/-- The place of a refspec is the first ref of its target's name. A ref that is added has no value
and no local counterpart. -/
theorem place_eq_ok {i : Nat} (h : place refs spec = .ok (refs', i)) :
    findRef refs' spec.target = some i ∧
      (refs' = refs ∨ findRef refs spec.target = none ∧
        refs' = refs ++ [{ name := spec.target, oldId := .null }]) := by
  rw [place] at h
  split at h
  · next j hfind =>
    cases h
    exact ⟨hfind, .inl rfl⟩
  · next hfind =>
    split at h
    · cases h
    · cases h
      refine ⟨?_, .inr ⟨hfind, rfl⟩⟩
      rw [findRef_eq] at hfind ⊢
      rw [List.map_append, List.findIdx?_append, hfind]
      simp

/-- A name that no ref has can be added. -/
theorem Matched.place {i : Nat} (h : repo.Matched remote specs refs)
    (hp : LocalRepository.place refs spec = .ok (refs', i)) : repo.Matched remote specs refs' := by
  obtain ⟨_, rfl | ⟨hnone, rfl⟩⟩ := place_eq_ok hp
  · exact h
  refine ⟨?_, ?_, ?_, ?_⟩
  · intro name
    rw [← h.values name, advertisedValue, advertisedValue, List.map_append, List.lookup_append]
    cases hl : (refs.map fun r => (r.name, r.oldId)).lookup name with
    | some id => rfl
    | none =>
      show (match name == spec.target with
        | true => some ObjectId.null
        | false => none).getD .null = .null
      cases name == spec.target <;> rfl
  · intro j r hr hpeer
    rcases Nat.lt_or_ge j refs.length with hj | hj
    · rw [List.getElem?_append_left hj] at hr
      have hfirst := h.first j r hr hpeer
      rw [findRef_eq] at hfirst ⊢
      rw [List.map_append, List.findIdx?_append, hfirst]
      rfl
    · rw [List.getElem?_append_right hj] at hr
      obtain rfl : r = { name := spec.target, oldId := .null } := by
        simpa using List.mem_of_getElem? hr
      cases hpeer
  · intro r hr hpeer
    rcases List.mem_append.mp hr with hr | hr
    · exact h.granted r hr hpeer
    · obtain rfl := List.mem_singleton.mp hr
      cases hpeer
  · intro s hs
    obtain ⟨r, hr, hrest⟩ := h.covered s hs
    exact ⟨r, List.mem_append_left _ hr, hrest⟩

/-- A ref with a local counterpart is first of its name, so it is not at a place that is free. -/
theorem Matched.name_ne_target {i : Nat} {r : Ref} (h : repo.Matched remote specs refs)
    (hfind : findRef refs spec.target = some i) (hr : refs[i]? = some r) (hpeer : r.peer = none) :
    ∀ r₁ ∈ refs, r₁.peer.isSome = true → r₁.name ≠ spec.target := by
  intro r₁ hr₁ hpeer₁ hsame
  obtain ⟨j, hj⟩ := List.getElem?_of_mem hr₁
  have hfirst := h.first j r₁ hj hpeer₁
  rw [hsame, hfind, Option.some.injEq] at hfirst
  rw [← hfirst, hr, Option.some.injEq] at hj
  rw [← hj, hpeer] at hpeer₁
  cases hpeer₁

/-- The first ref of a name may be given a value. -/
theorem Matched.set {i : Nat} {r r' : Ref} (h : repo.Matched remote specs refs)
    (hfind : findRef refs spec.target = some i) (hr : refs[i]? = some r) (hpeer : r.peer = none)
    (hname : r'.name = spec.target) (hold : r'.oldId = r.oldId) (hpeer' : r'.peer.isSome = true)
    (hnew : if spec.isDeletion then r'.newId = .null
      else repo.resolve spec.source = .ok (some r'.newId))
    (hkeeps : r'.status ≠ .upToDate → r'.status ≠ .nonFastForward →
      repo.Keeps spec.force r'.oldId r'.newId) :
    repo.Matched remote (specs ++ [spec]) (refs.set i r') := by
  obtain ⟨r₀, hr₀, hrname⟩ := exists_of_findRef hfind
  obtain rfl : r₀ = r := Option.some.inj (hr₀.symm.trans hr)
  have hnames : (refs.set i r').map Ref.name = refs.map Ref.name :=
    map_set_of_eq hr (hname.trans hrname.symm)
  have hpairs : (refs.set i r').map (fun r => (r.name, r.oldId)) =
      refs.map fun r => (r.name, r.oldId) :=
    map_set_of_eq hr (by rw [hname, hold, hrname])
  have hother := h.name_ne_target hfind hr hpeer
  have hvalues : ∀ name, advertisedValue (refs.set i r') name = advertisedValue remote name := by
    intro name
    rw [← h.values name, advertisedValue, advertisedValue, hpairs]
  refine ⟨hvalues, ?_, ?_, ?_⟩
  · intro j r₁ hr₁ hpeer₁
    rw [findRef_eq, hnames, ← findRef_eq]
    by_cases hij : i = j
    · subst hij
      rw [List.getElem?_set_self (List.getElem?_eq_some_iff.mp hr).1, Option.some.injEq] at hr₁
      rw [← hr₁, hname, hfind]
    · rw [List.getElem?_set_ne hij] at hr₁
      exact h.first j r₁ hr₁ hpeer₁
  · intro r₁ hr₁ hpeer₁
    rcases List.mem_or_eq_of_mem_set hr₁ with hr₁ | rfl
    · obtain ⟨spec₁, hgrants⟩ := h.granted r₁ hr₁ hpeer₁
      refine ⟨spec₁, ?_, hgrants.old, hgrants.new, hgrants.keeps⟩
      have hne : (spec.target == r₁.name) = false := by
        simpa using (hother r₁ hr₁ hpeer₁).symm
      rw [List.filter_append, hgrants.only, List.filter_cons_of_neg (by simp [hne]), List.filter_nil,
        List.append_nil]
    · refine ⟨spec, ?_, ?_, hnew, hkeeps⟩
      · have hnone : specs.filter (·.target == r₁.name) = [] := by
          rw [List.filter_eq_nil_iff]
          intro s hs htarget
          obtain ⟨r₂, hr₂, hname₂, hpeer₂⟩ := h.covered s hs
          rw [beq_iff_eq, hname] at htarget
          exact hother r₂ hr₂ hpeer₂ (hname₂.trans htarget)
        rw [List.filter_append, hnone, List.filter_cons_of_pos (by simp [hname]), List.filter_nil,
          List.nil_append]
      · rw [hold, hname, ← h.values, advertisedValue_of_findRef hfind hr]
  · intro s hs
    have hi : i < refs.length := (List.getElem?_eq_some_iff.mp hr).1
    rcases List.mem_append.mp hs with hs | hs
    · obtain ⟨r₁, hr₁, hname₁, hpeer₁⟩ := h.covered s hs
      obtain ⟨j, hj⟩ := List.getElem?_of_mem hr₁
      have hij : i ≠ j := by
        rintro rfl
        rw [hr, Option.some.injEq] at hj
        exact hother r₁ hr₁ hpeer₁ (hj ▸ hrname)
      refine ⟨r₁, List.mem_of_getElem? (i := j) ?_, hname₁, hpeer₁⟩
      rw [List.getElem?_set_ne hij, hj]
    · obtain rfl := List.mem_singleton.mp hs
      exact ⟨r', List.mem_of_getElem? (List.getElem?_set_self hi), hname, hpeer'⟩

/-- One more refspec gives its value to one ref. -/
theorem Matched.matchOne (h : repo.Matched remote specs refs)
    (hm : repo.matchOne refs spec = .ok refs') : repo.Matched remote (specs ++ [spec]) refs' := by
  rw [LocalRepository.matchOne] at hm
  split at hm
  · cases hm
  · next peer new hvalue =>
    split at hm
    · cases hm
    · next refs₁ i hplace =>
      obtain ⟨hfind, _⟩ := place_eq_ok hplace
      obtain ⟨r, hr, hrname⟩ := exists_of_findRef hfind
      simp only [hr] at hm
      split at hm
      · cases hm
      · next hfree =>
        have hpeer : r.peer = none := by simpa using hfree
        cases hannotate : repo.annotate spec.force (r.withUpdate peer new) with
        | error e =>
          rw [hannotate] at hm
          cases hm
        | ok r' =>
          rw [hannotate] at hm
          cases hm
          obtain ⟨hname, hold, hnew, hpeer', hkeeps⟩ := annotate_eq_ok rfl hannotate
          have hvalue' := valueOf_eq_ok hvalue
          refine (h.place hplace).set hfind hr hpeer (hname.trans hrname) hold ?_ ?_ ?_
          · rw [hpeer']
            rfl
          · rw [hnew]
            exact hvalue'
          · rw [hold, hnew]
            exact hkeeps

/-- What holds of the advertised refs, and is kept by each refspec, holds when all were matched. -/
theorem matchPush_induction {motive : List Refspec → List Ref → Prop}
    (start : motive [] (remote.map plain))
    (step : ∀ done spec before after, motive done before → repo.matchOne before spec = .ok after →
      motive (done ++ [spec]) after)
    (h : repo.matchPush remote specs = .ok refs) : motive specs refs := by
  have hrun (done specs : List Refspec) (before : List Ref) (hbefore : motive done before)
      (h : specs.foldlM repo.matchOne before = .ok refs) : motive (done ++ specs) refs := by
    induction specs generalizing done before with
    | nil =>
      cases h
      rwa [List.append_nil]
    | cons spec specs ih =>
      rw [List.foldlM_cons] at h
      cases hone : repo.matchOne before spec with
      | error e =>
        rw [hone] at h
        cases h
      | ok next =>
        rw [hone] at h
        have hnext := ih (done ++ [spec]) next (step done spec before next hbefore hone) h
        rwa [List.append_assoc, List.singleton_append] at hnext
  exact hrun [] specs _ start h

/-- Matching all refspecs leaves every ref with a local counterpart to one of them. -/
theorem matched_of_matchPush (h : repo.matchPush remote specs = .ok refs) :
    repo.Matched remote specs refs :=
  matchPush_induction (matched_plain repo remote) (fun _ _ _ _ hbefore hone => hbefore.matchOne hone) h

end LocalRepository

end GitRemote
