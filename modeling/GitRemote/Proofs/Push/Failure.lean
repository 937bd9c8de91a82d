import GitRemote.Proofs.Push.History

/-!
# Packs that cannot be produced

A pack that is due can fail in two ways: the source of objects fails while the objects to start from
are collected, or the builder of packs fails. Only the second takes the statuses of all refs back;
after the first, the refs stand as their commands left them.
-/

namespace GitRemote

/-- How the pack for a server is built: with offsets in deltas if the server takes them. -/
def PushArgs.forPack (args : PushArgs) (caps : Capabilities) : PushArgs :=
  { args with ofsDelta := args.ofsDelta || caps.has "ofs-delta" }

/-- A pack is due: all commands fit into packets, and one that is sent is no deletion. -/
structure PackDue (a : Agreement) (args : PushArgs) (refs : List Ref) : Prop where
  fit : CommandsFit a args false refs
  update : ∃ r ∈ sentRefs a args refs, r.deletion = false

/-- The pack of a push is due and cannot be produced. -/
inductive PackFails (server : Advertisement) (refs : List Ref) (args : PushArgs)
    (source : ObjectSource) (produce : PackProducer) : WireError → Prop
  | source {cause : StorageError} (due : PackDue (.of server.capabilities args) args refs)
      (h : PackRequest.collect source refs server.haves (args.forPack server.capabilities) =
        .error cause) :
      PackFails server refs args source produce (.storage cause)
  | producer {request : PackRequest} {e : WireError}
      (due : PackDue (.of server.capabilities args) args refs)
      (hcollect : PackRequest.collect source refs server.haves (args.forPack server.capabilities) =
        .ok request)
      (h : (produce request).2 = .error e) : PackFails server refs args source produce e

theorem PackFails.due {server : Advertisement} {refs : List Ref} {args : PushArgs}
    {source : ObjectSource} {produce : PackProducer} {e : WireError}
    (h : PackFails server refs args source produce e) :
    PackDue (.of server.capabilities args) args refs := by
  cases h <;> assumption

/-! ### The step of a push that builds the pack -/

section

variable {a : Agreement} {args : PushArgs} {refs : List Ref}

/-- A pack is built for commands just if one is due. -/
theorem packDue_iff (hfit : CommandsFit a args false refs) :
    ((writeCommands a args false refs).newRefs = 0 || !(writeCommands a args false refs).sent) =
      false ↔ PackDue a args refs := by
  have hdue : PackDue a args refs ↔ ∃ r ∈ sentRefs a args refs, r.deletion = false :=
    ⟨fun h => h.update, fun h => ⟨hfit, h⟩⟩
  rw [hdue, writeCommands_eq hfit]
  simp only [Bool.false_or, Bool.or_eq_false_iff, decide_eq_false_iff_not, ← Nat.pos_iff_ne_zero,
    List.countP_pos_iff, Bool.and_eq_true, decide_eq_true_eq, Bool.not_eq_true', Bool.not_eq_false',
    mem_sentRefs]
  constructor
  · rintro ⟨⟨r, hr, he, hdel⟩, hsent⟩
    rw [sendsSome, Bool.and_eq_true, Bool.not_eq_true'] at hsent
    exact ⟨r, ⟨hsent.1, hr, he⟩, hdel⟩
  · rintro ⟨r, ⟨hdry, hr, he⟩, hdel⟩
    refine ⟨⟨r, hr, he, hdel⟩, ?_⟩
    rw [sendsSome, hdry, Bool.not_false, Bool.true_and, List.any_eq_true]
    exact ⟨r, hr, decide_eq_true he⟩

/-- What a pack starts from does not depend on the statuses of the refs. -/
theorem collect_commanded (source : ObjectSource) (haves : List ObjectId) (packArgs : PushArgs) :
    PackRequest.collect source (refs.map (·.commanded a args)) haves packArgs =
      PackRequest.collect source refs haves packArgs := by
  have hids (r : Ref) : (r.commanded a args).oldId = r.oldId ∧ (r.commanded a args).newId = r.newId := by
    rw [Ref.commanded]
    split <;> exact ⟨rfl, rfl⟩
  have hrevs : PackRequest.revsOf source (refs.map (·.commanded a args)) =
      PackRequest.revsOf source refs := by
    induction refs with
    | nil => rfl
    | cons r refs ih =>
      rw [List.map_cons, PackRequest.revsOf, PackRequest.revsOf, ih, (hids r).1, (hids r).2]
  rw [PackRequest.collect, PackRequest.collect, hrevs]

/-- Resetting takes back what commanding did to the statuses. -/
theorem resetStatuses_commanded :
    resetStatuses (refs.map (·.commanded a args)) = resetStatuses refs := by
  rw [resetStatuses, resetStatuses, List.map_map]
  refine List.map_congr_left fun r _ => ?_
  show { r.commanded a args with status := .undecided } = { r with status := RefStatus.undecided }
  rw [Ref.commanded]
  split <;> rfl

end

section

variable {input : Bytes} {server : Advertisement} {refs : List Ref} {args : PushArgs}
variable {source : ObjectSource} {produce : PackProducer} {e : WireError}

/-- The step of a push that builds its pack. -/
def packStep (server : Advertisement) (refs : List Ref) (args : PushArgs) (source : ObjectSource)
    (produce : PackProducer) : PackStep :=
  buildPack source produce server.haves (args.forPack server.capabilities)
    (writeCommands (.of server.capabilities args) args false refs)

/-- How the pack step of a push can go. -/
inductive PackGoes (server : Advertisement) (refs : List Ref) (args : PushArgs)
    (source : ObjectSource) (produce : PackProducer) : PackStep → Prop
  | notDue (hnot : ¬ PackDue (.of server.capabilities args) args refs) :
      PackGoes server refs args source produce
        { refs := refs.map (·.commanded (.of server.capabilities args) args) }
  | source {cause : StorageError} (due : PackDue (.of server.capabilities args) args refs)
      (hcollect : PackRequest.collect source refs server.haves (args.forPack server.capabilities) =
        .error cause) :
      PackGoes server refs args source produce
        { refs := refs.map (·.commanded (.of server.capabilities args) args)
          error := some (.storage cause) }
  | built {request : PackRequest} {written : Bytes}
      (due : PackDue (.of server.capabilities args) args refs)
      (hcollect : PackRequest.collect source refs server.haves (args.forPack server.capabilities) =
        .ok request)
      (hproduce : produce request = (written, .ok ())) :
      PackGoes server refs args source produce
        { refs := refs.map (·.commanded (.of server.capabilities args) args)
          written
          request := some request }
  | producer {request : PackRequest} {written : Bytes} {cause : WireError}
      (due : PackDue (.of server.capabilities args) args refs)
      (hcollect : PackRequest.collect source refs server.haves (args.forPack server.capabilities) =
        .ok request)
      (hproduce : produce request = (written, .error cause)) :
      PackGoes server refs args source produce
        { refs := resetStatuses refs, written, request := some request, error := some cause }

/-- The pack of a push is not due, its objects cannot be collected, or it is produced. -/
theorem packGoes_packStep (hfit : CommandsFit (.of server.capabilities args) args false refs) :
    PackGoes server refs args source produce (packStep server refs args source produce) := by
  rw [packStep, buildPack]
  split
  · next hno =>
    rw [refs_writeCommands hfit]
    refine .notDue ?_
    rw [← packDue_iff hfit, hno]
    decide
  · next hdue =>
    have due := (packDue_iff hfit).mp (Bool.eq_false_iff.mpr hdue)
    rw [refs_writeCommands hfit, collect_commanded, resetStatuses_commanded]
    split
    · next hcollect => exact .source due hcollect
    · next hcollect =>
      split
      · next hproduce => exact .built due hcollect hproduce
      · next hproduce => exact .producer due hcollect hproduce

/-- The pack step fails just if the pack is due and cannot be produced. -/
theorem error_packStep (hfit : CommandsFit (.of server.capabilities args) args false refs) :
    (packStep server refs args source produce).error = some e ↔
      PackFails server refs args source produce e := by
  have hgoes : PackGoes server refs args source produce _ := packGoes_packStep hfit
  generalize packStep server refs args source produce = step at hgoes
  constructor
  · intro h
    cases hgoes with
    | notDue => cases h
    | source due hcollect =>
      cases h
      exact .source due hcollect
    | built => cases h
    | producer due hcollect hproduce =>
      cases h
      exact .producer due hcollect (by rw [hproduce])
  · intro h
    cases hgoes with
    | notDue hnot => exact absurd h.due hnot
    | source _ hcollect =>
      rcases h with ⟨-, h⟩ | ⟨-, h, -⟩ <;> rw [hcollect] at h <;> cases h
      rfl
    | built _ hcollect hproduce =>
      rcases h with ⟨-, h⟩ | ⟨-, h, hfail⟩ <;> rw [hcollect] at h <;> cases h
      rw [hproduce] at hfail
      cases hfail
    | producer _ hcollect hproduce =>
      rcases h with ⟨-, h⟩ | ⟨-, h, hfail⟩ <;> rw [hcollect] at h <;> cases h
      rw [hproduce] at hfail
      cases hfail
      rfl

/-- A push whose pack fails ends with that failure, and with the refs as the pack step leaves them. -/
theorem sendPush_of_packFails (input : Bytes) (h : PackFails server refs args source produce e) :
    (sendPush input server refs args source produce).result = .error e ∧
      (sendPush input server refs args source produce).refs =
        (packStep server refs args source produce).refs := by
  have hempty : refs.isEmpty = false := by
    obtain ⟨r, hr, -⟩ := h.due.update
    simpa using List.ne_nil_of_mem (sentRefs_sublist.mem hr)
  have herror : (writeCommands (.of server.capabilities args) args false refs).error = none :=
    error_writeCommands_iff.mpr h.due.fit
  have hstep := (error_packStep h.due.fit).mpr h
  rw [packStep, PushArgs.forPack] at hstep
  rw [packStep, PushArgs.forPack, sendPush, hempty]
  simp only [Bool.false_eq_true, ite_false, herror, frameCommands_eq, hstep, and_self]

/-- Where the builder of packs fails, the refs are left without any status; where the source of objects
fails, they are left as their commands were written. -/
theorem refs_packStep (h : PackFails server refs args source produce e) :
    (packStep server refs args source produce).refs =
      match PackRequest.collect source refs server.haves (args.forPack server.capabilities) with
      | .ok _ => resetStatuses refs
      | .error _ => refs.map (·.commanded (.of server.capabilities args) args) := by
  have hfails := (error_packStep h.due.fit).mpr h
  have hgoes : PackGoes server refs args source produce _ := packGoes_packStep h.due.fit
  generalize packStep server refs args source produce = step at hfails hgoes
  cases hgoes with
  | notDue => cases hfails
  | source _ hcollect => rw [hcollect]
  | built => cases hfails
  | producer _ hcollect => rw [hcollect]

/-- A push whose pack fails leaves the refs without a status, or as their commands left them. -/
theorem refs_sendPush_of_packFails (input : Bytes) (h : PackFails server refs args source produce e) :
    (sendPush input server refs args source produce).refs = resetStatuses refs ∨
      (sendPush input server refs args source produce).refs =
        refs.map (·.commanded (.of server.capabilities args) args) := by
  rw [(sendPush_of_packFails input h).2, refs_packStep h]
  split
  · exact .inl rfl
  · exact .inr rfl

/-- A ref that is sent is left with a status. -/
theorem status_commanded_of_mem_sentRefs {a : Agreement} {r : Ref} (h : r ∈ sentRefs a args refs) :
    (r.commanded a args).status ≠ .undecided := by
  obtain ⟨hdry, -, he⟩ := mem_sentRefs.mp h
  rw [Ref.commanded, he]
  cases a.statusReport <;> simp [hdry]

/-- A push whose pack cannot be produced fails with the cause. Where the builder of packs failed, no
ref has a status afterwards; where the source of objects failed, the refs keep the statuses of their
commands, and for at least one of them that is not the status of an undecided ref. -/
theorem failed_pack_resets_iff_producer_failed
    (h : PackFails server refs args source produce e) :
    (sendPush input server refs args source produce).result = .error e ∧
    (sendPush input server refs args source produce).refs =
      (match PackRequest.collect source refs server.haves (args.forPack server.capabilities) with
      | .ok _ => resetStatuses refs
      | .error _ => refs.map (·.commanded (.of server.capabilities args) args)) ∧
    ((∀ r ∈ (sendPush input server refs args source produce).refs, r.status = .undecided) ↔
      ∃ request, PackRequest.collect source refs server.haves
        (args.forPack server.capabilities) = .ok request) := by
  obtain ⟨hresult, hrefs⟩ := sendPush_of_packFails input h
  rw [refs_packStep h] at hrefs
  refine ⟨hresult, hrefs, ?_⟩
  rw [hrefs]
  cases h with
  | @source cause due hcollect =>
    rw [hcollect]
    simp only [reduceCtorEq, exists_false, iff_false]
    obtain ⟨r, hr, -⟩ := due.update
    intro hall
    exact status_commanded_of_mem_sentRefs hr
      (hall _ (List.mem_map_of_mem (sentRefs_sublist.mem hr)))
  | @producer request _ due hcollect hfail =>
    rw [hcollect]
    refine ⟨fun _ => ⟨request, rfl⟩, fun _ r hr => ?_⟩
    obtain ⟨q, -, rfl⟩ := List.mem_map.mp hr
    rfl

end

/-- The branch `a` is moved, and the branch `b` is at its new value already. -/
def moveOne : List Ref :=
  [{ name := "a", oldId := uniformId 1, newId := uniformId 2, peer := some "a" },
    { name := "b", oldId := uniformId 3, newId := uniformId 3, peer := some "b", status := .upToDate }]

/-- A server that reports on pushes. -/
def reportingServer : Advertisement := { capabilities := ⟨["report-status"]⟩ }

/-- A source without objects. -/
def emptySource : ObjectSource where
  read _ := .ok none

/-- A source whose objects cannot be read. -/
def brokenSource : ObjectSource where
  read id := .error (.invalid (.unreadable ("broken " ++ id.hex)))

theorem packDue_moveOne : PackDue (.of reportingServer.capabilities {}) {} moveOne :=
  ⟨by decide +kernel, by decide +kernel⟩

/-- Where the builder of packs hangs up, the branches are left without a status. -/
theorem failed_pack_resets_iff_producer_failed_hungUp :
    PackFails reportingServer moveOne {} emptySource (.ofPack [] (.error (.protocol .hungUp)))
      (.protocol .hungUp) ∧
    ∀ r ∈ (sendPush [] reportingServer moveOne {} emptySource
      (.ofPack [] (.error (.protocol .hungUp)))).refs, r.status = .undecided := by
  have hfails : PackFails reportingServer moveOne {} emptySource
      (.ofPack [] (.error (.protocol .hungUp))) (.protocol .hungUp) :=
    .producer packDue_moveOne rfl rfl
  exact ⟨hfails, (failed_pack_resets_iff_producer_failed hfails).2.2.mpr ⟨_, rfl⟩⟩

/-- Where the source of objects cannot be read, the branch that was sent stays one that a report is
expected on, though the pack could not be produced. -/
theorem failed_source_keeps_statuses :
    PackFails reportingServer moveOne {} brokenSource (.ofPack [] (.ok ()))
      (.storage (.invalid (.unreadable ("broken " ++ (uniformId 1).hex)))) ∧
    ((sendPush [] reportingServer moveOne {} brokenSource (.ofPack [] (.ok ()))).refs.map
      Ref.status = [.expectingReport, .upToDate]) ∧
    ¬ ∀ r ∈ (sendPush [] reportingServer moveOne {} brokenSource (.ofPack [] (.ok ()))).refs,
      r.status = .undecided :=
  ⟨.source packDue_moveOne rfl, by decide +kernel, by decide +kernel⟩

end GitRemote
