import GitRemote.Proofs.Object.Id
import GitRemote.Proofs.Push.Transition

/-!
# Deletions and servers that cannot delete

Whether a command deletes a ref is read off its new value, and whether a ref is rejected is read off its
deletion flag. The two agree for refs that a local ref was found for, and for no others: a ref that is
only mirrored leads to no object and is not flagged, so its deletion is sent.
-/

namespace GitRemote

/-! ### The new value on the wire -/

/-- The value that a command leads to: the forty digits behind the old value and a blank. -/
def newValue? (command : Bytes) : Option ObjectId := ObjectId.ofHex? ((command.drop 41).take 40)

/-- A command starts with the two values, whatever goes with it. -/
theorem terminated_commandLine (a : Agreement) (sent : Bool) (r : Ref) :
    ∃ behind, terminated (commandLine a sent r) =
      (r.oldId.hexBytes ++ [0x20]) ++ (r.newId.hexBytes ++ behind) := by
  obtain ⟨announced, h⟩ : ∃ announced, commandLine a sent r = r.command ++ announced := by
    rw [commandLine]
    split
    · exact ⟨_, rfl⟩
    · exact ⟨[], (List.append_nil _).symm⟩
  obtain ⟨feed, hfeed⟩ : ∃ feed, terminated (commandLine a sent r) = commandLine a sent r ++ feed := by
    rw [terminated]
    split
    · exact ⟨[], (List.append_nil _).symm⟩
    · exact ⟨_, rfl⟩
  refine ⟨0x20 :: Utf8.encode r.name ++ announced ++ feed, ?_⟩
  rw [hfeed, h, Ref.command]
  simp only [List.append_assoc, List.cons_append, List.nil_append]

/-- The server reads the new value of a ref in its command. -/
theorem newValue?_commandLine (a : Agreement) (sent : Bool) (r : Ref) :
    newValue? (terminated (commandLine a sent r)) = some r.newId := by
  obtain ⟨behind, h⟩ := terminated_commandLine a sent r
  have hold : (r.oldId.hexBytes ++ [0x20]).length = 41 := by
    rw [List.length_append, r.oldId.length_hexBytes, List.length_singleton]
  rw [newValue?, h, List.drop_left' hold, List.take_left' r.newId.length_hexBytes,
    ObjectId.ofHex?_hexBytes]

/-- The server reads the new values of the refs, in their order. -/
theorem map_newValue?_requestLines (a : Agreement) (sent : Bool) (refs : List Ref) :
    (requestLines a sent refs).map newValue? = refs.map (some ·.newId) := by
  induction refs generalizing sent with
  | nil => rfl
  | cons r refs ih =>
    rw [requestLines, List.map_cons, List.map_cons, newValue?_commandLine, ih]

/-! ### The deletion flag -/

/-- A ref as it is built: advertised, and then with updates, statuses and marks on it. -/
inductive Ref.Built : Ref → Prop
  | advertised (name : String) (oldId : ObjectId) : Built { name, oldId }
  | update {r : Ref} (h : Built r) (peer : String) (newId : ObjectId) :
      Built (r.withUpdate peer newId)
  | status {r : Ref} (h : Built r) (status : RefStatus) : Built { r with status }
  | forced {r : Ref} (h : Built r) : Built { r with nonFastForward := true }

/-- A ref that was built is flagged just if a local ref was found for it and its value is no object;
without a local ref, its value is none. -/
theorem Ref.Built.deletion_iff {r : Ref} (h : r.Built) :
    (r.deletion = true ↔ r.newId = .null ∧ r.peer ≠ none) ∧ (r.peer = none → r.newId = .null) := by
  induction h with
  | advertised => simp
  | update _ peer newId => simp [withUpdate, ObjectId.isNull]
  | status _ _ ih => exact ih
  | forced _ ih => exact ih

section

variable {server : Advertisement} {args : PushArgs} {r : Ref} {refs : List Ref}

/-- If the server cannot delete, a ref that was built and is not passed over is eligible just if it is
no deletion, or one of a ref that is only mirrored. -/
theorem Ref.Built.eligible_iff (h : r.Built) (hno : server.capabilities.has "delete-refs" = false) :
    r.eligibility args.mirror (Agreement.of server.capabilities args).allowDelete = .eligible ↔
      ¬ r.PassedOver args ∧ (r.newId = .null → r.peer = none) := by
  have hallow : (Agreement.of server.capabilities args).allowDelete = false := hno
  rw [eligibility_eq_eligible, h.deletion_iff.1, hallow]
  simp only [and_true, not_and, not_not]

/-- A deletion that is not passed over is rejected just if a local ref was found for it. -/
theorem Ref.Built.status_commanded (h : r.Built)
    (hno : server.capabilities.has "delete-refs" = false) (hnull : r.newId = .null)
    (htakes : ¬ r.PassedOver args) :
    (r.commanded (.of server.capabilities args) args).status = .noDelete ↔ r.peer ≠ none := by
  rw [commanded]
  split
  · next he => exact absurd (eligibility_eq_passedOver.mp he) htakes
  · next he =>
    obtain ⟨-, hdel, -⟩ := eligibility_eq_undeletable.mp he
    exact iff_of_true rfl (h.deletion_iff.1.mp hdel).2
  · next he =>
    have hpeer := ((h.eligible_iff hno).mp he).2 hnull
    refine iff_of_false ?_ (not_not_intro hpeer)
    split <;> simp

/-- If the server cannot delete, a deletion goes out just for a ref that is only mirrored. -/
theorem exists_null_mem_sentRefs_iff (hbuilt : ∀ r ∈ refs, r.Built)
    (hno : server.capabilities.has "delete-refs" = false) :
    (∃ r ∈ sentRefs (.of server.capabilities args) args refs, r.newId = .null) ↔
      args.mirror = true ∧ args.dryRun = false ∧
        ∃ r ∈ refs, r.peer = none ∧ r.status ≠ .upToDate ∧ r.status ≠ .nonFastForward := by
  constructor
  · rintro ⟨r, hr, hnull⟩
    obtain ⟨hdry, hmem, he⟩ := mem_sentRefs.mp hr
    obtain ⟨htakes, hpeer⟩ := ((hbuilt r hmem).eligible_iff hno).mp he
    simp only [Ref.PassedOver, not_or, not_and, Bool.not_eq_false] at htakes
    exact ⟨htakes.2.2 (hpeer hnull), hdry, r, hmem, hpeer hnull, htakes.1, htakes.2.1⟩
  · rintro ⟨hmirror, hdry, r, hmem, hpeer, hup, hff⟩
    have htakes : ¬ r.PassedOver args := by
      simp only [Ref.PassedOver, hmirror, hup, hff, Bool.true_eq_false, and_false, or_self,
        not_false_eq_true]
    exact ⟨r, mem_sentRefs.mpr ⟨hdry, hmem, ((hbuilt r hmem).eligible_iff hno).mpr
      ⟨htakes, fun _ => hpeer⟩⟩, (hbuilt r hmem).deletion_iff.2 hpeer⟩

variable {input : Bytes} {source : ObjectSource} {produce : PackProducer}

/-- Unless a failed pack takes the statuses back, a deletion that is not passed over ends as rejected
just if a local ref was found for it. -/
theorem forall₂_sendPush_rejected (hbuilt : ∀ r ∈ refs, r.Built)
    (hno : server.capabilities.has "delete-refs" = false)
    (hfit : CommandsFit (.of server.capabilities args) args false refs) :
    (∃ e, PackFails server refs args source produce e) ∧
        (sendPush input server refs args source produce).refs = resetStatuses refs ∨
      List.Forall₂ (fun r r' => r.newId = .null → ¬ r.PassedOver args →
          (r'.status = .noDelete ↔ r.peer ≠ none)) refs
        (sendPush input server refs args source produce).refs := by
  have hcommanded : ∀ r ∈ refs, r.newId = .null → ¬ r.PassedOver args →
      ((r.commanded (.of server.capabilities args) args).status = .noDelete ↔ r.peer ≠ none) :=
    fun r hr => (hbuilt r hr).status_commanded hno
  by_cases hpack : ∃ e, PackFails server refs args source produce e
  · obtain ⟨e, he⟩ := hpack
    rcases refs_sendPush_of_packFails input he with hrefs | hrefs
    · exact .inl ⟨⟨e, he⟩, hrefs⟩
    · rw [hrefs]
      exact .inr (List.forall₂_map_right_iff.mpr (List.forall₂_same.mpr hcommanded))
  · refine .inr (forall₂_sendPush hfit (not_exists.mp hpack) hcommanded ?_)
    -- A report is expected only on a ref that is not rejected, and does not make it rejected here.
    intro r r' line h hexpecting _ _ hnull htakes
    have hpeer := h hnull htakes
    rw [hexpecting] at hpeer
    rw [← hpeer, Ref.report]
    cases line.ok <;> simp

/-- If the server cannot delete, a push of refs that were built sends a deletion just if it mirrors, is
no dry run, has no command that is too long, and has a ref without a local counterpart that is neither
up to date nor losing history. Of the deletions that are not passed over, those that a local ref was
found for end as rejected, and no others, unless a failed pack takes the statuses back. -/
theorem deletion_sent_iff_mirrored (hbuilt : ∀ r ∈ refs, r.Built)
    (hno : server.capabilities.has "delete-refs" = false) :
    ((∃ command ∈ commandsOut args (sendPush input server refs args source produce).written,
        newValue? command = some .null) ↔
      CommandsFit (.of server.capabilities args) args false refs ∧
        args.mirror = true ∧ args.dryRun = false ∧
        ∃ r ∈ refs, r.peer = none ∧ r.status ≠ .upToDate ∧ r.status ≠ .nonFastForward) ∧
    (CommandsFit (.of server.capabilities args) args false refs →
      (∃ e, PackFails server refs args source produce e) ∧
          (sendPush input server refs args source produce).refs = resetStatuses refs ∨
        List.Forall₂ (fun r r' => r.newId = .null → ¬ r.PassedOver args →
            (r'.status = .noDelete ↔ r.peer ≠ none)) refs
          (sendPush input server refs args source produce).refs) := by
  refine ⟨?_, forall₂_sendPush_rejected hbuilt hno⟩
  rw [← exists_null_mem_sentRefs_iff hbuilt hno, commandsOut_sendPush]
  split
  · next hfit =>
    have hvalues : (∃ command ∈ requestLines (.of server.capabilities args) false
          (sentRefs (.of server.capabilities args) args refs), newValue? command = some .null) ↔
        some ObjectId.null ∈ (requestLines (.of server.capabilities args) false
          (sentRefs (.of server.capabilities args) args refs)).map newValue? := List.mem_map.symm
    rw [hvalues, map_newValue?_requestLines, List.mem_map]
    simp only [Option.some.injEq, hfit, true_and]
  · next hfit => simp only [List.not_mem_nil, false_and, exists_false, hfit]

end

/-- A server without capabilities. -/
def plainServer : Advertisement := { capabilities := ⟨[]⟩ }

/-- The branch `a` as it was advertised. -/
def advertisedOnly : Ref := { name := "a", oldId := uniformId 1 }

/-- The branch `b`, which is deleted. -/
def deleted : Ref := ({ name := "b", oldId := uniformId 2 } : Ref).withUpdate "(delete)" .null

theorem built_advertisedOnly : advertisedOnly.Built := .advertised _ _

theorem built_deleted : deleted.Built := .update (.advertised _ _) _ _

/-- Without mirroring, the branch `a` is passed over, and the deletion of `b` is rejected. -/
theorem deletion_sent_iff_mirrored_neither :
    (∀ r ∈ [advertisedOnly, deleted], r.Built) ∧ plainServer.capabilities.has "delete-refs" = false ∧
    (sendPush [] plainServer [advertisedOnly, deleted] {} emptySource (.ofPack [] (.ok ()))).refs.map
      Ref.status = [.undecided, .noDelete] ∧
    ¬ ∃ command ∈ commandsOut {} (sendPush [] plainServer [advertisedOnly, deleted] {} emptySource
        (.ofPack [] (.ok ()))).written, newValue? command = some .null := by
  have hbuilt : ∀ r ∈ [advertisedOnly, deleted], r.Built := by
    simp only [List.mem_cons, List.not_mem_nil, or_false, forall_eq_or_imp, forall_eq]
    exact ⟨built_advertisedOnly, built_deleted⟩
  refine ⟨hbuilt, rfl, by decide +kernel, fun h => ?_⟩
  obtain ⟨-, hmirror, -⟩ := (deletion_sent_iff_mirrored hbuilt rfl).1.mp h
  cases hmirror

/-- With mirroring, the server is asked to delete the branch `a`, which counts as done. -/
theorem mirrored_ref_is_deleted :
    advertisedOnly.Built ∧ plainServer.capabilities.has "delete-refs" = false ∧
    commandsOut { mirror := true } (sendPush [] plainServer [advertisedOnly] { mirror := true }
      emptySource (.ofPack [] (.ok ()))).written =
      [(uniformId 1).hexBytes ++ bytesOf " " ++ ObjectId.null.hexBytes ++ bytesOf " a\n"] ∧
    (∃ command ∈ commandsOut { mirror := true } (sendPush [] plainServer [advertisedOnly]
        { mirror := true } emptySource (.ofPack [] (.ok ()))).written,
      newValue? command = some .null) ∧
    (sendPush [] plainServer [advertisedOnly] { mirror := true } emptySource
      (.ofPack [] (.ok ()))).refs.map Ref.status = [.done] :=
  ⟨built_advertisedOnly, rfl, by decide +kernel, by decide +kernel, by decide +kernel⟩

end GitRemote
