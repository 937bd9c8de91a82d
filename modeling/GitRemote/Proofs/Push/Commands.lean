import GitRemote.Proofs.Wire.Packets
import GitRemote.Push.Send

/-!
# What a push does before it reads the report

Each ref gets its status on its own when the commands are written, whatever the others are, and the
commands are packets, one for each ref that is eligible. A push that succeeds after it sent a command
has built its pack, if one was due, and has read the report with these statuses.
-/

namespace GitRemote

/-- A push passes a ref over that is up to date, would lose history, or has no local counterpart while
the push does not mirror. -/
def Ref.PassedOver (r : Ref) (args : PushArgs) : Prop :=
  r.status = .upToDate ∨ r.status = .nonFastForward ∨ (r.peer = none ∧ args.mirror = false)

instance (r : Ref) (args : PushArgs) : Decidable (r.PassedOver args) :=
  inferInstanceAs (Decidable (_ ∨ _ ∨ _))

/-- A ref that is not passed over is eligible unless it is a deletion that cannot be carried out. -/
theorem Ref.eligibility_eq (r : Ref) (args : PushArgs) (allowDelete : Bool) :
    r.eligibility args.mirror allowDelete =
      if r.PassedOver args then .passedOver
      else if r.deletion = true ∧ allowDelete = false then .undeletable else .eligible := by
  have hlocal : (r.peer.isNone && !args.mirror) = true ↔ r.peer = none ∧ args.mirror = false := by
    simp
  have hdelete : (r.deletion && !allowDelete) = true ↔ r.deletion = true ∧ allowDelete = false := by
    simp
  simp only [eligibility, hlocal, hdelete]
  by_cases hpeer : r.peer = none ∧ args.mirror = false
  · rw [if_pos hpeer, if_pos (.inr (.inr hpeer))]
  · rw [if_neg hpeer]
    by_cases hstatus : r.status = .nonFastForward ∨ r.status = .upToDate
    · rw [if_pos hstatus, if_pos (hstatus.elim (fun h => .inr (.inl h)) .inl)]
    · have hnot : ¬ r.PassedOver args := by
        rintro (h | h | h)
        · exact hstatus (.inr h)
        · exact hstatus (.inl h)
        · exact hpeer h
      rw [if_neg hstatus, if_neg hnot]

/-- When a ref is passed over. -/
theorem Ref.eligibility_eq_passedOver {r : Ref} {args : PushArgs} {allowDelete : Bool} :
    r.eligibility args.mirror allowDelete = .passedOver ↔ r.PassedOver args := by
  rw [eligibility_eq]
  split
  · next h => simp [h]
  · next h => split <;> simp [h]

/-- When the server does not let a ref be deleted. -/
theorem Ref.eligibility_eq_undeletable {r : Ref} {args : PushArgs} {allowDelete : Bool} :
    r.eligibility args.mirror allowDelete = .undeletable ↔
      ¬ r.PassedOver args ∧ r.deletion = true ∧ allowDelete = false := by
  rw [eligibility_eq]
  split
  · next h => simp [h]
  · next h => split <;> simp_all

/-- When a ref is sent. -/
theorem Ref.eligibility_eq_eligible {r : Ref} {args : PushArgs} {allowDelete : Bool} :
    r.eligibility args.mirror allowDelete = .eligible ↔
      ¬ r.PassedOver args ∧ ¬ (r.deletion = true ∧ allowDelete = false) := by
  rw [eligibility_eq]
  split
  · next h => simp [h]
  · next h => split <;> simp_all

/-- The ref once its command was written or it was found not to take part. -/
def Ref.commanded (a : Agreement) (args : PushArgs) (r : Ref) : Ref :=
  match r.eligibility args.mirror a.allowDelete with
  | .passedOver => r
  | .undeletable => { r with status := .noDelete }
  | .eligible =>
    { r with status := if a.statusReport && !args.dryRun then .expectingReport else .done }

@[simp] theorem Ref.commanded_name (a : Agreement) (args : PushArgs) (r : Ref) :
    (r.commanded a args).name = r.name := by
  rw [commanded]
  split <;> rfl

/-- Some ref takes part in a push that is no dry run. -/
def sendsSome (a : Agreement) (args : PushArgs) (refs : List Ref) : Bool :=
  !args.dryRun && refs.any fun r => r.eligibility args.mirror a.allowDelete = .eligible

/-- A line with a line feed at its end. -/
def terminated (line : Bytes) : Bytes :=
  if line.getLast? = some 0x0A then line else line ++ [0x0A]

/-- The lines of the commands for some refs, of which the first goes out after others if `sent` is
set. -/
def requestLines (a : Agreement) : Bool → List Ref → List Bytes
  | _, [] => []
  | sent, r :: rest => terminated (commandLine a sent r) :: requestLines a true rest

/-- The refs that a push has a command for. -/
def sentRefs (a : Agreement) (args : PushArgs) (refs : List Ref) : List Ref :=
  if args.dryRun then [] else refs.filter fun r => r.eligibility args.mirror a.allowDelete = .eligible

/-- The commands that go out under `sent` all fit into packets. -/
def CommandsFit (a : Agreement) (args : PushArgs) (sent : Bool) (refs : List Ref) : Prop :=
  ∀ line ∈ requestLines a sent (sentRefs a args refs), line.length ≤ payloadLimit

section

variable {a : Agreement} {args : PushArgs} {sent : Bool} {r : Ref} {refs : List Ref}

instance : Decidable (CommandsFit a args sent refs) :=
  inferInstanceAs (Decidable (∀ line ∈ requestLines a sent (sentRefs a args refs), _))

/-- A line is framed, with a line feed behind it, just if it fits a packet. -/
theorem Packet.frameLine?_eq_ok {line framed : Bytes} :
    frameLine? line = .ok framed ↔
      (terminated line).length ≤ payloadLimit ∧ framed = frame (terminated line) := by
  show frame? (terminated line) = .ok framed ↔ _
  rw [frame?]
  split
  · next hlimit => simp [Nat.not_le_of_lt hlimit]
  · next hlimit => simp [Nat.le_of_not_lt hlimit, eq_comm]

/-- A ref that is not eligible has no command, and in a dry run no ref has one. -/
theorem sentRefs_cons_of_not (h : args.dryRun = true ∨
    r.eligibility args.mirror a.allowDelete ≠ .eligible) :
    sentRefs a args (r :: refs) = sentRefs a args refs := by
  rcases h with h | h <;> simp [sentRefs, h]

theorem sentRefs_cons (hdry : args.dryRun = false)
    (h : r.eligibility args.mirror a.allowDelete = .eligible) :
    sentRefs a args (r :: refs) = r :: sentRefs a args refs := by
  simp [sentRefs, hdry, h]

/-- Commands that were written fit into packets. -/
theorem commandsFit_of_error (h : (writeCommands a args sent refs).error = none) :
    CommandsFit a args sent refs := by
  induction refs generalizing sent with
  | nil => cases hdry : args.dryRun <;> simp [CommandsFit, sentRefs, requestLines, hdry]
  | cons r refs ih =>
    rw [writeCommands] at h
    rw [CommandsFit]
    cases he : r.eligibility args.mirror a.allowDelete with
    | passedOver | undeletable =>
      rw [sentRefs_cons_of_not (.inr (by rw [he]; decide))]
      rw [he] at h
      exact ih h
    | eligible =>
      cases hdry : args.dryRun with
      | true =>
        rw [sentRefs_cons_of_not (.inl hdry)]
        simp only [he, hdry, ite_true] at h
        exact ih h
      | false =>
        simp only [he, hdry, Bool.false_eq_true, ite_false] at h
        cases hline : Packet.frameLine? (commandLine a sent r) with
        | error e =>
          rw [hline] at h
          cases h
        | ok line =>
          rw [hline] at h
          rw [sentRefs_cons hdry he, requestLines, List.forall_mem_cons]
          exact ⟨(Packet.frameLine?_eq_ok.mp hline).1, ih h⟩

/-- If all commands fit into packets, each ref gets its status on its own, and the commands are the
packets of their lines. Updates that are no deletions are counted. -/
theorem writeCommands_eq (h : CommandsFit a args sent refs) :
    writeCommands a args sent refs =
      { refs := refs.map (·.commanded a args)
        bytes := packets (requestLines a sent (sentRefs a args refs))
        newRefs := refs.countP fun r =>
          r.eligibility args.mirror a.allowDelete = .eligible && !r.deletion
        sent := sent || sendsSome a args refs } := by
  induction refs generalizing sent with
  | nil => cases hdry : args.dryRun <;> simp [writeCommands, sentRefs, requestLines, sendsSome, hdry]
  | cons r refs ih =>
    rw [CommandsFit] at h
    rw [writeCommands, List.map_cons, List.countP_cons, sendsSome, List.any_cons, Ref.commanded]
    cases he : r.eligibility args.mirror a.allowDelete with
    | passedOver | undeletable =>
      rw [sentRefs_cons_of_not (.inr (by rw [he]; decide))] at h ⊢
      simp only [ih h]
      rfl
    | eligible =>
      cases hdry : args.dryRun with
      | true =>
        rw [sentRefs_cons_of_not (.inl hdry)] at h ⊢
        simp only [ite_true, ih h]
        cases r.deletion <;> simp [Commands.cons, sendsSome, hdry]
      | false =>
        rw [sentRefs_cons hdry he, requestLines, List.forall_mem_cons] at h
        rw [sentRefs_cons hdry he, requestLines, packets_cons]
        have hline := Packet.frameLine?_eq_ok.mpr ⟨h.1, rfl⟩
        simp only [Bool.false_eq_true, ite_false, hline, ih h.2]
        cases r.deletion <;> simp [Commands.cons]

theorem refs_writeCommands (h : CommandsFit a args sent refs) :
    (writeCommands a args sent refs).refs = refs.map (·.commanded a args) := by
  rw [writeCommands_eq h]

theorem sent_writeCommands (h : CommandsFit a args sent refs) :
    (writeCommands a args sent refs).sent = (sent || sendsSome a args refs) := by
  rw [writeCommands_eq h]

/-- Commands that fit are the lines of the refs that are sent. -/
theorem bytes_writeCommands (h : CommandsFit a args sent refs) :
    (writeCommands a args sent refs).bytes =
      packets (requestLines a sent (sentRefs a args refs)) := by
  rw [writeCommands_eq h]

/-- Writing commands fails only if one is too long. -/
theorem error_writeCommands_iff :
    (writeCommands a args sent refs).error = none ↔ CommandsFit a args sent refs :=
  ⟨commandsFit_of_error, fun h => by rw [writeCommands_eq h]⟩

end

/-- Unless the pack fails, the refs stay as they are. -/
theorem refs_buildPack {source : ObjectSource} {produce : PackProducer} {haves : List ObjectId}
    {args : PushArgs} {c : Commands} (h : (buildPack source produce haves args c).error = none) :
    (buildPack source produce haves args c).refs = c.refs := by
  rw [buildPack] at h ⊢
  split
  · rfl
  · split
    · rfl
    · split
      · rfl
      · next hp =>
        simp_all

/-- A push that succeeds after it sent a command is no dry run. If a report was agreed on, it has
been read, and decides the rest. -/
theorem sendPush_reported {input : Bytes} {server : Advertisement} {refs : List Ref}
    {args : PushArgs} {source : ObjectSource} {produce : PackProducer} {outcome : PushOutcome}
    (hreport : server.capabilities.has "report-status" = true)
    (hok : (sendPush input server refs args source produce).result = .ok outcome)
    (hsent : outcome.commandsSent = true) :
    args.dryRun = false ∧ ∃ state rest first,
      readAgreedReport (Agreement.of server.capabilities args)
        (refs.map (·.commanded (Agreement.of server.capabilities args) args)) first input =
          ((.ok (), state), rest) ∧
      first.errors = [] ∧
      (sendPush input server refs args source produce).refs = state.refs ∧
      outcome.success = (state.outcome.errors.isEmpty && allSucceeded state.refs) := by
  generalize hrun : sendPush input server refs args source produce = run at hok ⊢
  rw [sendPush] at hrun
  split at hrun
  · subst hrun
    cases hok
    cases hsent
  · dsimp only at hrun
    split at hrun
    · subst hrun
      cases hok
    · next hcommands =>
      have hfit := commandsFit_of_error hcommands
      split at hrun
      · subst hrun
        cases hok
      · split at hrun
        · subst hrun
          cases hok
        · next hpack =>
          split at hrun
          · next hdue =>
            split at hrun
            · subst hrun
              cases hok
            · next state rest hread =>
              subst hrun
              cases hok
              rw [Bool.and_eq_true, sent_writeCommands hfit, Bool.false_or, sendsSome, Bool.and_eq_true,
                Bool.not_eq_true'] at hdue
              rw [refs_buildPack hpack, refs_writeCommands hfit] at hread
              exact ⟨hdue.2.1, state, rest, _, hread, rfl, rfl, rfl⟩
          · next hdue =>
            subst hrun
            cases hok
            exact absurd (Bool.and_eq_true_iff.mpr ⟨hreport, hsent⟩) hdue

end GitRemote
