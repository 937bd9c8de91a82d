import GitRemote.Proofs.Push.Failure
import GitRemote.Proofs.Push.Scan
import GitRemote.Proofs.Wire.Advertised

/-!
# What a server receives of a push

A server that reads a push line by line gets one command for each eligible ref, in the order of the refs,
and what was agreed on with the first that is really sent. Behind the flush packet that ends them is the
pack, which is asked for just if some ref that is sent is no deletion.
-/

namespace GitRemote

/-- A push sends a ref that has a local counterpart, or any if it mirrors, unless the ref is up to date,
would lose history, or is a deletion that the server cannot carry out. -/
def Ref.IsSent (caps : Capabilities) (args : PushArgs) (r : Ref) : Prop :=
  (r.peer ≠ none ∨ args.mirror = true) ∧ r.status ≠ .upToDate ∧ r.status ≠ .nonFastForward ∧
    (r.deletion = true → caps.has "delete-refs" = true)

instance (caps : Capabilities) (args : PushArgs) (r : Ref) : Decidable (r.IsSent caps args) :=
  inferInstanceAs (Decidable ((_ ∨ _) ∧ _ ∧ _ ∧ _))

/-- The words that were agreed on, as they go out. A line feed at their end is the end of the line. -/
def Agreement.list? (a : Agreement) : Option Bytes :=
  if a.announced = [] then none
  else some (dropLineFeed (Utf8.encode (" ".intercalate a.announced)))

/-- A command and what stands behind a NUL on its line. -/
def readCommand (line : Bytes) : Bytes × Option Bytes :=
  (Text.cut? (· == (0 : UInt8)) line).elim (line, none) fun (command, list) => (command, some list)

/-- The commands for some refs, with a list on the first. -/
def commandsWith (list? : Option Bytes) : List Ref → List (Bytes × Option Bytes)
  | [] => []
  | r :: rest => (r.command, list?) :: rest.map fun r => (r.command, none)

/-- A name that can stand at the end of a line and in front of a NUL. -/
def Ref.Legible (r : Ref) : Prop :=
  '\x00' ∉ r.name.toList ∧ r.name.toList.getLast? ≠ some '\n'

instance (r : Ref) : Decidable r.Legible := inferInstanceAs (Decidable (_ ∧ _))

/-! ### Commands as they are read -/

/-- A line feed is put at the end of a line only to be dropped again. -/
theorem dropLineFeed_terminated (line : Bytes) :
    dropLineFeed (terminated line) = dropLineFeed line := by
  rw [terminated]
  split
  · rfl
  · next hend =>
    rw [dropLineFeed, List.getLast?_concat, if_pos rfl, List.dropLast_concat, dropLineFeed,
      if_neg hend]

/-- A line feed is dropped at the end only. -/
theorem dropLineFeed_append_cons {b : UInt8} (hb : b ≠ 0x0A) (front text : Bytes) :
    dropLineFeed (front ++ b :: text) = front ++ b :: dropLineFeed text := by
  cases text with
  | nil =>
    rw [dropLineFeed, List.getLast?_concat, if_neg (by simpa using hb)]
    rfl
  | cons c text =>
    have hlast : (front ++ b :: c :: text).getLast? = (c :: text).getLast? := by
      rw [List.getLast?_append_of_ne_nil _ (List.cons_ne_nil _ _), List.getLast?_cons_cons]
    rw [dropLineFeed, dropLineFeed, hlast]
    split
    · rw [List.dropLast_append_of_ne_nil (List.cons_ne_nil _ _), List.dropLast_cons_cons]
    · rfl

section

variable {a : Agreement} {r : Ref} {refs : List Ref}

/-- A command ends with the name. -/
theorem dropLineFeed_command (h : r.Legible) : dropLineFeed r.command = r.command := by
  have hname : dropLineFeed (Utf8.encode r.name) = Utf8.encode r.name :=
    if_neg fun hend => h.2 (Utf8.getLast?_of_lineFeed hend)
  have hsplit : r.command =
      (r.oldId.hexBytes ++ 0x20 :: r.newId.hexBytes) ++ 0x20 :: Utf8.encode r.name := by
    rw [Ref.command, List.append_assoc, List.cons_append]
  rw [hsplit, dropLineFeed_append_cons (by decide), hname]

/-- A command has no zero byte before its capabilities. -/
theorem nul_not_mem_command (h : r.Legible) : 0 ∉ r.command := by
  have hhex (id : ObjectId) : 0 ∉ id.hexBytes := by
    intro hmem
    have hdigit := ObjectId.isSome_hexValue?_of_mem_hexBytes hmem
    revert hdigit
    decide
  have hname : 0 ∉ Utf8.encode r.name := fun hmem => h.1 ((Utf8.mem_encode (by decide)).mp hmem)
  simp only [Ref.command, List.mem_append, List.mem_cons, hhex, hname, or_false, false_or]
  decide

/-- A command is read back from its line, with what was agreed on if it is the first. -/
theorem readCommand_commandLine (h : r.Legible) (sent : Bool) :
    readCommand (dropLineFeed (terminated (commandLine a sent r))) =
      (r.command, if sent then none else a.list?) := by
  have hnul : ∀ b ∈ r.command, (b == 0) = false := by
    intro b hb
    exact beq_false_of_ne fun hzero => nul_not_mem_command h (hzero ▸ hb)
  have hplain : readCommand (dropLineFeed r.command) = (r.command, none) := by
    rw [dropLineFeed_command h, readCommand, cut?_eq_none.mpr hnul]
    rfl
  rw [dropLineFeed_terminated, commandLine, Agreement.list?]
  cases sent with
  | true => simpa using hplain
  | false =>
    by_cases hnone : a.announced = []
    · simpa [hnone] using hplain
    · have hcut (list : Bytes) : readCommand (r.command ++ 0 :: list) = (r.command, some list) := by
        rw [readCommand, cut?_eq_some.mpr ⟨0, rfl, hnul, rfl⟩]
        rfl
      have hfirst : (!false && !a.announced.isEmpty) = true := by simpa using hnone
      rw [if_pos hfirst, if_neg Bool.false_ne_true, if_neg hnone,
        dropLineFeed_append_cons (by decide), hcut]

/-- The commands of some refs are read back from their lines. -/
theorem map_readCommand_requestLines (h : ∀ r ∈ refs, r.Legible) :
    ((requestLines a false refs).map dropLineFeed).map readCommand = commandsWith a.list? refs := by
  have hlater {rest : List Ref} (h : ∀ r ∈ rest, r.Legible) :
      ((requestLines a true rest).map dropLineFeed).map readCommand =
        rest.map fun r => (r.command, none) := by
    induction rest with
    | nil => rfl
    | cons r rest ih =>
      obtain ⟨hr, hrest⟩ := List.forall_mem_cons.mp h
      rw [requestLines, List.map_cons, List.map_cons, readCommand_commandLine hr, ih hrest]
      rfl
  cases refs with
  | nil => rfl
  | cons r rest =>
    obtain ⟨hr, hrest⟩ := List.forall_mem_cons.mp h
    rw [requestLines, List.map_cons, List.map_cons, readCommand_commandLine hr, hlater hrest]
    rfl

end

section

variable {input : Bytes} {server : Advertisement} {refs : List Ref} {args : PushArgs}
variable {source : ObjectSource} {produce : PackProducer}

/-- The refs that a push has commands for are those that it should send. -/
theorem sentRefs_eq_filter (hdry : args.dryRun = false) :
    sentRefs (.of server.capabilities args) args refs =
      refs.filter (·.IsSent server.capabilities args) := by
  rw [sentRefs, hdry]
  refine List.filter_congr fun r _ => ?_
  rw [decide_eq_decide, Ref.eligibility_eq_eligible]
  show _ ∧ ¬ (r.deletion = true ∧ server.capabilities.has "delete-refs" = false) ↔ _
  simp only [Ref.PassedOver, Ref.IsSent, not_or, not_and, Bool.not_eq_false]
  tauto

/-! ### The pack -/

/-- What the pack step writes is what the builder of packs gives, if it is asked. -/
theorem written_packStep (hfit : CommandsFit (.of server.capabilities args) args false refs) :
    (packStep server refs args source produce).written =
      (packStep server refs args source produce).request.elim [] fun q => (produce q).1 := by
  have hgoes : PackGoes server refs args source produce _ := packGoes_packStep hfit
  generalize packStep server refs args source produce = step at hgoes
  cases hgoes with
  | notDue => rfl
  | source => rfl
  | built _ _ hproduce => exact (congrArg Prod.fst hproduce).symm
  | producer _ _ hproduce => exact (congrArg Prod.fst hproduce).symm

/-- The builder of packs is asked just if a pack is due and its request can be made. -/
theorem isSome_request_packStep (hfit : CommandsFit (.of server.capabilities args) args false refs) :
    (packStep server refs args source produce).request.isSome = true ↔
      PackDue (.of server.capabilities args) args refs ∧ ∃ q, PackRequest.collect source refs
        server.haves (args.forPack server.capabilities) = .ok q := by
  have hgoes : PackGoes server refs args source produce _ := packGoes_packStep hfit
  generalize packStep server refs args source produce = step at hgoes
  cases hgoes with
  | notDue hnot => simp [hnot]
  | source _ hcollect => simp [hcollect]
  | built due hcollect => simp [due, hcollect]
  | producer due hcollect => simp [due, hcollect]

/-- A push asks the builder of packs for what its pack step does. -/
theorem request_sendPush (hne : refs ≠ [])
    (hfit : CommandsFit (.of server.capabilities args) args false refs) :
    (sendPush input server refs args source produce).request =
      (packStep server refs args source produce).request := by
  have hempty : refs.isEmpty = false := by simpa using hne
  rw [packStep, PushArgs.forPack, sendPush, hempty]
  simp only [Bool.false_eq_true, ite_false, error_writeCommands_iff.mpr hfit, frameCommands_eq]
  split
  · rfl
  · split
    · split <;> rfl
    · rfl

/-- The request for a pack can be made if the source knows of each old value whether it is there. -/
theorem exists_collect (h : ∀ r ∈ refs, ∃ known, source.contains r.oldId = .ok known)
    (haves : List ObjectId) (args : PushArgs) :
    ∃ q, PackRequest.collect source refs haves args = .ok q := by
  have hrevs : ∃ revs, PackRequest.revsOf source refs = .ok revs := by
    induction refs with
    | nil => exact ⟨[], rfl⟩
    | cons r refs ih =>
      obtain ⟨⟨known, hknown⟩, hrest⟩ := List.forall_mem_cons.mp h
      obtain ⟨revs, hrevs⟩ := ih hrest
      rw [PackRequest.revsOf, hknown, hrevs]
      cases r.oldId.isNull <;> exact ⟨_, rfl⟩
  obtain ⟨revs, hrevs⟩ := hrevs
  rw [PackRequest.collect, hrevs]
  exact ⟨_, rfl⟩

/-- What a push over a connection writes is, read line by line up to the flush packet, one command for
each ref that it sends, in the order of the refs, with what was agreed on behind a NUL of the first and
of no other. Behind the flush packet is what the builder of packs gives when it is asked. It is asked at
most once, and never if all refs that are sent are deletions; if one is none, it is asked unless the
source of objects fails. -/
theorem server_receives_eligible_refs (hne : refs ≠ []) (hdry : args.dryRun = false)
    (hconnected : args.stateless = false) (hnames : ∀ r ∈ refs, r.Legible)
    (hfit : CommandsFit (.of server.capabilities args) args false refs) :
    (∃ lines, LinesTo (sendPush input server refs args source produce).written lines
        ((sendPush input server refs args source produce).request.elim [] fun q => (produce q).1) ∧
      lines.map readCommand = commandsWith (Agreement.of server.capabilities args).list?
        (refs.filter (·.IsSent server.capabilities args))) ∧
    ((sendPush input server refs args source produce).request.isSome = true →
      ∃ r ∈ refs, r.IsSent server.capabilities args ∧ r.deletion = false) ∧
    ((∀ r ∈ refs, ∃ known, source.contains r.oldId = .ok known) →
      (∃ r ∈ refs, r.IsSent server.capabilities args ∧ r.deletion = false) →
        (sendPush input server refs args source produce).request.isSome = true) := by
  have hdue : PackDue (.of server.capabilities args) args refs ↔
      ∃ r ∈ refs, r.IsSent server.capabilities args ∧ r.deletion = false := by
    have hupdate : (∃ r ∈ sentRefs (.of server.capabilities args) args refs, r.deletion = false) ↔
        ∃ r ∈ refs, r.IsSent server.capabilities args ∧ r.deletion = false := by
      simp only [sentRefs_eq_filter hdry, List.mem_filter, decide_eq_true_eq, and_assoc]
    exact ⟨fun due => hupdate.mp due.update, fun h => ⟨hfit, hupdate.mpr h⟩⟩
  rw [request_sendPush hne hfit, isSome_request_packStep hfit, hdue]
  refine ⟨⟨(requestLines (.of server.capabilities args) false
      (sentRefs (.of server.capabilities args) args refs)).map dropLineFeed, ?_, ?_⟩, And.left,
    fun hsource hupdate => ⟨hupdate, exists_collect hsource _ _⟩⟩
  · have hpack : buildPack source produce server.haves (args.forPack server.capabilities)
        (writeCommands (.of server.capabilities args) args false refs) =
          packStep server refs args source produce := rfl
    rw [← written_packStep hfit, written_sendPush rfl hpack hne (error_writeCommands_iff.mpr hfit),
      hconnected, bytes_writeCommands hfit]
    simp only [Bool.false_eq_true, ite_false, Bool.and_false, Bool.false_and, List.append_nil,
      List.append_assoc]
    exact linesTo_packets hfit _
  · rw [← sentRefs_eq_filter hdry]
    exact map_readCommand_requestLines fun r hr => hnames r (sentRefs_sublist.mem hr)

end

/-- A branch that is moved. -/
def movedBranch : Ref := { name := "d", oldId := uniformId 3, newId := uniformId 4, peer := some "d" }

/-- In front of the branch that is moved, one without a local counterpart, one that is up to date and one
that cannot be deleted. -/
def moveLast : List Ref :=
  [{ name := "a", oldId := uniformId 1 },
    { name := "b", oldId := uniformId 2, newId := uniformId 2, peer := some "b", status := .upToDate },
    { name := "c", oldId := uniformId 1, peer := some "", deletion := true },
    movedBranch]

/-- The push of these, with a pack of one byte. -/
def pushLast : PushRun Bytes :=
  sendPush [] reportingServer moveLast {} emptySource fun _ => ([1], .ok ())

/-- What is agreed on stands on the line of the branch that is moved, which is the only line. -/
theorem server_receives_eligible_refs_last :
    moveLast ≠ [] ∧ (∀ r ∈ moveLast, r.Legible) ∧
    CommandsFit (.of reportingServer.capabilities {}) {} false moveLast ∧
    (∃ lines, LinesTo pushLast.written lines [1] ∧
      lines.map readCommand = [(movedBranch.command, some (bytesOf "report-status"))]) ∧
    pushLast.request.isSome = true := by
  have hne : moveLast ≠ [] := List.cons_ne_nil _ _
  have hnames : ∀ r ∈ moveLast, r.Legible := by decide +kernel
  have hfit : CommandsFit (.of reportingServer.capabilities {}) {} false moveLast := by
    decide +kernel
  obtain ⟨⟨lines, hlines, hread⟩, -, hasked⟩ :=
    @server_receives_eligible_refs [] reportingServer moveLast {} emptySource
      (fun _ => ([1], .ok ())) hne rfl rfl hnames hfit
  have hrequest : pushLast.request.isSome = true :=
    hasked (fun _ _ => ⟨_, rfl⟩) (by decide +kernel)
  obtain ⟨q, hq⟩ := Option.isSome_iff_exists.mp hrequest
  have hpack : LinesTo pushLast.written lines (pushLast.request.elim [] fun _ => [1]) := hlines
  rw [hq, Option.elim_some] at hpack
  have hcommands : commandsWith (Agreement.of reportingServer.capabilities {}).list?
      (moveLast.filter (·.IsSent reportingServer.capabilities {})) =
        [(movedBranch.command, some (bytesOf "report-status"))] := by
    decide +kernel
  exact ⟨hne, hnames, hfit, ⟨lines, hpack, hread.trans hcommands⟩, hrequest⟩

end GitRemote
