import GitRemote.Proofs.Push.Carried
import GitRemote.Proofs.Push.Received
import GitRemote.Proofs.Push.Success
import GitRemote.Proofs.Push.Transition
import GitRemote.Proofs.Text.Utf8

/-!
# Dry runs

A dry run decides on each ref as the push does, and takes every update that the push would send for
done. The push comes to the same end if the server, in case it reports, accepts each command that it
reads: a ref is decided by the first line on it, so the order of the report does not matter.
-/

namespace GitRemote

/-- The dry run of a push. -/
def PushArgs.rehearsal (args : PushArgs) : PushArgs := { args with dryRun := true }

/-- The name of a ref and how it stands. -/
def Ref.standing (r : Ref) : String × RefStatus := (r.name, r.status)

/-- The name in a command: what stands behind the two ids. -/
def commandName? (command : Bytes) : Option Bytes := do
  let (_, behind) ← Text.cut? (· == (0x20 : UInt8)) command
  let (_, name) ← Text.cut? (· == (0x20 : UInt8)) behind
  some name

/-- The line of a report says of the ref that this line of the request is on that its update was
done. -/
def Accepts (line answer : Bytes) : Prop :=
  ∃ name, commandName? (readCommand (dropLineFeed line)).1 = some name ∧
    LineOn true (Utf8.decodeLossy name) answer

/-- A server answers that it unpacked the pack, and accepts each of the commands that it read, in any
order. -/
def AcceptsAll (sideband : Bool) (input : Bytes) (commands : List Bytes) : Prop :=
  ∃ lines answers, AnswerLines sideband input (bytesOf "unpack ok" :: lines) ∧
    lines.Perm answers ∧ List.Forall₂ Accepts commands answers

/-! ### What the server accepts -/

/-- A command says which ref it is on. -/
theorem commandName?_command (r : Ref) : commandName? r.command = some (Utf8.encode r.name) := by
  have hcut (id : ObjectId) (behind : Bytes) :
      Text.cut? (· == (0x20 : UInt8)) (id.hexBytes ++ 0x20 :: behind) =
        some (id.hexBytes, behind) := by
    refine cut?_eq_some.mpr ⟨0x20, rfl, fun b hb => beq_false_of_ne ?_, rfl⟩
    rintro rfl
    have hdigit := ObjectId.isSome_hexValue?_of_mem_hexBytes hb
    revert hdigit
    decide
  simp only [commandName?, Ref.command, hcut, Option.bind_eq_bind, Option.bind_some]

/-- Where every command is accepted, all lines accept some name, and there is one on each ref that was
sent. -/
theorem lines_of_accepts {a : Agreement} {sent : Bool} {refs : List Ref} {answers : List Bytes}
    (hnames : ∀ r ∈ refs, r.Legible)
    (h : List.Forall₂ Accepts (requestLines a sent refs) answers) :
    (∀ answer ∈ answers, ∃ name, LineOn true name answer) ∧
      ∀ r ∈ refs, ∃ answer ∈ answers, LineOn true r.name answer := by
  induction refs generalizing sent answers with
  | nil =>
    cases h
    simp
  | cons r refs ih =>
    rw [List.forall_mem_cons] at hnames
    rw [requestLines] at h
    cases h with
    | @cons _ answer _ answers haccepts hrest =>
      obtain ⟨name, hname, hline⟩ := haccepts
      rw [readCommand_commandLine hnames.1, commandName?_command, Option.some.injEq] at hname
      rw [← hname, Utf8.decodeLossy_encode] at hline
      obtain ⟨hall, hon⟩ := ih hnames.2 hrest
      refine ⟨List.forall_mem_cons.mpr ⟨⟨r.name, hline⟩, hall⟩,
        List.forall_mem_cons.mpr ⟨⟨answer, List.mem_cons_self, hline⟩, fun r' hr' => ?_⟩⟩
      obtain ⟨answer', hmem, hline'⟩ := hon r' hr'
      exact ⟨answer', List.mem_cons_of_mem answer hmem, hline'⟩

/-- The line that accepts an update and says nothing more. -/
def Ref.okLine (r : Ref) : Bytes := bytesOf "ok " ++ Utf8.encode r.name

/-- A server that answers to each command with the line on its ref accepts all of them. -/
theorem forall₂_accepts_okLine {a : Agreement} {sent : Bool} {refs : List Ref}
    (hnames : ∀ r ∈ refs, r.Legible) :
    List.Forall₂ Accepts (requestLines a sent refs) (refs.map Ref.okLine) := by
  induction refs generalizing sent with
  | nil => exact .nil
  | cons r refs ih =>
    rw [List.forall_mem_cons] at hnames
    refine .cons ⟨Utf8.encode r.name, ?_, Utf8.encode r.name, rfl, .inl rfl⟩ (ih hnames.2)
    rw [readCommand_commandLine hnames.1, commandName?_command]

/-- Where all lines accept, the first line on a name does. -/
theorem firstAccepts_of_forall {lines : List Bytes} {name : String}
    (hall : ∀ line ∈ lines, ∃ other, LineOn true other line)
    (hon : ∃ line ∈ lines, LineOn true name line) : FirstAccepts lines name := by
  induction lines with
  | nil =>
    obtain ⟨line, hline, -⟩ := hon
    cases hline
  | cons line lines ih =>
    rw [List.forall_mem_cons] at hall
    by_cases hfirst : LineOn true name line
    · exact ⟨[], line, lines, rfl, hfirst, by simp⟩
    rw [List.exists_mem_cons_iff, or_iff_right hfirst] at hon
    obtain ⟨before, found, after, rfl, hfound, hbefore⟩ := ih hall.2 hon
    refine ⟨line :: before, found, after, rfl, hfound, List.forall_mem_cons.mpr ⟨?_, hbefore⟩⟩
    -- a line that accepts one name does not say of another that it was refused
    rintro ok ⟨rest', hmark', hname'⟩
    obtain ⟨_, rest, hmark, -⟩ := hall.1
    obtain ⟨rfl, -⟩ := reportMark_append_inj (hmark.symm.trans hmark')
    exact hfirst ⟨rest', hmark', hname'⟩

/-- A server that accepts all commands accepts each ref that was sent in the first line on it, and has
no other lines. -/
theorem AcceptsAll.firstAccepts {sideband : Bool} {input : Bytes} {a : Agreement} {refs : List Ref}
    (hnames : ∀ r ∈ refs, r.Legible)
    (h : AcceptsAll sideband input (requestLines a false refs)) :
    ∃ lines, AnswerLines sideband input (bytesOf "unpack ok" :: lines) ∧
      (∀ line ∈ lines, (ReportLine.parse? line).isSome = true) ∧
      ∀ r ∈ refs, FirstAccepts lines r.name := by
  obtain ⟨lines, answers, hlines, hperm, haccepts⟩ := h
  obtain ⟨hall, hon⟩ := lines_of_accepts hnames haccepts
  have hall' : ∀ line ∈ lines, ∃ name, LineOn true name line :=
    fun line hline => hall line (hperm.mem_iff.mp hline)
  refine ⟨lines, hlines, fun line hline => ?_, fun r hr => firstAccepts_of_forall hall' ?_⟩
  · obtain ⟨-, rest, hmark, -⟩ := hall' line hline
    exact ReportLine.isSome_parse?_iff.mpr ⟨true, rest, hmark⟩
  · obtain ⟨answer, hmem, hline⟩ := hon r hr
    exact ⟨answer, hperm.mem_iff.mpr hmem, hline⟩

/-! ### One ref -/

section

variable {a : Agreement} {args : PushArgs} {r : Ref} {refs : List Ref}

/-- A ref that has no command, or that no report is expected on, is left as the dry run leaves it. -/
theorem Ref.commanded_rehearsal (hdry : args.dryRun = false)
    (h : a.statusReport = false ∨ r.eligibility args.mirror a.allowDelete ≠ .eligible) :
    r.commanded a args.rehearsal = r.commanded a args := by
  have hmirror : args.rehearsal.mirror = args.mirror := rfl
  have hrehearsal : args.rehearsal.dryRun = true := rfl
  rw [commanded, commanded, hmirror, hrehearsal, hdry]
  cases he : r.eligibility args.mirror a.allowDelete with
  | passedOver => rfl
  | undeletable => rfl
  | eligible =>
    have hreport : a.statusReport = false := h.resolve_right fun hne => hne he
    rw [hreport]
    rfl

/-- A ref that was sent is done if the first line on it accepts. -/
theorem Ref.status_foldl_hear {lines : List Bytes} (hname : ' ' ∉ r.name.toList)
    (hstatus : r.status = .expectingReport) (h : FirstAccepts lines r.name) :
    ((lines.filterMap ReportLine.parse?).foldl Ref.hear r).status = .done := by
  obtain ⟨l, hfind, hok⟩ := (firstAccepts_iff hname).mp h
  rw [foldl_hear hstatus, hfind]
  simp [report, hok]

/-- A report that accepts what was sent takes a ref to where the dry run does. -/
theorem Ref.standing_reported {lines : List Bytes} (hdry : args.dryRun = false)
    (hreport : a.statusReport = true) (hname : ' ' ∉ r.name.toList) (hinitial : r.status.IsInitial)
    (h : r.eligibility args.mirror a.allowDelete = .eligible → FirstAccepts lines r.name) :
    ((lines.filterMap ReportLine.parse?).foldl Ref.hear (r.commanded a args)).standing =
      (r.commanded a args.rehearsal).standing := by
  by_cases he : r.eligibility args.mirror a.allowDelete = .eligible
  · have hsent : (r.commanded a args).status = .expectingReport := by
      simp [commanded, he, hreport, hdry]
    have hheard : ((lines.filterMap ReportLine.parse?).foldl Ref.hear
        (r.commanded a args)).status = .done :=
      status_foldl_hear (by rwa [commanded_name]) hsent (by rw [commanded_name]; exact h he)
    have hdone : (r.commanded a args.rehearsal).status = .done := by
      simp [commanded, PushArgs.rehearsal, he]
    rw [standing, standing, hheard, hdone, foldl_hear_name, commanded_name, commanded_name]
  · have hkept : (r.commanded a args).status ≠ .expectingReport := by
      rw [commanded]
      cases hnot : r.eligibility args.mirror a.allowDelete with
      | passedOver => rcases hinitial with h | h | h <;> simp [h]
      | undeletable => simp
      | eligible => exact absurd hnot he
    rw [foldl_hear_of_not_expecting hkept, commanded_rehearsal hdry (.inr he)]

/-- Whether all refs ended well is a matter of how they stand. -/
theorem allSucceeded_eq (refs : List Ref) :
    allSucceeded refs = (refs.map Ref.standing).all fun p => p.2.isSuccess := by
  rw [List.all_map]
  rfl

theorem sentRefs_rehearsal : sentRefs a args.rehearsal refs = [] := if_pos rfl

theorem commandsFit_rehearsal : CommandsFit a args.rehearsal false refs := by
  rw [CommandsFit, sentRefs_rehearsal, requestLines]
  simp

end

/-! ### The runs -/

section

variable {input : Bytes} {server : Advertisement} {refs : List Ref} {args : PushArgs}
variable {source : ObjectSource} {produce : PackProducer} {outcome : PushOutcome}

/-- A push that has no report to read ends with the refs as their commands leave them. -/
theorem sendPush_unreported (hfit : CommandsFit (.of server.capabilities args) args false refs)
    (hpack : (packStep server refs args source produce).error = none)
    (hnone : (Agreement.of server.capabilities args).statusReport = false ∨
      sendsSome (.of server.capabilities args) args refs = false) :
    (sendPush input server refs args source produce).refs =
        refs.map (·.commanded (.of server.capabilities args) args) ∧
      (sendPush input server refs args source produce).input = input ∧
      ∃ outcome, (sendPush input server refs args source produce).result = .ok outcome ∧
        outcome.success =
          allSucceeded (refs.map (·.commanded (.of server.capabilities args) args)) := by
  have hrefs := (refs_buildPack hpack).trans (refs_writeCommands hfit)
  have hunread : ((Agreement.of server.capabilities args).statusReport &&
      (writeCommands (.of server.capabilities args) args false refs).sent) = false := by
    rw [sent_writeCommands hfit, Bool.false_or, Bool.and_eq_false_iff]
    exact hnone
  rw [packStep, PushArgs.forPack] at hpack
  rw [PushArgs.forPack] at hrefs
  rw [sendPush]
  split
  · next hempty =>
    rw [List.isEmpty_iff] at hempty
    subst hempty
    exact ⟨rfl, rfl, _, rfl, rfl⟩
  · simp only [error_writeCommands_iff.mpr hfit, frameCommands_eq, hpack, hrefs, hunread,
      Bool.false_eq_true, ite_false, true_and]
    exact ⟨_, rfl, rfl⟩

/-- No pack is due in a dry run. -/
theorem packStep_rehearsal : packStep server refs args.rehearsal source produce =
    { refs := refs.map (·.commanded (.of server.capabilities args) args.rehearsal) } := by
  have hnot : ¬ PackDue (.of server.capabilities args.rehearsal) args.rehearsal refs := by
    rintro ⟨-, r, hr, -⟩
    rw [sentRefs_rehearsal] at hr
    cases hr
  have hgoes : PackGoes server refs args.rehearsal source produce _ :=
    packGoes_packStep commandsFit_rehearsal
  generalize packStep server refs args.rehearsal source produce = step at hgoes
  cases hgoes with
  | notDue => rfl
  | source due => exact absurd due hnot
  | built due => exact absurd due hnot
  | producer due => exact absurd due hnot

/-- A dry run ends with the refs as their commands would leave them if they were done at once. -/
theorem sendPush_rehearsal :
    (sendPush input server refs args.rehearsal source produce).refs =
        refs.map (·.commanded (.of server.capabilities args) args.rehearsal) ∧
      (sendPush input server refs args.rehearsal source produce).input = input ∧
      ∃ outcome,
        (sendPush input server refs args.rehearsal source produce).result = .ok outcome ∧
          outcome.success = allSucceeded
            (refs.map (·.commanded (.of server.capabilities args) args.rehearsal)) :=
  sendPush_unreported commandsFit_rehearsal (by rw [packStep_rehearsal])
    (.inr (sendsSome_eq_false.mpr sentRefs_rehearsal))

/-- A dry run writes at most the end of its commands. -/
theorem written_rehearsal :
    (sendPush input server refs args.rehearsal source produce).written = [] ∨
      (sendPush input server refs args.rehearsal source produce).written = flushPacket := by
  by_cases hne : refs = []
  · subst hne
    exact .inl rfl
  have hfit : CommandsFit (.of server.capabilities args.rehearsal) args.rehearsal false refs :=
    commandsFit_rehearsal
  have hpack : buildPack source produce server.haves
      (args.rehearsal.forPack server.capabilities)
      (writeCommands (.of server.capabilities args.rehearsal) args.rehearsal false refs) = _ :=
    packStep_rehearsal
  rw [written_sendPush rfl hpack hne (error_writeCommands_iff.mpr hfit), sent_writeCommands hfit,
    bytes_writeCommands hfit, sendsSome_eq_false.mpr sentRefs_rehearsal, sentRefs_rehearsal]
  cases args.rehearsal.stateless with
  | true => exact .inl rfl
  | false => exact .inr rfl

/-- A dry run has no command. -/
theorem commandsOut_rehearsal : commandsOut args
    (sendPush input server refs args.rehearsal source produce).written = [] := by
  have hout : commandsOut args.rehearsal
      (sendPush input server refs args.rehearsal source produce).written = [] := by
    rw [commandsOut_sendPush, if_pos commandsFit_rehearsal, sentRefs_rehearsal, requestLines]
  exact hout

/-- A dry run asks for no pack. -/
theorem request_rehearsal :
    (sendPush input server refs args.rehearsal source produce).request = none := by
  by_cases hne : refs = []
  · subst hne
    rfl
  · rw [request_sendPush hne commandsFit_rehearsal, packStep_rehearsal]

/-- A push that has read a report without a fault ends with its lines told to every ref. -/
theorem sendPush_heard (hnames : (refs.map Ref.name).Nodup)
    (hreport : server.capabilities.has "report-status" = true)
    (hok : (sendPush input server refs args source produce).result = .ok outcome)
    (hsent : outcome.commandsSent = true) {lines : List Bytes}
    (hlines : AnswerLines (server.capabilities.has "side-band-64k") input
      (bytesOf "unpack ok" :: lines))
    (hread : ∀ line ∈ lines, (ReportLine.parse? line).isSome = true) :
    (sendPush input server refs args source produce).refs = refs.map (fun r =>
        (lines.filterMap ReportLine.parse?).foldl Ref.hear
          (r.commanded (.of server.capabilities args) args)) ∧
      outcome.success = allSucceeded (sendPush input server refs args source produce).refs := by
  obtain ⟨-, state, rest, first, hreceived, hnone, hrefs, hsuccess⟩ :=
    sendPush_reported hreport hok hsent
  obtain ⟨hclean, hstate⟩ := readAgreedReport_spec hnone hreceived
  have herrors : state.outcome.errors = [] := hclean.mpr ⟨lines, hlines, hread⟩
  refine ⟨?_, by rw [hsuccess, hrefs, herrors]; rfl⟩
  rw [hrefs, hstate lines hlines hread, ReportState.refs_foldl_accept, List.map_map]
  · rfl
  · rw [List.map_map]
    simpa only [Function.comp_def, Ref.commanded_name] using hnames

/-- Where the server accepts all that was sent, or has nothing to say, the refs of a push that ends well
stand as in a dry run, and it is a success if they all do well. -/
theorem standing_sendPush (hdry : args.dryRun = false) (hnames : (refs.map Ref.name).Nodup)
    (hblank : ∀ r ∈ refs, ' ' ∉ r.name.toList) (hlegible : ∀ r ∈ refs, r.Legible)
    (hstatus : ∀ r ∈ refs, r.status.IsInitial)
    (hok : (sendPush input server refs args source produce).result = .ok outcome)
    (hserver : server.capabilities.has "report-status" = true →
      commandsOut args (sendPush input server refs args source produce).written ≠ [] →
        AcceptsAll (server.capabilities.has "side-band-64k") input
          (commandsOut args (sendPush input server refs args source produce).written)) :
    (sendPush input server refs args source produce).refs.map Ref.standing = refs.map (fun r =>
        (r.commanded (.of server.capabilities args) args.rehearsal).standing) ∧
      outcome.success = allSucceeded (sendPush input server refs args source produce).refs := by
  by_cases hne : refs = []
  · subst hne
    cases hok
    exact ⟨rfl, rfl⟩
  obtain ⟨hcommands, hpack, hsent⟩ := sendPush_eq_ok rfl rfl hne hok
  have hfit := error_writeCommands_iff.mp hcommands
  rw [sent_writeCommands hfit, Bool.false_or] at hsent
  by_cases hunread : (Agreement.of server.capabilities args).statusReport = false ∨
      sendsSome (.of server.capabilities args) args refs = false
  · obtain ⟨hrefs, -, outcome', hok', hsuccess⟩ := sendPush_unreported hfit hpack hunread
    obtain rfl : outcome = outcome' := Except.ok.inj (hok.symm.trans hok')
    rw [hrefs, hsuccess, List.map_map]
    refine ⟨List.map_congr_left fun r hr => congrArg Ref.standing ?_, rfl⟩
    refine (Ref.commanded_rehearsal hdry (hunread.imp_right fun hnone he => ?_)).symm
    have hmem := mem_sentRefs.mpr ⟨hdry, hr, he⟩
    rw [sendsSome_eq_false.mp hnone] at hmem
    cases hmem
  · rw [not_or, Bool.not_eq_false, Bool.not_eq_false] at hunread
    obtain ⟨hreport, hsome⟩ := hunread
    rw [commandsOut_sendPush, if_pos hfit] at hserver
    have hcommand : requestLines (.of server.capabilities args) false
        (sentRefs (.of server.capabilities args) args refs) ≠ [] := by
      cases hrefs : sentRefs (.of server.capabilities args) args refs with
      | nil =>
        rw [sendsSome_eq_false.mpr hrefs] at hsome
        cases hsome
      | cons r rest => exact List.cons_ne_nil _ _
    obtain ⟨lines, hlines, hread, hfirst⟩ := (hserver hreport hcommand).firstAccepts
      fun r hr => hlegible r (sentRefs_sublist.mem hr)
    obtain ⟨hheard, hsuccess⟩ :=
      sendPush_heard hnames hreport hok (hsent.trans hsome) hlines hread
    refine ⟨?_, hsuccess⟩
    rw [hheard, List.map_map]
    exact List.map_congr_left fun r hr => Ref.standing_reported hdry hreport (hblank r hr)
      (hstatus r hr) fun he => hfirst r (mem_sentRefs.mpr ⟨hdry, hr, he⟩)

/-- A dry run says how the push ends. If the push ends well, with a server that accepts each command
it reads in case it is to report, then the dry run has left each ref as the push does and was a success
just if the push is, whatever its own server, source and builder of packs were. It has no command, asks
for no pack and leaves what the server says unread. -/
theorem dry_run_predicts_push (hdry : args.dryRun = false) (hnames : (refs.map Ref.name).Nodup)
    (hclean : ∀ r ∈ refs, ' ' ∉ r.name.toList ∧ '\x00' ∉ r.name.toList ∧ '\n' ∉ r.name.toList)
    (hstatus : ∀ r ∈ refs, r.status.IsInitial)
    (hok : (sendPush input server refs args source produce).result = .ok outcome)
    (hserver : server.capabilities.has "report-status" = true →
      commandsOut args (sendPush input server refs args source produce).written ≠ [] →
        AcceptsAll (server.capabilities.has "side-band-64k") input
          (commandsOut args (sendPush input server refs args source produce).written))
    (input' : Bytes) (source' : ObjectSource) (produce' : PackProducer) :
    (∃ foretold, (sendPush input' server refs args.rehearsal source' produce').result =
        .ok foretold ∧ foretold.success = outcome.success) ∧
      (sendPush input' server refs args.rehearsal source' produce').refs.map Ref.standing =
        (sendPush input server refs args source produce).refs.map Ref.standing ∧
      commandsOut args (sendPush input' server refs args.rehearsal source' produce').written = [] ∧
      ((sendPush input' server refs args.rehearsal source' produce').written = [] ∨
        (sendPush input' server refs args.rehearsal source' produce').written = flushPacket) ∧
      (sendPush input' server refs args.rehearsal source' produce').request = none ∧
      (sendPush input' server refs args.rehearsal source' produce').input = input' := by
  have hlegible : ∀ r ∈ refs, r.Legible := fun r hr =>
    ⟨(hclean r hr).2.1, fun hlast => (hclean r hr).2.2 (List.mem_of_getLast? hlast)⟩
  obtain ⟨hstands, hsuccess⟩ := standing_sendPush hdry hnames (fun r hr => (hclean r hr).1) hlegible
    hstatus hok hserver
  obtain ⟨hrefs, hinput, foretold, hresult, hforetold⟩ :=
    @sendPush_rehearsal input' server refs args source' produce'
  have hsame : (sendPush input' server refs args.rehearsal source' produce').refs.map Ref.standing =
      (sendPush input server refs args source produce).refs.map Ref.standing := by
    rw [hstands, hrefs, List.map_map]
    rfl
  refine ⟨⟨foretold, hresult, ?_⟩, hsame, commandsOut_rehearsal, written_rehearsal,
    request_rehearsal, hinput⟩
  rw [hforetold, hsuccess, ← hrefs, allSucceeded_eq, allSucceeded_eq, hsame]

end

/-- A server that reports and deletes refs. -/
def obligingServer : Advertisement := { capabilities := ⟨["report-status", "delete-refs"]⟩ }

/-- The lines of a report that takes the branches in another order. -/
def reorderedLines : List Bytes := ["unpack ok\n", "ok d\n", "ok a\n", "ok c\n"].map bytesOf

/-- That report, as a server sends it. -/
def reorderedReport : Bytes := packets reorderedLines ++ flushPacket

/-- Two branches are moved and one is deleted, and the report comes out of order: the dry run has said
so, with nothing to read and no objects to look at. -/
theorem dry_run_predicts_push_reordered :
    (sendPush reorderedReport obligingServer moveAll {} emptySource (.ofPack [] (.ok ()))).refs.map
        Ref.standing = [("a", .done), ("b", .upToDate), ("c", .done), ("d", .done)] ∧
    (∃ foretold, (sendPush [] obligingServer moveAll ({} : PushArgs).rehearsal brokenSource
      (.ofPack [] (.ok ()))).result = .ok foretold ∧ foretold.success = true) ∧
    (sendPush [] obligingServer moveAll ({} : PushArgs).rehearsal brokenSource
        (.ofPack [] (.ok ()))).refs.map Ref.standing =
      [("a", .done), ("b", .upToDate), ("c", .done), ("d", .done)] := by
  have hok : (sendPush reorderedReport obligingServer moveAll {} emptySource
      (.ofPack [] (.ok ()))).result = .ok { commandsSent := true, newRefs := 2, success := true } := by
    decide +kernel
  have hstands : (sendPush reorderedReport obligingServer moveAll {} emptySource
      (.ofPack [] (.ok ()))).refs.map Ref.standing =
        [("a", .done), ("b", .upToDate), ("c", .done), ("d", .done)] := by decide +kernel
  have hfit : CommandsFit (.of obligingServer.capabilities {}) {} false moveAll := by decide +kernel
  have hlegible : ∀ r ∈ moveAll, r.Legible := by decide +kernel
  have hserver : AcceptsAll false reorderedReport (commandsOut {} (sendPush reorderedReport
      obligingServer moveAll {} emptySource (.ofPack [] (.ok ()))).written) := by
    rw [commandsOut_sendPush, if_pos hfit]
    refine ⟨[bytesOf "ok d", bytesOf "ok a", bytesOf "ok c"], _, ⟨[], ?_⟩, ?_,
      forall₂_accepts_okLine fun r hr => hlegible r (sentRefs_sublist.mem hr)⟩
    · have hfits : ∀ line ∈ reorderedLines, line.length ≤ payloadLimit := by decide +kernel
      have hlines := linesTo_packets hfits []
      rw [List.append_nil] at hlines
      exact hlines
    · decide +kernel
  obtain ⟨⟨foretold, hresult, hsuccess⟩, hsame, -⟩ := dry_run_predicts_push rfl (by decide)
    (by decide +kernel) (by decide +kernel) hok (fun _ _ => hserver) [] brokenSource
    (.ofPack [] (.ok ()))
  exact ⟨hstands, ⟨foretold, hresult, hsuccess⟩, hsame.trans hstands⟩

end GitRemote
