import GitRemote.Proofs.Push.Commands
import GitRemote.Proofs.Push.Report

/-!
# When a push succeeds

A push that sent commands and got to read a report is a success if the server unpacked the pack and
said of every ref that was sent, in the first line on it, that the update was done; and if no ref
was rejected before. A ref that the server does not mention makes the push fail.
-/

namespace GitRemote

/-- The lines that a server answers with up to a flush packet, taken out of side bands if these were
agreed on. -/
def AnswerLines (sideband : Bool) (input : Bytes) (lines : List Bytes) : Prop :=
  if sideband then FlushedLines ({ rest := input } : Demux) lines else FlushedLines input lines

/-- There is a line on this name, and the first one says that its update was done. -/
def FirstAccepts (lines : List Bytes) (name : String) : Prop :=
  ∃ before line after, lines = before ++ line :: after ∧ LineOn true name line ∧
    ∀ earlier ∈ before, ∀ ok, ¬ LineOn ok name earlier

/-- The first line on a name is the first that is read as one on it. -/
theorem firstAccepts_iff {name : String} (hname : ' ' ∉ name.toList) {lines : List Bytes} :
    FirstAccepts lines name ↔
      ∃ l, (lines.filterMap ReportLine.parse?).find? (·.name == name) = some l ∧ l.ok = true := by
  have hany (line : Bytes) :
      (ReportLine.parse? line).any (·.name == name) = true ↔ ∃ ok, LineOn ok name line := by
    simp only [Option.any_eq_true, beq_iff_eq, lineOn_iff hname]
    constructor
    · rintro ⟨l, hl, hn⟩
      exact ⟨l.ok, l, hl, rfl, hn⟩
    · rintro ⟨_, l, hl, _, hn⟩
      exact ⟨l, hl, hn⟩
  simp only [List.find?_filterMap, Option.bind_eq_some_iff, List.find?_eq_some_iff_append]
  constructor
  · rintro ⟨before, line, after, hsplit, hline, hbefore⟩
    obtain ⟨l, hl, hok, hn⟩ := (lineOn_iff hname).mp hline
    refine ⟨l, ⟨line, ⟨(hany line).mpr ⟨true, hline⟩, before, after, hsplit, ?_⟩, hl⟩, hok⟩
    intro earlier hmem
    rw [Bool.not_eq_true', ← Bool.not_eq_true, hany]
    rintro ⟨ok, hon⟩
    exact hbefore earlier hmem ok hon
  · rintro ⟨l, ⟨line, ⟨hline, before, after, hsplit, hbefore⟩, hl⟩, hok⟩
    refine ⟨before, line, after, hsplit, ?_, ?_⟩
    · obtain ⟨_, hon⟩ := (hany line).mp hline
      obtain ⟨l', hl', _, hn⟩ := (lineOn_iff hname).mp hon
      obtain rfl := Option.some.inj (hl.symm.trans hl')
      exact (lineOn_iff hname).mpr ⟨l, hl, hok, hn⟩
    · intro earlier hmem ok hon
      have hno := hbefore earlier hmem
      rw [(hany earlier).mpr ⟨ok, hon⟩] at hno
      cases hno

/-- A report that was agreed on is read without a fault if it is a good line on the pack and lines
on refs up to a flush packet; these are then all taken in. -/
theorem readAgreedReport_spec {a : Agreement} {refs : List Ref} {outcome : PushOutcome}
    (hnone : outcome.errors = []) {state : ReportState} {input rest : Bytes}
    (h : readAgreedReport a refs outcome input = ((.ok (), state), rest)) :
    (state.outcome.errors = [] ↔
      ∃ lines, AnswerLines a.sideband input (bytesOf "unpack ok" :: lines) ∧
        ∀ line ∈ lines, (ReportLine.parse? line).isSome = true) ∧
    ∀ lines, AnswerLines a.sideband input (bytesOf "unpack ok" :: lines) →
      (∀ line ∈ lines, (ReportLine.parse? line).isSome = true) →
      state = (lines.filterMap ReportLine.parse?).foldl ReportState.accept { refs, outcome } := by
  rw [readAgreedReport] at h
  simp only [AnswerLines]
  cases hband : a.sideband with
  | true =>
    simp only [hband, ite_true] at h ⊢
    cases hread : readReport refs outcome ({ rest := input } : Demux) with
    | mk r d =>
      rw [hread] at h
      obtain rfl : r = (.ok (), state) := (Prod.mk.inj h).1
      exact readReport_spec hnone hread
  | false =>
    simp only [hband, Bool.false_eq_true, ite_false] at h ⊢
    exact readReport_spec hnone h

/-- A ref ends well if it was not rejected before and, in case it was sent, the first line on it
says that its update was done. -/
theorem isSuccess_reported_iff {a : Agreement} {args : PushArgs} (hreport : a.statusReport = true)
    (hdry : args.dryRun = false) {r : Ref} (hname : ' ' ∉ r.name.toList)
    (hstatus : r.status = .undecided ∨ r.status = .upToDate ∨ r.status = .nonFastForward)
    (lines : List Bytes) :
    (((lines.filterMap ReportLine.parse?).foldl Ref.hear (r.commanded a args)).status.isSuccess =
        true) ↔
      (((lines.filterMap ReportLine.parse?).foldl Ref.hear (r.commanded a args)).status ≠
            .nonFastForward ∧
          ((lines.filterMap ReportLine.parse?).foldl Ref.hear (r.commanded a args)).status ≠
            .noDelete) ∧
        (r.eligibility args.mirror a.allowDelete = .eligible → FirstAccepts lines r.name) := by
  cases he : r.eligibility args.mirror a.allowDelete with
  | passedOver =>
    have hr : r.commanded a args = r := by rw [Ref.commanded, he]
    have hne : r.status ≠ .expectingReport := by
      rcases hstatus with h | h | h <;> rw [h] <;> decide
    rw [hr, Ref.foldl_hear_of_not_expecting hne]
    rcases hstatus with h | h | h <;> simp [h, RefStatus.isSuccess]
  | undeletable =>
    have hr : (r.commanded a args).status = .noDelete := by rw [Ref.commanded, he]
    have hne : (r.commanded a args).status ≠ .expectingReport := by rw [hr]; decide
    rw [Ref.foldl_hear_of_not_expecting hne, hr]
    simp [RefStatus.isSuccess]
  | eligible =>
    have hr : (r.commanded a args).status = .expectingReport := by
      simp [Ref.commanded, he, hreport, hdry]
    rw [Ref.foldl_hear hr, Ref.commanded_name, firstAccepts_iff hname]
    cases hfind : (lines.filterMap ReportLine.parse?).find? (·.name == r.name) with
    | none => simp [hr, RefStatus.isSuccess]
    | some l => cases hl : l.ok <;> simp [Ref.report, hl, RefStatus.isSuccess]

/-- A push that sent commands and succeeded in reading the report is a success just if no ref was
rejected before, the server's first line is `unpack ok`, all others up to the flush packet start
with `ok ` or `ng `, and there is a line on each ref that was sent, of which the first starts with
`ok `. -/
theorem push_success_iff {input : Bytes} {server : Advertisement} {refs : List Ref}
    {args : PushArgs} {source : ObjectSource} {produce : PackProducer} {outcome : PushOutcome}
    (hnames : (refs.map Ref.name).Nodup) (hblank : ∀ r ∈ refs, ' ' ∉ r.name.toList)
    (hstatus : ∀ r ∈ refs, r.status = .undecided ∨ r.status = .upToDate ∨
      r.status = .nonFastForward)
    (hreport : server.capabilities.has "report-status" = true)
    (hok : (sendPush input server refs args source produce).result = .ok outcome)
    (hsent : outcome.commandsSent = true) :
    outcome.success = true ↔
      (∀ r ∈ (sendPush input server refs args source produce).refs,
        r.status ≠ .nonFastForward ∧ r.status ≠ .noDelete) ∧
      ∃ lines,
        AnswerLines (server.capabilities.has "side-band-64k") input
          (bytesOf "unpack ok" :: lines) ∧
        (∀ line ∈ lines, ∃ ok rest, line = reportMark ok ++ rest) ∧
        ∀ r ∈ refs,
          r.eligibility args.mirror (server.capabilities.has "delete-refs") = .eligible →
            FirstAccepts lines r.name := by
  obtain ⟨hdry, state, rest, first, hread, hnone, hrefs, hsuccess⟩ :=
    sendPush_reported hreport hok hsent
  obtain ⟨hclean, hstate⟩ := readAgreedReport_spec hnone hread
  have hfinal (lines : List Bytes) (hto : AnswerLines (server.capabilities.has "side-band-64k")
      input (bytesOf "unpack ok" :: lines))
      (hlines : ∀ line ∈ lines, (ReportLine.parse? line).isSome = true) :
      state.refs = refs.map fun r => (lines.filterMap ReportLine.parse?).foldl Ref.hear
        (r.commanded (Agreement.of server.capabilities args) args) := by
    rw [hstate lines hto hlines, ReportState.refs_foldl_accept, List.map_map]
    · rfl
    · rw [List.map_map]
      simpa only [Function.comp_def, Ref.commanded_name] using hnames
  rw [hsuccess, Bool.and_eq_true, List.isEmpty_iff, hclean, hrefs, allSucceeded, List.all_eq_true]
  constructor
  · rintro ⟨⟨lines, hto, hlines⟩, hall⟩
    rw [hfinal lines hto hlines] at hall ⊢
    have hgood (r : Ref) (hr : r ∈ refs) :=
      (isSuccess_reported_iff hreport hdry (hblank r hr) (hstatus r hr) lines).mp
        (hall _ (List.mem_map_of_mem hr))
    refine ⟨?_, lines, hto, fun line hl => ReportLine.isSome_parse?_iff.mp (hlines line hl),
      fun r hr => (hgood r hr).2⟩
    intro r hr
    obtain ⟨r₀, hr₀, rfl⟩ := List.mem_map.mp hr
    exact (hgood r₀ hr₀).1
  · rintro ⟨hlocal, lines, hto, hmarks, hfirst⟩
    have hlines (line : Bytes) (hl : line ∈ lines) :=
      ReportLine.isSome_parse?_iff.mpr (hmarks line hl)
    rw [hfinal lines hto hlines] at hlocal ⊢
    refine ⟨⟨lines, hto, hlines⟩, ?_⟩
    intro r hr
    obtain ⟨r₀, hr₀, rfl⟩ := List.mem_map.mp hr
    exact (isSuccess_reported_iff hreport hdry (hblank r₀ hr₀) (hstatus r₀ hr₀) lines).mpr
      ⟨hlocal _ hr, hfirst r₀ hr₀⟩

/-- A new branch `a` and a branch `b` that is deleted. -/
def twoUpdates : List Ref :=
  [{ name := "a", oldId := .null, newId := ⟨List.replicate 20 1, List.length_replicate⟩,
     peer := some "a" },
    { name := "b", oldId := ⟨List.replicate 20 2, List.length_replicate⟩, peer := some "",
      deletion := true }]

/-- A server that reports in side bands and deletes refs. -/
def bandedServer : Advertisement :=
  { capabilities := ⟨["report-status", "side-band-64k", "delete-refs"]⟩ }

/-- A report on both updates, the second one first, and on a ref that was not sent, in the packets
of a side band. -/
def bandedReport : Bytes :=
  bandPackets [1] 10
      (["unpack ok", "ok b", "ng c no such ref", "ok a"].flatMap (fun line =>
        Packet.frame (bytesOf line)) ++ flushPacket) ++
    flushPacket

/-- The push of both updates, with an empty pack. -/
def bandedPush : PushRun Bytes :=
  sendPush bandedReport bandedServer twoUpdates {} { read := fun _ => .ok none }
    fun _ => ([], .ok ())

/-- How the push ends: with a warning about the ref that was not sent. -/
def bandedOutcome : PushOutcome :=
  { commandsSent := true
    newRefs := 1
    warnings := [.unknownRef "c"]
    success := true }

theorem bandedPush_result : bandedPush.result = .ok bandedOutcome := by
  decide +kernel

/-- The push succeeds, so the report is as it has to be. -/
theorem push_success_iff_banded :
    bandedPush.result = .ok bandedOutcome ∧
    (∀ r ∈ bandedPush.refs, r.status ≠ .nonFastForward ∧ r.status ≠ .noDelete) ∧
      ∃ lines,
        AnswerLines (bandedServer.capabilities.has "side-band-64k") bandedReport
          (bytesOf "unpack ok" :: lines) ∧
        (∀ line ∈ lines, ∃ ok rest, line = reportMark ok ++ rest) ∧
        ∀ r ∈ twoUpdates,
          r.eligibility false (bandedServer.capabilities.has "delete-refs") = .eligible →
            FirstAccepts lines r.name :=
  ⟨bandedPush_result, (push_success_iff (by decide) (by decide) (by decide) (by decide +kernel)
    bandedPush_result rfl).mp rfl⟩

end GitRemote
