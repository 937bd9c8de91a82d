import GitRemote.Proofs.Push.Report
import GitRemote.Proofs.Wire.Packets

/-!
# Reports read by name alone

The search for a ref goes on where the last one ended, but only to be quick. Where no two refs share a
name, a report leaves what it would leave if every name were searched from the start: each ref as the
first line on it says, and a warning for each line on a ref that is not there or not waiting for one.
-/

namespace GitRemote

/-- The outcome with what the line on the pack says. -/
def PushOutcome.unpacked (o : PushOutcome) (detail : Bytes) : PushOutcome :=
  if detail = bytesOf "ok" then o
  else
    { o.fail (.unpackFailed (Utf8.decodeLossy detail)) with
      unpackError := some (Utf8.decodeLossy detail) }

theorem PushOutcome.warnings_unpacked (o : PushOutcome) (detail : Bytes) :
    (o.unpacked detail).warnings = o.warnings := by
  rw [unpacked]
  split <;> rfl

/-- Takes in a line on the ref of its name, wherever that is. -/
def scanLine (known : List Ref × PushOutcome) (line : ReportLine) : List Ref × PushOutcome :=
  match known.1.find? (·.name == line.name) with
  | none => (known.1, known.2.warn (.unknownRef line.name))
  | some r =>
    if r.status = .expectingReport then (known.1.map (·.hear line), known.2)
    else (known.1, known.2.warn (.unaskedRef line.name))

/-- What is odd about a line behind some others: there is no such ref, or the ref is not waiting for a
line, be it that it never was or that it has had one. -/
def ReportLine.oddity? (refs : List Ref) (earlier : List ReportLine) (line : ReportLine) :
    Option PushOddity :=
  match refs.find? (·.name == line.name) with
  | none => some (.unknownRef line.name)
  | some r =>
    if r.status = .expectingReport ∧ line.name ∉ earlier.map ReportLine.name then none
    else some (.unaskedRef line.name)

/-- What is odd about the lines of a report behind some others, line by line. -/
def oddities (refs : List Ref) : List ReportLine → List ReportLine → List PushOddity
  | _, [] => []
  | earlier, line :: rest =>
    (line.oddity? refs earlier).toList ++ oddities refs (earlier ++ [line]) rest

variable {refs : List Ref}

/-- No other ref is found under the name of one. -/
theorem find?_name_of_mem (h : (refs.map Ref.name).Nodup) {r : Ref} (hr : r ∈ refs) :
    refs.find? (·.name == r.name) = some r := by
  cases hfind : refs.find? (·.name == r.name) with
  | none => simpa using List.find?_eq_none.mp hfind r hr
  | some q =>
    have hname : q.name = r.name := by simpa using List.find?_some hfind
    rw [List.inj_on_of_nodup_map h (List.mem_of_find?_eq_some hfind) hr hname]

/-- Wherever the search starts, a line is taken in on the ref of its name. -/
theorem ReportState.accept_eq_scanLine {s : ReportState} (h : (s.refs.map Ref.name).Nodup)
    (line : ReportLine) :
    ((s.accept line).refs, (s.accept line).outcome) = scanLine (s.refs, s.outcome) line := by
  have hrefs := refs_accept h line
  cases hfind : findRefHinted s.refs s.hint line.name with
  | none =>
    have hnone : s.refs.find? (·.name == line.name) = none :=
      List.find?_eq_none.mpr fun r hr => by simpa using findRefHinted_eq_none hfind r hr
    simp only [scanLine, hnone, accept, hfind]
  | some i =>
    obtain ⟨r, hr, hname⟩ := findRefHinted_eq_some hfind
    have hsome := find?_name_of_mem h (List.mem_of_getElem? hr)
    rw [hname] at hsome
    by_cases hstatus : r.status = .expectingReport
    · rw [hrefs]
      simp only [scanLine, hsome, hstatus, accept, hfind, hr, ite_true]
    · simp only [scanLine, hsome, hstatus, accept, hfind, hr, ite_false]

theorem Ref.foldl_hear_name (r : Ref) (lines : List ReportLine) :
    (lines.foldl Ref.hear r).name = r.name := by
  induction lines generalizing r with
  | nil => rfl
  | cons line lines ih => rw [List.foldl_cons, ih, hear_name]

/-- A ref is waiting for a line as long as it was waiting and has had none. -/
theorem Ref.foldl_hear_expecting {r : Ref} {lines : List ReportLine} :
    (lines.foldl Ref.hear r).status = .expectingReport ↔
      r.status = .expectingReport ∧ r.name ∉ lines.map ReportLine.name := by
  by_cases hstatus : r.status = .expectingReport
  · rw [foldl_hear hstatus]
    cases hfind : lines.find? (·.name == r.name) with
    | none =>
      simpa [hstatus] using hfind
    | some line =>
      have hname : line.name = r.name := by simpa using List.find?_some hfind
      have hmem := List.mem_map_of_mem (f := ReportLine.name) (List.mem_of_find?_eq_some hfind)
      rw [hname] at hmem
      simp only [hmem, not_true_eq_false, and_false, iff_false, report]
      split <;> decide
  · rw [foldl_hear_of_not_expecting hstatus]
    simp [hstatus]

/-- A ref that waits for a line is as the first line on it says. -/
theorem Ref.foldl_hear_eq (r : Ref) (lines : List ReportLine) :
    lines.foldl Ref.hear r =
      if r.status = .expectingReport then
        match lines.find? (·.name == r.name) with
        | some line =>
          { r with
            status := if line.ok then .done else .remoteReject
            remoteStatus := line.message <|> r.remoteStatus }
        | none => r
      else r := by
  split
  · next hstatus => exact foldl_hear hstatus lines
  · next hstatus => exact foldl_hear_of_not_expecting hstatus lines

/-- What a ref is told counts only as far as it is on the ref. -/
theorem Ref.foldl_hear_filter (r : Ref) (lines : List ReportLine) :
    (lines.filter (·.name == r.name)).foldl Ref.hear r = lines.foldl Ref.hear r := by
  rw [foldl_hear_eq, foldl_hear_eq, List.find?_filter]
  simp only [and_self, Bool.decide_eq_true]

/-- A line is told to every ref. -/
theorem scanLine_fst (h : (refs.map Ref.name).Nodup) (outcome : PushOutcome) (line : ReportLine) :
    (scanLine (refs, outcome) line).1 = refs.map (·.hear line) := by
  have hscan := ReportState.accept_eq_scanLine (s := { refs, outcome }) h line
  rw [← ReportState.refs_accept (s := { refs, outcome }) h line, ← hscan]

/-- A line behind others adds what is odd about it, and changes nothing else of the outcome. -/
theorem scanLine_snd (refs : List Ref) (earlier : List ReportLine) (outcome : PushOutcome)
    (line : ReportLine) :
    (scanLine (refs.map (earlier.foldl Ref.hear ·), outcome) line).2 =
      { outcome with warnings := outcome.warnings ++ (line.oddity? refs earlier).toList } := by
  have hfind : (refs.map (earlier.foldl Ref.hear ·)).find? (·.name == line.name) =
      (refs.find? (·.name == line.name)).map (earlier.foldl Ref.hear ·) := by
    rw [List.find?_map]
    simp only [Function.comp_def, Ref.foldl_hear_name]
  rw [scanLine, ReportLine.oddity?, hfind]
  cases hr : refs.find? (·.name == line.name) with
  | none => rfl
  | some r =>
    have hname : r.name = line.name := by simpa using List.find?_some hr
    simp only [Option.map_some, Ref.foldl_hear_expecting, hname]
    split
    · simp
    · rfl

/-- The lines of a report are told to every ref, and each adds what is odd about it. -/
theorem foldl_scanLine (h : (refs.map Ref.name).Nodup) (earlier lines : List ReportLine)
    (outcome : PushOutcome) :
    lines.foldl scanLine (refs.map (earlier.foldl Ref.hear ·), outcome) =
      (refs.map ((earlier ++ lines).foldl Ref.hear ·),
        { outcome with warnings := outcome.warnings ++ oddities refs earlier lines }) := by
  induction lines generalizing earlier outcome with
  | nil => simp [oddities]
  | cons line lines ih =>
    have hnames : ((refs.map (earlier.foldl Ref.hear ·)).map Ref.name).Nodup := by
      simpa only [List.map_map, Function.comp_def, Ref.foldl_hear_name] using h
    have hstep : scanLine (refs.map (earlier.foldl Ref.hear ·), outcome) line =
        (refs.map ((earlier ++ [line]).foldl Ref.hear ·),
          { outcome with
            warnings := outcome.warnings ++ (line.oddity? refs earlier).toList }) := by
      refine Prod.ext ?_ (scanLine_snd refs earlier outcome line)
      rw [scanLine_fst hnames, List.map_map]
      simp only [Function.comp_def, List.foldl_append, List.foldl_cons, List.foldl_nil]
    rw [List.foldl_cons, hstep, ih, oddities, List.append_assoc, List.append_assoc]
    rfl

namespace ReportState

/-- A report leaves what it would leave if every name were searched from the start. -/
theorem foldl_accept_eq_scan {s : ReportState} (h : (s.refs.map Ref.name).Nodup)
    (lines : List ReportLine) :
    ((lines.foldl accept s).refs, (lines.foldl accept s).outcome) =
      lines.foldl scanLine (s.refs, s.outcome) := by
  induction lines generalizing s with
  | nil => rfl
  | cons line lines ih =>
    have hnames : ((s.accept line).refs.map Ref.name).Nodup := by
      rw [refs_accept h, List.map_map]
      simpa only [Function.comp_def, Ref.hear_name] using h
    rw [List.foldl_cons, List.foldl_cons, ih hnames, accept_eq_scanLine h]

/-- What lines add to the outcome is what is odd about them. -/
theorem outcome_foldl_accept (h : (refs.map Ref.name).Nodup) (outcome : PushOutcome)
    (lines : List ReportLine) :
    (lines.foldl accept { refs, outcome }).outcome =
      { outcome with warnings := outcome.warnings ++ oddities refs [] lines } := by
  have hscan := congrArg Prod.snd (foldl_accept_eq_scan (s := { refs, outcome }) h lines)
  have hfold := congrArg Prod.snd (foldl_scanLine h [] lines outcome)
  simp only [List.foldl_nil, List.map_id'] at hfold
  exact hscan.trans hfold

/-- What lines leave. -/
theorem foldl_accept_eq (h : (refs.map Ref.name).Nodup) (outcome : PushOutcome)
    (lines : List ReportLine) :
    ∃ hint, lines.foldl accept { refs, outcome } =
      { refs := refs.map fun r =>
          if r.status = .expectingReport then
            match lines.find? (·.name == r.name) with
            | some line =>
              { r with
                status := if line.ok then .done else .remoteReject
                remoteStatus := line.message <|> r.remoteStatus }
            | none => r
          else r
        outcome := { outcome with warnings := outcome.warnings ++ oddities refs [] lines }
        hint } := by
  have hrefs := refs_foldl_accept (s := { refs, outcome }) h lines
  simp only [Ref.foldl_hear_eq] at hrefs
  exact ⟨(lines.foldl accept { refs, outcome }).hint, by
    rw [← outcome_foldl_accept h outcome lines, ← hrefs]⟩

end ReportState

/-- Lines that were sent are read back, without their line feeds. -/
theorem linesTo_packets {lines : List Bytes} (h : ∀ line ∈ lines, line.length ≤ payloadLimit)
    (rest : Bytes) :
    LinesTo (packets lines ++ (flushPacket ++ rest)) (lines.map dropLineFeed) rest := by
  induction lines with
  | nil =>
    refine .flush ?_
    rw [packets_nil, List.nil_append, Packet.readLine, Packet.readDue, Packet.read_flush]
  | cons line lines ih =>
    obtain ⟨hline, hlines⟩ := List.forall_mem_cons.mp h
    refine .line ?_ (ih hlines)
    rw [packets_cons, List.append_assoc, Packet.readLine, Packet.readDue, Packet.read_frame hline]

section

variable {σ : Type} [ByteSource σ] [BoundedSource σ] {s s' : σ}

/-- A report with any line on the pack is read up to its flush packet, and all lines on refs are taken
in. -/
theorem readReport_of_linesTo {detail : Bytes} {lines : List Bytes}
    (h : LinesTo s ((bytesOf "unpack " ++ detail) :: lines) s')
    (hlines : ∀ line ∈ lines, (ReportLine.parse? line).isSome = true) (outcome : PushOutcome) :
    readReport refs outcome s =
      ((.ok (), (lines.filterMap ReportLine.parse?).foldl ReportState.accept
        { refs, outcome := outcome.unpacked detail }), s') := by
  obtain _ | ⟨hread, hrest⟩ := h
  have hdetail : (some (bytesOf "unpack " ++ detail)).bind (Text.after? (bytesOf "unpack ")) =
      some detail := after?_eq_some.mpr rfl
  rw [readReport, hread]
  simp only [hdetail]
  exact readRefReports_of_linesTo hrest hlines (Nat.lt_succ_of_le hrest.length_le) _

/-- Where no two refs share a name, a report leaves what a search of every name from the start would: each
ref that waits for a line is as the first line on it says and all others are as they were, and each line
on a ref that is not there or not waiting makes one warning and nothing else. So lines on different refs
may come in any order. -/
theorem report_is_scanned_by_name (hnames : (refs.map Ref.name).Nodup) (outcome : PushOutcome)
    {detail : Bytes} {lines : List Bytes}
    (hreport : LinesTo s ((bytesOf "unpack " ++ detail) :: lines) s')
    (hlines : ∀ line ∈ lines, ∃ ok rest, line = reportMark ok ++ rest) :
    (∃ hint, readReport refs outcome s =
      ((.ok (),
        { refs := refs.map fun r =>
            if r.status = .expectingReport then
              match (lines.filterMap ReportLine.parse?).find? (·.name == r.name) with
              | some line =>
                { r with
                  status := if line.ok then .done else .remoteReject
                  remoteStatus := line.message <|> r.remoteStatus }
              | none => r
            else r
          outcome :=
            { outcome.unpacked detail with
              warnings := outcome.warnings ++
                oddities refs [] (lines.filterMap ReportLine.parse?) }
          hint }), s')) ∧
    ((readReport refs outcome s).1.2.refs, (readReport refs outcome s).1.2.outcome) =
      (lines.filterMap ReportLine.parse?).foldl scanLine (refs, outcome.unpacked detail) ∧
    ∀ (other : PushOutcome) {t t' : σ} {detail' : Bytes} {lines' : List Bytes},
      LinesTo t ((bytesOf "unpack " ++ detail') :: lines') t' →
      (∀ line ∈ lines', ∃ ok rest, line = reportMark ok ++ rest) →
      (∀ name, (lines'.filterMap ReportLine.parse?).filter (·.name == name) =
        (lines.filterMap ReportLine.parse?).filter (·.name == name)) →
      (readReport refs other t).1.2.refs = (readReport refs outcome s).1.2.refs := by
  have hread {t t' : σ} {detail' : Bytes} {lines' : List Bytes} (other : PushOutcome)
      (h : LinesTo t ((bytesOf "unpack " ++ detail') :: lines') t')
      (hmarks : ∀ line ∈ lines', ∃ ok rest, line = reportMark ok ++ rest) :
      readReport refs other t = _ :=
    readReport_of_linesTo h
      (fun line hline => ReportLine.isSome_parse?_iff.mpr (hmarks line hline)) other
  rw [hread outcome hreport hlines]
  refine ⟨?_, ReportState.foldl_accept_eq_scan hnames _, ?_⟩
  · obtain ⟨hint, hstate⟩ := ReportState.foldl_accept_eq hnames (outcome.unpacked detail)
      (lines.filterMap ReportLine.parse?)
    rw [PushOutcome.warnings_unpacked] at hstate
    exact ⟨hint, by rw [hstate]⟩
  · intro other t t' detail' lines' h hmarks hsame
    rw [hread other h hmarks, ReportState.refs_foldl_accept hnames,
      ReportState.refs_foldl_accept hnames]
    refine List.map_congr_left fun r _ => ?_
    rw [← Ref.foldl_hear_filter, hsame, Ref.foldl_hear_filter]

end

/-- Three refs, of which the second is not waiting for a line. -/
def reportedRefs : List Ref :=
  [{ name := "a", oldId := .null, status := .expectingReport },
    { name := "b", oldId := .null, status := .upToDate },
    { name := "c", oldId := .null, status := .expectingReport }]

/-- Lines out of order, on a ref that is not there, on one that is not waiting, and on one again. -/
def straySent : List Bytes :=
  ["ok c\n", "ng a non-fast-forward\n", "ok z\n", "ok b\n", "ok a\n"].map bytesOf

/-- The same report, as a server sends it. -/
def strayReport : Bytes := packets (bytesOf "unpack ok\n" :: straySent) ++ (flushPacket ++ [0x2A])

theorem report_is_scanned_by_name_stray :
    (reportedRefs.map Ref.name).Nodup ∧
      LinesTo strayReport ((bytesOf "unpack " ++ bytesOf "ok") :: straySent.map dropLineFeed)
        [0x2A] ∧
      (∀ line ∈ straySent.map dropLineFeed, ∃ ok rest, line = reportMark ok ++ rest) ∧
      ∃ hint, readReport reportedRefs {} strayReport =
        ((.ok (),
          { refs :=
              [{ name := "a", oldId := .null, status := .remoteReject,
                 remoteStatus := some "non-fast-forward" },
                { name := "b", oldId := .null, status := .upToDate },
                { name := "c", oldId := .null, status := .done }]
            outcome := { warnings := [.unknownRef "z", .unaskedRef "b", .unaskedRef "a"] }
            hint }), [0x2A]) := by
  have hnames : (reportedRefs.map Ref.name).Nodup := by decide
  have hlines : LinesTo strayReport
      ((bytesOf "unpack " ++ bytesOf "ok") :: straySent.map dropLineFeed) [0x2A] :=
    linesTo_packets (by decide +kernel) [0x2A]
  have hmarks : ∀ line ∈ straySent.map dropLineFeed, ∃ ok rest, line = reportMark ok ++ rest := by
    intro line hline
    have hparsed : ∀ line ∈ straySent.map dropLineFeed,
        (ReportLine.parse? line).isSome = true := by decide +kernel
    exact ReportLine.isSome_parse?_iff.mp (hparsed line hline)
  obtain ⟨⟨hint, hread⟩, -⟩ := report_is_scanned_by_name hnames {} hlines hmarks
  refine ⟨hnames, hlines, hmarks, hint, hread.trans ?_⟩
  have hrefs : (straySent.map dropLineFeed).filterMap ReportLine.parse? =
      [⟨true, "c", none⟩, ⟨false, "a", some "non-fast-forward"⟩, ⟨true, "z", none⟩,
        ⟨true, "b", none⟩, ⟨true, "a", none⟩] := by decide +kernel
  rw [hrefs]
  rfl

end GitRemote
