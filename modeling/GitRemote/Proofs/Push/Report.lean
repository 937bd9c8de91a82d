import GitRemote.Proofs.Text.Cut
import GitRemote.Proofs.Wire.Lines
import GitRemote.Push.StatusReport
import Mathlib.Data.List.Nodup

/-!
# What a report says of each ref

A line that is well formed says of one name that its update was done, or that it was not. Where no
two refs share a name, taking in a line is the same as telling it to every ref, wherever the search
for the name starts; and a ref that a report is expected on is decided by the first line on it.
-/

namespace GitRemote

/-- How a line on a ref starts. -/
def reportMark (ok : Bool) : Bytes := bytesOf (if ok then "ok " else "ng ")

/-- The line says of this name whether its update was done: behind the mark there is the name, and
possibly a message behind a blank. -/
def LineOn (ok : Bool) (name : String) (line : Bytes) : Prop :=
  ∃ rest, line = reportMark ok ++ rest ∧
    (Utf8.decodeLossy rest = name ∨ ∃ message, Utf8.decodeLossy rest = name ++ " " ++ message)

theorem reportMark_true : reportMark true = [0x6F, 0x6B, 0x20] := rfl

theorem reportMark_false : reportMark false = [0x6E, 0x67, 0x20] := rfl

/-- A line starts with at most one mark. -/
theorem reportMark_append_inj {ok ok' : Bool} {rest rest' : Bytes}
    (h : reportMark ok ++ rest = reportMark ok' ++ rest') : ok = ok' ∧ rest = rest' := by
  cases ok <;> cases ok' <;> simp_all [reportMark_true, reportMark_false]

namespace ReportLine

/-- What the text behind a mark says: up to the first blank it is a name. -/
def ofText (ok : Bool) (text : String) : ReportLine :=
  match Text.cutAt? ' ' text with
  | some (name, message) => ⟨ok, name, some message⟩
  | none => ⟨ok, text, none⟩

theorem ofText_ok (ok : Bool) (text : String) : (ofText ok text).ok = ok := by
  rw [ofText]
  split <;> rfl

/-- Whether the mark of a line on a ref is `ok`, and what stands behind it. -/
def marked? (line : Bytes) : Option (Bool × Bytes) :=
  match Text.after? (bytesOf "ok ") line with
  | some rest => some (true, rest)
  | none => (Text.after? (bytesOf "ng ") line).map fun rest => (false, rest)

/-- A line is marked by the three bytes that it starts with. -/
theorem marked?_eq_some {line rest : Bytes} {ok : Bool} :
    marked? line = some (ok, rest) ↔ line = reportMark ok ++ rest := by
  have hok (r : Bytes) : Text.after? (bytesOf "ok ") line = some r ↔ line = reportMark true ++ r :=
    after?_eq_some
  have hng (r : Bytes) : Text.after? (bytesOf "ng ") line = some r ↔ line = reportMark false ++ r :=
    after?_eq_some
  rw [marked?]
  cases ho : Text.after? (bytesOf "ok ") line with
  | some r =>
    have hline := (hok r).mp ho
    simp only [Option.some.injEq, Prod.mk.injEq]
    constructor
    · rintro ⟨rfl, rfl⟩
      exact hline
    · exact fun h => reportMark_append_inj (hline.symm.trans h)
  | none =>
    simp only [Option.map_eq_some_iff, Prod.mk.injEq, hng]
    constructor
    · rintro ⟨r, h, rfl, rfl⟩
      exact h
    · intro h
      cases ok with
      | true =>
        rw [(hok rest).mpr h] at ho
        cases ho
      | false => exact ⟨rest, h, rfl, rfl⟩

theorem parse?_eq (line : Bytes) :
    parse? line = (marked? line).map fun (ok, rest) => ofText ok (Utf8.decodeLossy rest) := rfl

/-- A line reads as one on a ref if it starts with a mark. -/
theorem parse?_eq_some {line : Bytes} {l : ReportLine} :
    parse? line = some l ↔
      ∃ rest, line = reportMark l.ok ++ rest ∧ l = ofText l.ok (Utf8.decodeLossy rest) := by
  simp only [parse?_eq, Option.map_eq_some_iff, Prod.exists, marked?_eq_some]
  constructor
  · rintro ⟨ok, rest, hline, rfl⟩
    exact ⟨rest, by rw [ofText_ok, hline], by rw [ofText_ok]⟩
  · rintro ⟨rest, hline, hl⟩
    exact ⟨l.ok, rest, hline, hl.symm⟩

/-- A line is understood just if it is marked. -/
theorem isSome_parse?_iff {line : Bytes} :
    (parse? line).isSome = true ↔ ∃ ok rest, line = reportMark ok ++ rest := by
  rw [Option.isSome_iff_exists]
  constructor
  · rintro ⟨l, hl⟩
    obtain ⟨rest, hline, _⟩ := parse?_eq_some.mp hl
    exact ⟨l.ok, rest, hline⟩
  · rintro ⟨ok, rest, hline⟩
    refine ⟨ofText ok (Utf8.decodeLossy rest), parse?_eq_some.mpr ⟨rest, ?_, ?_⟩⟩
    · rw [ofText_ok, hline]
    · rw [ofText_ok]

/-- A name without blanks is what the text is, or what it starts with in front of a blank. -/
theorem ofText_name {name text : String} (hname : ' ' ∉ name.toList) (ok : Bool) :
    (ofText ok text).name = name ↔ text = name ∨ ∃ message, text = name ++ " " ++ message := by
  have hblank (message : String) :
      text = name ++ " " ++ message ↔ text.toList = name.toList ++ ' ' :: message.toList := by
    rw [← String.toList_inj, String.toList_append, String.toList_append, List.append_assoc]
    rfl
  simp only [hblank]
  cases hcut : Text.cutAt? ' ' text with
  | some p =>
    obtain ⟨a, b⟩ := p
    obtain ⟨ha, htext⟩ := cutAt?_eq_some.mp hcut
    have hof : (ofText ok text).name = a := by rw [ofText, hcut]
    rw [hof]
    constructor
    · rintro rfl
      exact .inr ⟨b, htext⟩
    · rintro (rfl | ⟨message, hm⟩)
      · rw [htext] at hname
        simp at hname
      · have hcut' := cutAt?_eq_some.mpr ⟨hname, hm⟩
        rw [hcut, Option.some.injEq, Prod.mk.injEq] at hcut'
        exact hcut'.1
  | none =>
    have hof : (ofText ok text).name = text := by rw [ofText, hcut]
    rw [hof, iff_self_or]
    rintro ⟨message, hm⟩
    have hno := cutAt?_eq_none.mp hcut
    rw [hm] at hno
    simp at hno

end ReportLine

/-- What is read from a line is what the line says of a name without blanks. -/
theorem lineOn_iff {ok : Bool} {name : String} (hname : ' ' ∉ name.toList) {line : Bytes} :
    LineOn ok name line ↔
      ∃ l, ReportLine.parse? line = some l ∧ l.ok = ok ∧ l.name = name := by
  simp only [LineOn, ReportLine.parse?_eq_some, ← ReportLine.ofText_name hname ok]
  constructor
  · rintro ⟨rest, hline, hn⟩
    refine ⟨.ofText ok (Utf8.decodeLossy rest), ⟨rest, ?_, ?_⟩, ReportLine.ofText_ok .., hn⟩
    · rw [ReportLine.ofText_ok, hline]
    · rw [ReportLine.ofText_ok]
  · rintro ⟨l, ⟨rest, hline, hl⟩, rfl, rfl⟩
    exact ⟨rest, hline, by rw [← hl]⟩

/-- A search that succeeds gives the position of a ref with the name. -/
theorem findRefFrom_eq_some {refs : List Ref} {start i : Nat} {name : String}
    (h : findRefFrom refs start name = some i) : ∃ r, refs[i]? = some r ∧ r.name = name := by
  obtain ⟨j, hj, rfl⟩ := Option.map_eq_some_iff.mp h
  obtain ⟨hlt, hname, _⟩ := List.findIdx?_eq_some_iff_getElem.mp hj
  refine ⟨(refs.drop start)[j], ?_, by simpa using hname⟩
  rw [Nat.add_comm, ← List.getElem?_drop]
  exact List.getElem?_eq_getElem hlt

/-- Wherever the search starts, what is found is a ref of the name. -/
theorem findRefHinted_eq_some {refs : List Ref} {hint : Option Nat} {i : Nat} {name : String}
    (h : findRefHinted refs hint name = some i) : ∃ r, refs[i]? = some r ∧ r.name = name := by
  rw [findRefHinted] at h
  cases hb : hint.bind fun start => findRefFrom refs start name with
  | some j =>
    rw [hb] at h
    obtain rfl : j = i := Option.some.inj h
    obtain ⟨start, _, hstart⟩ := Option.bind_eq_some_iff.mp hb
    exact findRefFrom_eq_some hstart
  | none =>
    rw [hb] at h
    exact findRefFrom_eq_some (show findRefFrom refs 0 name = some i from h)

/-- A search from a hint on fails only if no ref has the name. -/
theorem findRefHinted_eq_none {refs : List Ref} {hint : Option Nat} {name : String}
    (h : findRefHinted refs hint name = none) : ∀ r ∈ refs, r.name ≠ name := by
  rw [findRefHinted] at h
  cases hb : hint.bind fun start => findRefFrom refs start name with
  | some j =>
    rw [hb] at h
    cases h
  | none =>
    rw [hb] at h
    have hno : refs.findIdx? (·.name == name) = none := Option.map_eq_none_iff.mp h
    intro r hr
    simpa using List.findIdx?_eq_none_iff.mp hno r hr

/-- A ref that was told a line. It counts only if it is on the ref and a report is expected. -/
def Ref.hear (r : Ref) (line : ReportLine) : Ref :=
  if r.name = line.name ∧ r.status = .expectingReport then r.report line else r

@[simp] theorem Ref.hear_name (r : Ref) (line : ReportLine) : (r.hear line).name = r.name := by
  rw [hear]
  split <;> rfl

/-- A ref does not listen to lines about another name. -/
theorem Ref.hear_of_ne {r : Ref} {line : ReportLine} (h : r.name ≠ line.name) :
    r.hear line = r :=
  if_neg fun hboth => h hboth.1

theorem Ref.hear_of_not_expecting {r : Ref} (h : r.status ≠ .expectingReport)
    (line : ReportLine) : r.hear line = r :=
  if_neg fun hboth => h hboth.2

/-- What a report says of a ref that it is not expected on changes nothing. -/
theorem Ref.foldl_hear_of_not_expecting {r : Ref} (h : r.status ≠ .expectingReport)
    (lines : List ReportLine) : lines.foldl Ref.hear r = r := by
  induction lines with
  | nil => rfl
  | cons line lines ih => rw [List.foldl_cons, hear_of_not_expecting h, ih]

/-- A ref that a report is expected on is decided by the first line on it. -/
theorem Ref.foldl_hear {r : Ref} (h : r.status = .expectingReport) (lines : List ReportLine) :
    lines.foldl Ref.hear r =
      match lines.find? (·.name == r.name) with
      | some line => r.report line
      | none => r := by
  induction lines with
  | nil => rfl
  | cons line lines ih =>
    by_cases hname : r.name = line.name
    · have hreport : r.hear line = r.report line := if_pos ⟨hname, h⟩
      have hdecided : (r.report line).status ≠ .expectingReport := by
        simp only [report]
        split <;> decide
      rw [List.foldl_cons, hreport, foldl_hear_of_not_expecting hdecided,
        List.find?_cons_of_pos (by simp [hname])]
    · rw [List.foldl_cons, hear_of_ne hname, ih,
        List.find?_cons_of_neg (by simpa using Ne.symm hname)]

namespace ReportState

/-- Where no two refs share a name, a line is told to every ref. -/
theorem refs_accept {s : ReportState} (h : (s.refs.map Ref.name).Nodup) (line : ReportLine) :
    (s.accept line).refs = s.refs.map (·.hear line) := by
  rw [accept]
  cases hfind : findRefHinted s.refs s.hint line.name with
  | none =>
    have hno := findRefHinted_eq_none hfind
    show s.refs = s.refs.map (·.hear line)
    rw [List.map_congr_left fun r hr => Ref.hear_of_ne (hno r hr), List.map_id']
  | some i =>
    obtain ⟨r, hr, hname⟩ := findRefHinted_eq_some hfind
    have hlt := (List.getElem?_eq_some_iff.mp hr).1
    -- The ref that was found is the only one that the line is on.
    have hother (j : Nat) (q : Ref) (hq : s.refs[j]? = some q) (hji : j ≠ i) :
        q.name ≠ line.name := by
      intro hqn
      have hnames : (s.refs.map Ref.name)[i]? = (s.refs.map Ref.name)[j]? := by
        rw [List.getElem?_map, List.getElem?_map, hr, hq, Option.map_some, Option.map_some, hname,
          hqn]
      exact hji (((List.getElem?_inj (by rwa [List.length_map]) h).mp hnames).symm)
    simp only [hr]
    by_cases hs : r.status = .expectingReport
    · rw [if_pos hs]
      apply List.ext_getElem?
      intro j
      rw [List.getElem?_map]
      by_cases hji : j = i
      · rw [hji, List.getElem?_set_self hlt, hr, Option.map_some, Ref.hear, if_pos ⟨hname, hs⟩]
      · rw [List.getElem?_set_ne (Ne.symm hji)]
        cases hq : s.refs[j]? with
        | none => rfl
        | some q => rw [Option.map_some, Ref.hear_of_ne (hother j q hq hji)]
    · rw [if_neg hs]
      refine (List.map_id' _).symm.trans (List.map_congr_left fun q hq => ?_)
      obtain ⟨j, hj⟩ := List.mem_iff_getElem?.mp hq
      by_cases hji : j = i
      · obtain rfl : r = q := Option.some.inj (hr.symm.trans (hji ▸ hj))
        rw [Ref.hear_of_not_expecting hs]
      · rw [Ref.hear_of_ne (hother j q hj hji)]

/-- A line of the report adds no error. -/
theorem errors_accept (s : ReportState) (line : ReportLine) :
    (s.accept line).outcome.errors = s.outcome.errors := by
  rw [accept]
  split
  · rfl
  · split
    · rfl
    · split <;> rfl

/-- Lines on refs are no faults. -/
theorem errors_foldl_accept (s : ReportState) (lines : List ReportLine) :
    (lines.foldl accept s).outcome.errors = s.outcome.errors := by
  induction lines generalizing s with
  | nil => rfl
  | cons line lines ih => rw [List.foldl_cons, ih, errors_accept]

/-- Where no two refs share a name, every line is told to every ref. -/
theorem refs_foldl_accept {s : ReportState} (h : (s.refs.map Ref.name).Nodup)
    (lines : List ReportLine) :
    (lines.foldl accept s).refs = s.refs.map fun r => lines.foldl Ref.hear r := by
  induction lines generalizing s with
  | nil => exact (List.map_id' _).symm
  | cons line lines ih =>
    have hrefs := refs_accept h line
    have hnames : ((s.accept line).refs.map Ref.name).Nodup := by
      rw [hrefs, List.map_map]
      simpa only [Function.comp_def, Ref.hear_name] using h
    rw [List.foldl_cons, ih hnames, hrefs, List.map_map]
    rfl

end ReportState

section

variable {σ : Type} [ByteSource σ] {s s' : σ}

/-- The lines on refs up to the flush packet are all taken in. -/
theorem readRefReports_of_linesTo {lines : List Bytes} (h : LinesTo s lines s')
    (hlines : ∀ line ∈ lines, (ReportLine.parse? line).isSome = true) {fuel : Nat}
    (hfuel : lines.length < fuel) (state : ReportState) :
    readRefReports fuel state s =
      ((.ok (), (lines.filterMap ReportLine.parse?).foldl ReportState.accept state), s') := by
  induction h generalizing fuel state with
  | flush h =>
    obtain ⟨fuel, rfl⟩ := Nat.exists_eq_add_of_lt hfuel
    rw [readRefReports, h]
    rfl
  | @line s s₁ s' line lines h _ ih =>
    cases fuel with
    | zero => cases hfuel
    | succ fuel =>
      obtain ⟨l, hl⟩ := Option.isSome_iff_exists.mp (hlines line (List.mem_cons_self ..))
      rw [readRefReports, h]
      simp only [hl, List.filterMap_cons, List.foldl_cons]
      exact ih (fun line' hline' => hlines line' (List.mem_cons_of_mem line hline'))
        (Nat.lt_of_succ_lt_succ hfuel) _

/-- A report that is read without a fault is lines on refs up to a flush packet. -/
theorem linesTo_of_readRefReports [BoundedSource σ] {fuel : Nat}
    (hfuel : ByteSource.bound s < fuel) {state state' : ReportState}
    (h : readRefReports fuel state s = ((.ok (), state'), s'))
    (hclean : state'.outcome.errors = []) :
    state.outcome.errors = [] ∧ ∃ lines, LinesTo s lines s' ∧
      ∀ line ∈ lines, (ReportLine.parse? line).isSome = true := by
  -- The fuel stays above the bound, so reading does not end for want of it.
  induction fuel generalizing state s with
  | zero => cases hfuel
  | succ fuel ih =>
    rw [readRefReports] at h
    split at h
    · cases h
    · next hread =>
      cases h
      exact ⟨hclean, [], .flush hread, by simp⟩
    · next line s₁ hread =>
      split at h
      · next l hl =>
        have hlt := Packet.bound_readLine_lt hread
        obtain ⟨herrors, lines, hrest, hlines⟩ := ih (by omega) h
        rw [ReportState.errors_accept] at herrors
        refine ⟨herrors, line :: lines, .line hread hrest, ?_⟩
        rintro line' (_ | ⟨_, hline'⟩)
        · rw [hl, Option.isSome_some]
        · exact hlines line' hline'
      · cases h
        simp [PushOutcome.fail] at hclean

/-- A report is read without a fault if it is a good line on the pack and lines on refs up to a
flush packet; these are then all taken in. -/
theorem readReport_spec [BoundedSource σ] {refs : List Ref} {outcome : PushOutcome}
    (hnone : outcome.errors = []) {state : ReportState}
    (h : readReport refs outcome s = ((.ok (), state), s')) :
    (state.outcome.errors = [] ↔ ∃ lines, FlushedLines s (bytesOf "unpack ok" :: lines) ∧
      ∀ line ∈ lines, (ReportLine.parse? line).isSome = true) ∧
    ∀ lines, FlushedLines s (bytesOf "unpack ok" :: lines) →
      (∀ line ∈ lines, (ReportLine.parse? line).isSome = true) →
      state = (lines.filterMap ReportLine.parse?).foldl ReportState.accept { refs, outcome } := by
  have hcomplete (lines : List Bytes) (hto : FlushedLines s (bytesOf "unpack ok" :: lines))
      (hlines : ∀ line ∈ lines, (ReportLine.parse? line).isSome = true) :
      state = (lines.filterMap ReportLine.parse?).foldl ReportState.accept { refs, outcome } := by
    obtain ⟨_, _ | ⟨hread, hrest⟩⟩ := hto
    have hdetail : (some (bytesOf "unpack ok")).bind (Text.after? (bytesOf "unpack ")) =
        some (bytesOf "ok") := rfl
    have hrefs := readRefReports_of_linesTo hrest hlines (Nat.lt_succ_of_le hrest.length_le)
      { refs, outcome }
    rw [readReport, hread] at h
    simp only [hdetail, ite_true, hrefs] at h
    cases h
    rfl
  refine ⟨⟨fun hclean => ?_, ?_⟩, hcomplete⟩
  · rw [readReport] at h
    split at h
    · cases h
    · next line? s₁ hread =>
      split at h
      · cases h
        simp [PushOutcome.fail] at hclean
      · next detail hdetail =>
        obtain ⟨herrors, lines, hrest, hlines⟩ :=
          linesTo_of_readRefReports (Nat.lt_succ_self _) h hclean
        by_cases hok : detail = bytesOf "ok"
        · obtain ⟨line, rfl, hline⟩ := Option.bind_eq_some_iff.mp hdetail
          have hunpack : line = bytesOf "unpack ok" := by
            rw [after?_eq_some.mp hline, hok]
            rfl
          exact ⟨lines, ⟨s', .line (hunpack ▸ hread) hrest⟩, hlines⟩
        · simp [hok, PushOutcome.fail] at herrors
  · rintro ⟨lines, hto, hlines⟩
    rw [hcomplete lines hto hlines, ReportState.errors_foldl_accept, hnone]

end

end GitRemote
