import GitRemote.Proofs.Push.Report
import GitRemote.Proofs.Wire.Lengthened
import GitRemote.Push.Send

/-!
# What reading a report preserves

A report may end anywhere, be it in the middle of a line. What every line that it has on a ref
preserves, and a change of the outcome too, holds wherever reading it ends. A report that was read to
its end reads the same with more behind it.
-/

namespace GitRemote

/-! ### Lines that were read -/

section

variable {σ : Type} [ByteSource σ]

/-- These lines are read from a source one after another, and leave what it becomes. -/
inductive LinesFrom (s : σ) : List Bytes → σ → Prop
  | nil : LinesFrom s [] s
  | snoc {lines : List Bytes} {line : Bytes} {s₁ s' : σ} (hlines : LinesFrom s lines s₁)
      (h : Packet.readLine s₁ = (.ok (some line), s')) : LinesFrom s (lines ++ [line]) s'

/-- The report at the front of a source has a line on a name, behind a line on the pack and lines on
refs. -/
def Reports (s : σ) (ok : Bool) (name : String) : Prop :=
  ∃ detail before line s', LinesFrom s ((bytesOf "unpack " ++ detail) :: before ++ [line]) s' ∧
    (∀ l ∈ before, (ReportLine.parse? l).isSome = true) ∧ LineOn ok name line

end

/-- The report in a server's answer has a line on a name; it is taken out of side bands if these were
agreed on. -/
def AnswerReports (sideband : Bool) (input : Bytes) (ok : Bool) (name : String) : Prop :=
  if sideband then Reports ({ rest := input } : Demux) ok name else Reports input ok name

/-- The name that a line is read as being on has no blanks. -/
theorem ReportLine.blank_not_mem_name {line : Bytes} {l : ReportLine} (h : parse? line = some l) :
    ' ' ∉ l.name.toList := by
  obtain ⟨rest, -, hl⟩ := parse?_eq_some.mp h
  rw [hl, ofText]
  split
  · next hcut => exact (cutAt?_eq_some.mp hcut).1
  · next hcut => exact cutAt?_eq_none.mp hcut

/-- What was parsed as a line is one about its name. -/
theorem lineOn_of_parse? {line : Bytes} {l : ReportLine} (h : ReportLine.parse? line = some l) :
    LineOn l.ok l.name line :=
  (lineOn_iff (ReportLine.blank_not_mem_name h)).mpr ⟨l, h, rfl, rfl⟩

/-! ### Invariants -/

/-- A property is preserved while a report with certain lines is read: each line that the report has
preserves it, and so does a change of the outcome, in which commands stay sent or not. -/
structure ReportState.Preserved (reports : Bool → String → Prop) (holds : ReportState → Prop) :
    Prop where
  accept : ∀ (state : ReportState) (l : ReportLine), reports l.ok l.name → holds state →
    holds (state.accept l)
  outcome : ∀ (state : ReportState) (o : PushOutcome), o.commandsSent = state.outcome.commandsSent →
    holds state → holds { state with outcome := o }

section

variable {σ : Type} [ByteSource σ] {s s₁ : σ} {holds : ReportState → Prop}

/-- What is preserved holds after the lines on refs, wherever reading them ends. -/
theorem holds_readRefReports (hpres : ReportState.Preserved (Reports s) holds) {detail : Bytes}
    {before : List Bytes} (hlines : LinesFrom s ((bytesOf "unpack " ++ detail) :: before) s₁)
    (hbefore : ∀ l ∈ before, (ReportLine.parse? l).isSome = true) {fuel : Nat} {state : ReportState}
    (h : holds state) : holds (readRefReports fuel state s₁).1.2 := by
  induction fuel generalizing state s₁ before with
  | zero => exact h
  | succ fuel ih =>
    rw [readRefReports]
    split
    · exact h
    · exact h
    · next line s₂ hread =>
      split
      · next l hl =>
        have hmore := LinesFrom.snoc hlines hread
        have hline : Reports s l.ok l.name :=
          ⟨detail, before, line, s₂, hmore, hbefore, lineOn_of_parse? hl⟩
        refine ih hmore ?_ (hpres.accept state l hline h)
        intro l' hl'
        rcases List.mem_append.mp hl' with hl' | hl'
        · exact hbefore l' hl'
        · rw [List.mem_singleton.mp hl', hl, Option.isSome_some]
      · exact hpres.outcome state (state.outcome.fail _) rfl h

/-- What is preserved holds after a report, wherever reading it ends. -/
theorem holds_readReport (hpres : ReportState.Preserved (Reports s) holds) {refs : List Ref}
    {outcome : PushOutcome} (h : holds { refs, outcome }) : holds (readReport refs outcome s).1.2 := by
  rw [readReport]
  split
  · exact h
  · next line? s₁ hread =>
    split
    · exact hpres.outcome { refs, outcome } (outcome.fail .noStatus) rfl h
    · next detail hdetail =>
      obtain ⟨line, rfl, hline⟩ := Option.bind_eq_some_iff.mp hdetail
      have hfirst : LinesFrom s ([] ++ [bytesOf "unpack " ++ detail]) s₁ :=
        .snoc .nil (after?_eq_some.mp hline ▸ hread)
      refine holds_readRefReports hpres hfirst (by simp) ?_
      split
      · exact h
      · refine hpres.outcome { refs, outcome } _ ?_ h
        rfl

end

/-- What is preserved holds after the report in an answer, wherever reading it ends. -/
theorem holds_readAgreedReport {holds : ReportState → Prop} {a : Agreement} {input : Bytes}
    (hpres : ReportState.Preserved (AnswerReports a.sideband input) holds) {refs : List Ref}
    {outcome : PushOutcome} (h : holds { refs, outcome }) :
    holds (readAgreedReport a refs outcome input).1.2 := by
  rw [readAgreedReport]
  cases hband : a.sideband with
  | true =>
    have hreports : AnswerReports a.sideband input = Reports ({ rest := input } : Demux) := by
      funext ok name
      rw [AnswerReports, hband, if_pos rfl]
    exact holds_readReport (hreports ▸ hpres) h
  | false =>
    have hreports : AnswerReports a.sideband input = Reports input := by
      funext ok name
      rw [AnswerReports, hband]
      exact if_neg Bool.false_ne_true
    exact holds_readReport (hreports ▸ hpres) h

/-- A line of the report does not change whether commands were sent. -/
theorem ReportState.commandsSent_accept (s : ReportState) (line : ReportLine) :
    (s.accept line).outcome.commandsSent = s.outcome.commandsSent := by
  rw [accept]
  split
  · rfl
  · split
    · rfl
    · split <;> rfl

/-- A report does not change whether commands were sent. -/
theorem commandsSent_readAgreedReport (a : Agreement) (refs : List Ref) (outcome : PushOutcome)
    (input : Bytes) :
    (readAgreedReport a refs outcome input).1.2.outcome.commandsSent = outcome.commandsSent :=
  holds_readAgreedReport
    { accept := fun state l _ h => (state.commandsSent_accept l).trans h
      outcome := fun _ _ ho h => ho.trans h } rfl

/-! ### More behind a report -/

namespace Lengthens

variable {σ : Type} [ByteSource σ] {grow : σ → σ} {s s' : σ}

/-- Lines on refs that were read are read with more behind them too. -/
theorem readRefReports [BoundedSource σ] (hgrow : Lengthens grow) {fuel fuel' : Nat}
    {state state' : ReportState} (hfuel : ByteSource.bound s < fuel)
    (hfuel' : ByteSource.bound s < fuel')
    (h : GitRemote.readRefReports fuel state s = ((.ok (), state'), s')) :
    GitRemote.readRefReports fuel' state (grow s) = ((.ok (), state'), grow s') := by
  induction fuel generalizing fuel' s state with
  | zero => cases hfuel
  | succ fuel ih =>
    obtain ⟨fuel', rfl⟩ := Nat.exists_eq_add_of_lt hfuel'
    rw [GitRemote.readRefReports] at h ⊢
    split at h
    · cases h
    · next hread =>
      cases h
      rw [hgrow.readLine hread]
    · next line s₁ hread =>
      have hlt := Packet.bound_readLine_lt hread
      simp only [hgrow.readLine hread]
      split at h
      · next l hl => exact ih (by omega) (by omega) h
      · cases h
        rfl

/-- A report that was read is read with more behind it too. -/
theorem readReport [BoundedSource σ] (hgrow : Lengthens grow) {refs : List Ref}
    {outcome : PushOutcome} {state : ReportState}
    (h : GitRemote.readReport refs outcome s = ((.ok (), state), s')) :
    GitRemote.readReport refs outcome (grow s) = ((.ok (), state), grow s') := by
  rw [GitRemote.readReport] at h ⊢
  split at h
  · cases h
  · next line? s₁ hread =>
    simp only [hgrow.readLine hread]
    split at h
    · cases h
      rfl
    · next detail hdetail =>
      have hbound := hgrow.bound_le s₁
      exact hgrow.readRefReports (Nat.lt_succ_self _) (by omega) h

end Lengthens

/-- A report that was read is read with more of the server's answer behind it too. -/
theorem readAgreedReport_append_of_ok {a : Agreement} {refs : List Ref} {outcome : PushOutcome}
    {input rest : Bytes} {state : ReportState}
    (h : readAgreedReport a refs outcome input = ((.ok (), state), rest)) (more : Bytes) :
    readAgreedReport a refs outcome (input ++ more) = ((.ok (), state), rest ++ more) := by
  rw [readAgreedReport] at h ⊢
  cases hband : a.sideband with
  | true =>
    rw [hband] at h
    rcases hr : readReport refs outcome ({ rest := input } : Demux) with ⟨r, d⟩
    rw [if_pos rfl, hr] at h
    cases h
    have hmore : readReport refs outcome ({ rest := input ++ more } : Demux) =
        ((.ok (), state), d.grow more) := (Demux.lengthens_grow more).readReport hr
    rw [if_pos rfl, hmore]
    rfl
  | false =>
    rw [hband] at h
    exact (lengthens_append more).readReport h

end GitRemote
