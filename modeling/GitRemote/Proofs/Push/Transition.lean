import GitRemote.Proofs.Push.Failure
import GitRemote.Proofs.Push.Reading
import Mathlib.Data.List.Forall2

/-!
# How statuses move

A ref moves from no decision to a rejection, to the end or to an expected report when the commands are
written, and from there only by a line of the report that is on it, wherever reading the report ends. A
ref that is passed over keeps its status and has no command.
-/

namespace GitRemote

/-- Taking in a line changes at most one ref, which the line is on and a report is expected on. -/
theorem ReportState.refs_accept_cases (s : ReportState) (line : ReportLine) :
    (s.accept line).refs = s.refs ∨ ∃ i r, s.refs[i]? = some r ∧ r.name = line.name ∧
      r.status = .expectingReport ∧ (s.accept line).refs = s.refs.set i (r.report line) := by
  rw [accept]
  split
  · exact .inl rfl
  · next i hfind =>
    obtain ⟨r, hr, hname⟩ := findRefHinted_eq_some hfind
    simp only [hr]
    split
    · next hstatus => exact .inr ⟨i, r, hr, hname, hstatus, rfl⟩
    · exact .inl rfl

/-- A relation between two lists is kept where what replaces a member stands for the same as it. -/
theorem forall₂_set {α β : Type} {R : α → β → Prop} {as : List α} {bs : List β} {i : Nat} {b b' : β}
    (h : List.Forall₂ R as bs) (hb : bs[i]? = some b) (hstep : ∀ a, R a b → R a b') :
    List.Forall₂ R as (bs.set i b') := by
  induction h generalizing i with
  | nil => cases hb
  | @cons x y xs ys hxy hrest ih =>
    cases i with
    | zero =>
      obtain rfl : y = b := Option.some.inj hb
      exact .cons (hstep x hxy) hrest
    | succ i => exact .cons hxy (ih hb)

/-! ### The moves of a ref -/

/-- How a push may leave a ref that nothing is decided on yet: a deletion is rejected if the server
cannot carry it out, an update is at its end at once if the server does not report or nothing is sent,
and otherwise a report is expected, and decides it if it has a line on the ref. Any other ref, and one
that is passed over, stays. -/
inductive Ref.Moves (caps : Capabilities) (args : PushArgs) (reports : Bool → String → Prop)
    (r : Ref) : Ref → Prop
  | stays : Moves caps args reports r r
  | undeletable (h : r.status = .undecided) (htakes : ¬ r.PassedOver args)
      (hdel : r.deletion = true) (hno : caps.has "delete-refs" = false) :
      Moves caps args reports r { r with status := .noDelete }
  | done (h : r.status = .undecided) (htakes : ¬ r.PassedOver args)
      (hquiet : caps.has "report-status" = false ∨ args.dryRun = true) :
      Moves caps args reports r { r with status := .done }
  | expected (h : r.status = .undecided) (htakes : ¬ r.PassedOver args)
      (hreport : caps.has "report-status" = true) (hsent : args.dryRun = false) :
      Moves caps args reports r { r with status := .expectingReport }
  | reported (h : r.status = .undecided) (htakes : ¬ r.PassedOver args)
      (hreport : caps.has "report-status" = true) (hsent : args.dryRun = false) {ok : Bool}
      {remark : Option String} (hline : reports ok r.name) :
      Moves caps args reports r
        { r with status := if ok then .done else .remoteReject, remoteStatus := remark }

/-- The statuses that a ref may have before a push. -/
def RefStatus.IsInitial (s : RefStatus) : Prop :=
  s = .undecided ∨ s = .upToDate ∨ s = .nonFastForward

instance (s : RefStatus) : Decidable s.IsInitial := inferInstanceAs (Decidable (_ ∨ _ ∨ _))

section

variable {caps : Capabilities} {args : PushArgs} {reports : Bool → String → Prop} {r r' : Ref}

/-- A ref that is not passed over is one that nothing is decided on. -/
theorem Ref.undecided_of_not_passedOver (hstatus : r.status.IsInitial) (h : ¬ r.PassedOver args) :
    r.status = .undecided := by
  simp only [PassedOver, not_or] at h
  exact hstatus.resolve_right fun hs => hs.elim h.1 h.2.1

/-- Writing a command is a move. -/
theorem Ref.moves_commanded (hstatus : r.status.IsInitial) :
    r.Moves caps args reports (r.commanded (.of caps args) args) := by
  rw [commanded]
  split
  · exact .stays
  · next he =>
    obtain ⟨htakes, hdel, hno⟩ := eligibility_eq_undeletable.mp he
    exact .undeletable (undecided_of_not_passedOver hstatus htakes) htakes hdel hno
  · next he =>
    obtain ⟨htakes, -⟩ := eligibility_eq_eligible.mp he
    have h := undecided_of_not_passedOver hstatus htakes
    cases hreport : (Agreement.of caps args).statusReport with
    | false => exact .done h htakes (.inl hreport)
    | true =>
      cases hdry : args.dryRun with
      | true => exact .done h htakes (.inr hdry)
      | false => exact .expected h htakes hreport hdry

/-- A line on a ref that a report is expected on moves it to its end. -/
theorem Ref.Moves.report (h : r.Moves caps args reports r') (hstatus : r.status.IsInitial)
    (hexpecting : r'.status = .expectingReport) {line : ReportLine} (hname : r'.name = line.name)
    (hline : reports line.ok line.name) : r.Moves caps args reports (r'.report line) := by
  cases h with
  | stays =>
    rcases hstatus with h | h | h <;> rw [h] at hexpecting <;> cases hexpecting
  | undeletable => cases hexpecting
  | done => cases hexpecting
  | expected h htakes hreport hsent =>
    have hname : r.name = line.name := hname
    exact .reported h htakes hreport hsent (hname ▸ hline)
  | @reported _ _ _ _ ok =>
    cases ok <;> cases hexpecting

/-- A ref that is passed over stays. -/
theorem Ref.Moves.eq_of_passedOver (h : r.Moves caps args reports r') (hover : r.PassedOver args) :
    r' = r := by
  cases h with
  | stays => rfl
  | undeletable _ htakes | done _ htakes | expected _ htakes | reported _ htakes =>
    exact absurd hover htakes

end

/-! ### The refs of a push -/

/-- Writing the commands leaves a ref as it is or gives it the status of its command, also where a
command is too long. -/
theorem forall₂_writeCommands {a : Agreement} {args : PushArgs} {sent : Bool} {refs : List Ref} :
    List.Forall₂ (fun r r' => r' = r ∨ r' = r.commanded a args) refs
      (writeCommands a args sent refs).refs := by
  induction refs generalizing sent with
  | nil => exact .nil
  | cons r refs ih =>
    rw [writeCommands]
    cases he : r.eligibility args.mirror a.allowDelete with
    | passedOver => exact .cons (.inl rfl) ih
    | undeletable => exact .cons (.inr (by rw [Ref.commanded, he])) ih
    | eligible =>
      cases hdry : args.dryRun with
      | true => exact .cons (.inr (by simp [Ref.commanded, he, hdry])) ih
      | false =>
        cases hline : Packet.frameLine? (commandLine a sent r) with
        | error e => exact List.forall₂_same.mpr fun _ _ => .inl rfl
        | ok line => exact .cons (.inr (by simp [Ref.commanded, he, hdry])) ih

section

variable {input : Bytes} {server : Advertisement} {refs : List Ref} {args : PushArgs}
variable {source : ObjectSource} {produce : PackProducer}

/-- A push with a command that is too long leaves the refs as writing the commands does. -/
theorem refs_sendPush_of_not_fit
    (hfit : ¬ CommandsFit (.of server.capabilities args) args false refs) :
    (sendPush input server refs args source produce).refs =
      (writeCommands (.of server.capabilities args) args false refs).refs := by
  cases herror : (writeCommands (.of server.capabilities args) args false refs).error with
  | none => exact absurd (error_writeCommands_iff.mp herror) hfit
  | some e =>
    rw [sendPush]
    split
    · next hempty =>
      rw [List.isEmpty_iff] at hempty
      subst hempty
      rfl
    · simp only [herror]

/-- Unless its pack fails, a push leaves the refs with the statuses of their commands, or as a report
that is read with these leaves them. -/
theorem refs_sendPush_of_fit (input : Bytes)
    (hfit : CommandsFit (.of server.capabilities args) args false refs)
    (hpack : ∀ e, ¬ PackFails server refs args source produce e) :
    (sendPush input server refs args source produce).refs =
        refs.map (·.commanded (.of server.capabilities args) args) ∨
      ∃ first, (sendPush input server refs args source produce).refs =
        (readAgreedReport (.of server.capabilities args)
          (refs.map (·.commanded (.of server.capabilities args) args)) first input).1.2.refs := by
  have herror : (packStep server refs args source produce).error = none :=
    Option.eq_none_iff_forall_ne_some.mpr fun e h => hpack e ((error_packStep hfit).mp h)
  have hrefs := (refs_buildPack herror).trans (refs_writeCommands hfit)
  have hcommands : (writeCommands (.of server.capabilities args) args false refs).error = none :=
    error_writeCommands_iff.mpr hfit
  rw [packStep, PushArgs.forPack] at herror
  rw [PushArgs.forPack] at hrefs
  rw [sendPush]
  split
  · next hempty =>
    rw [List.isEmpty_iff] at hempty
    subst hempty
    exact .inl rfl
  · simp only [hcommands, frameCommands_eq, herror, hrefs]
    split
    · split <;> next hread => exact .inr ⟨_, by rw [hread]⟩
    · exact .inl rfl

/-- Between the refs before and behind a push there holds what a command establishes and a line of the
report preserves, unless a command is too long or the pack fails. -/
theorem forall₂_sendPush {R : Ref → Ref → Prop}
    (hfit : CommandsFit (.of server.capabilities args) args false refs)
    (hpack : ∀ e, ¬ PackFails server refs args source produce e)
    (hcommanded : ∀ r ∈ refs, R r (r.commanded (.of server.capabilities args) args))
    (hreport : ∀ (r r' : Ref) (line : ReportLine), R r r' → r'.status = .expectingReport →
      r'.name = line.name →
      AnswerReports (server.capabilities.has "side-band-64k") input line.ok line.name →
      R r (r'.report line)) :
    List.Forall₂ R refs (sendPush input server refs args source produce).refs := by
  have h : List.Forall₂ R refs (refs.map (·.commanded (.of server.capabilities args) args)) :=
    List.forall₂_map_right_iff.mpr (List.forall₂_same.mpr hcommanded)
  rcases refs_sendPush_of_fit input hfit hpack with hrefs | ⟨first, hrefs⟩
  · rw [hrefs]
    exact h
  · rw [hrefs]
    have hpres : ReportState.Preserved
        (AnswerReports (Agreement.of server.capabilities args).sideband input)
        fun state => List.Forall₂ R refs state.refs := by
      refine ⟨fun state line hline hheld => ?_, fun _ _ _ hheld => hheld⟩
      rcases state.refs_accept_cases line with hsame | ⟨i, r', hr', hname, hexpecting, hset⟩
      · rw [hsame]
        exact hheld
      · rw [hset]
        exact forall₂_set hheld hr' fun r hr => hreport r r' line hr hexpecting hname hline
    exact holds_readAgreedReport hpres h

/-- Every ref of a push moves, whatever the server answers, unless the pack fails. -/
theorem forall₂_sendPush_moves (hstatus : ∀ r ∈ refs, r.status.IsInitial)
    (hpack : ∀ e, ¬ PackFails server refs args source produce e) :
    List.Forall₂ (fun r r' => r.Moves server.capabilities args
        (AnswerReports (server.capabilities.has "side-band-64k") input) r') refs
      (sendPush input server refs args source produce).refs := by
  by_cases hfit : CommandsFit (.of server.capabilities args) args false refs
  · -- The status before the push goes with the move: a line moves a ref only behind its command.
    have h : List.Forall₂ (fun r r' => r.status.IsInitial ∧ r.Moves server.capabilities args
        (AnswerReports (server.capabilities.has "side-band-64k") input) r') refs
        (sendPush input server refs args source produce).refs :=
      forall₂_sendPush hfit hpack
        (fun r hr => ⟨hstatus r hr, Ref.moves_commanded (hstatus r hr)⟩)
        (fun r r' line h hexpecting hname hline => ⟨h.1, h.2.report h.1 hexpecting hname hline⟩)
    exact h.imp fun r r' h => h.2
  · rw [refs_sendPush_of_not_fit hfit]
    refine ((List.forall₂_and_left _ _).mpr ⟨hstatus, forall₂_writeCommands⟩).imp ?_
    rintro r r' ⟨hr, rfl | rfl⟩
    · exact .stays
    · exact Ref.moves_commanded hr

/-- Unless the pack fails, the statuses of a push only move forward, whatever the server answers and
wherever reading its report ends. Refs that are passed over stay, and the commands that the server
reads are those of some of the other refs. -/
theorem statuses_move_forward (hstatus : ∀ r ∈ refs, r.status.IsInitial)
    (hpack : ∀ e, ¬ PackFails server refs args source produce e) :
    List.Forall₂ (fun r r' => r.Moves server.capabilities args
        (AnswerReports (server.capabilities.has "side-band-64k") input) r' ∧
        (r.PassedOver args → r' = r)) refs
      (sendPush input server refs args source produce).refs ∧
    ∃ sent, sent.Sublist refs ∧ (∀ r ∈ sent, ¬ r.PassedOver args) ∧
      commandsOut args (sendPush input server refs args source produce).written =
        requestLines (.of server.capabilities args) false sent := by
  refine ⟨(forall₂_sendPush_moves hstatus hpack).imp fun r r' h => ⟨h, h.eq_of_passedOver⟩, ?_⟩
  rw [commandsOut_sendPush]
  split
  · refine ⟨_, sentRefs_sublist, fun r hr => ?_, rfl⟩
    obtain ⟨-, -, he⟩ := mem_sentRefs.mp hr
    exact (Ref.eligibility_eq_eligible.mp he).1
  · exact ⟨[], List.nil_sublist _, by simp, rfl⟩

end

/-- The branches `a` and `d` are moved, `b` is at its new value already, and `c` is deleted. -/
def moveAll : List Ref :=
  moveOne ++ [({ name := "c", oldId := uniformId 4 } : Ref).withUpdate "(delete)" .null,
    ({ name := "d", oldId := uniformId 5 } : Ref).withUpdate "d" (uniformId 6)]

/-- A report that breaks off behind the line on `a`. -/
def brokenReport : Bytes := packets [bytesOf "unpack ok\n", bytesOf "ok a\n"] ++ bytesOf "000"

/-- Where the report breaks off, the branch it has a line on is done, and a report is still expected on
the other one; a server without the capability rejects the deletion. -/
theorem statuses_move_forward_broken :
    (∀ r ∈ moveAll, r.status.IsInitial) ∧
    (∀ e, ¬ PackFails reportingServer moveAll {} emptySource (.ofPack [] (.ok ())) e) ∧
    (sendPush brokenReport reportingServer moveAll {} emptySource (.ofPack [] (.ok ()))).refs.map
      Ref.status = [.done, .upToDate, .noDelete, .expectingReport] ∧
    (sendPush brokenReport reportingServer moveAll {} emptySource
      (.ofPack [] (.ok ()))).result.isOk = false ∧
    List.Forall₂ (fun r r' => r.Moves reportingServer.capabilities {}
        (AnswerReports false brokenReport) r' ∧ (r.PassedOver {} → r' = r)) moveAll
      (sendPush brokenReport reportingServer moveAll {} emptySource (.ofPack [] (.ok ()))).refs := by
  have hstatus : ∀ r ∈ moveAll, r.status.IsInitial := by decide +kernel
  have hfit : CommandsFit (.of reportingServer.capabilities {}) {} false moveAll := by decide +kernel
  have hstep : (packStep reportingServer moveAll {} emptySource (.ofPack [] (.ok ()))).error = none :=
    rfl
  have hpack : ∀ e, ¬ PackFails reportingServer moveAll {} emptySource (.ofPack [] (.ok ())) e := by
    intro e h
    have hfails := (error_packStep hfit).mpr h
    rw [hstep] at hfails
    cases hfails
  exact ⟨hstatus, hpack, by decide +kernel, by decide +kernel,
    (statuses_move_forward hstatus hpack).1⟩

end GitRemote
