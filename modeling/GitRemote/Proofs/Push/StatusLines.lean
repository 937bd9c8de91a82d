import GitRemote.Proofs.Push.History
import GitRemote.Proofs.Push.Transition
import GitRemote.Proofs.Text.Lines

/-!
# Status lines

The status lines of a push that ended well account for the targets of its refspecs: there is one line
for each, in the order of the refs and with the word for how the push left the ref. The refs that a
report is still expected on are left out, so the caller hears nothing of them.
-/

namespace GitRemote

/-- The first word of a status line: whether the remote has the new value. -/
def RefStatus.word (s : RefStatus) : String :=
  if s = .done ∨ s = .upToDate then "ok" else "error"

namespace Ref

/-- A status line on a ref: the word for its status, its name, and perhaps a remark. -/
def HasLine (r : Ref) (line : String) : Prop :=
  ∃ remark : Option String,
    line = r.status.word ++ " " ++ r.name ++ remark.elim "" fun m => " " ++ Text.quoteMessage m

/-- Whether a ref takes part in a push. -/
def isRequested (r : Ref) : Bool := r.peer.isSome

/-- Whether it is known how the push left a ref that takes part in it. -/
def isSettled (r : Ref) : Bool := r.isRequested && r.status != .expectingReport

/-- A ref that is not settled has no line. -/
theorem statusLine?_of_not_settled {r : Ref} (h : r.isSettled = false) : r.statusLine? = none := by
  rw [statusLine?]
  cases hpeer : r.peer with
  | none => rfl
  | some peer =>
    rw [isSettled, isRequested, hpeer, Option.isSome_some, Bool.true_and, bne_eq_false_iff_eq] at h
    rw [h]
    rfl

/-- A ref that is settled has a line, and of the form that its status asks for. -/
theorem hasLine_of_settled {r : Ref} (h : r.isSettled = true) :
    ∃ line, r.statusLine? = some line ∧ r.HasLine line := by
  rw [isSettled, isRequested, Bool.and_eq_true, bne_iff_ne, Option.isSome_iff_exists] at h
  obtain ⟨⟨peer, hpeer⟩, hstatus⟩ := h
  have hverdict : ∃ message, r.status.verdict? = some (r.status.word, message) := by
    cases hs : r.status with
    | expectingReport => exact absurd hs hstatus
    | _ => exact ⟨_, rfl⟩
  obtain ⟨message, hverdict⟩ := hverdict
  rw [statusLine?, hpeer, hverdict]
  dsimp only
  cases r.remoteStatus <|> message with
  | none => exact ⟨_, rfl, none, by simp⟩
  | some m => exact ⟨_, rfl, some m, by simp [String.append_assoc]⟩

/-- A status line is one line where the name of the ref is. -/
theorem HasLine.lineFeed_not_mem {r : Ref} {line : String} (h : r.HasLine line)
    (hname : '\n' ∉ r.name.toList) : '\n' ∉ line.toList := by
  obtain ⟨remark, rfl⟩ := h
  have hword : '\n' ∉ r.status.word.toList := by
    rw [RefStatus.word]
    split <;> decide
  have hremark : '\n' ∉ (remark.elim "" fun m => " " ++ Text.quoteMessage m).toList := by
    cases remark with
    | none => decide
    | some m =>
      rw [Option.elim_some, String.toList_append, List.mem_append, not_or]
      exact ⟨by decide, lineFeed_not_mem_quoteMessage m⟩
  simp only [String.toList_append, List.mem_append, not_or]
  exact ⟨⟨⟨hword, by decide⟩, hname⟩, hremark⟩

end Ref

/-- The refs of a push that it is settled on have a line each, in their order, and the others have
none. -/
theorem forall₂_statusLines (refs : List Ref) :
    List.Forall₂ Ref.HasLine (refs.filter Ref.isSettled) (refs.filterMap Ref.statusLine?) := by
  induction refs with
  | nil => exact .nil
  | cons r refs ih =>
    cases hsettled : r.isSettled with
    | false =>
      rw [List.filter_cons_of_neg (by simp [hsettled]),
        List.filterMap_cons_none (Ref.statusLine?_of_not_settled hsettled)]
      exact ih
    | true =>
      obtain ⟨line, hline, hhas⟩ := Ref.hasLine_of_settled hsettled
      rw [List.filter_cons_of_pos hsettled, List.filterMap_cons_some hline]
      exact .cons hhas ih

/-- The lines on refs are one line each where the names are. -/
theorem lineFeed_not_mem_of_forall₂ {refs : List Ref} {lines : List String}
    (h : List.Forall₂ Ref.HasLine refs lines) (hnames : ∀ r ∈ refs, '\n' ∉ r.name.toList) :
    ∀ line ∈ lines, '\n' ∉ line.toList := by
  induction h with
  | nil => simp
  | cons hhas _ ih =>
    rw [List.forall_mem_cons] at hnames ⊢
    exact ⟨hhas.lineFeed_not_mem hnames.1, ih hnames.2⟩

/-! ### The refs that take part -/

namespace LocalRepository

variable {repo : LocalRepository} {remote refs refs' : List Ref} {specs : List Refspec}
  {spec : Refspec}

/-- Checking an update leaves a status that a push may start with. -/
theorem isInitial_annotate {force : Bool} {r r' : Ref} (h : repo.annotate force r = .ok r')
    (hr : r.status.IsInitial) : r'.status.IsInitial := by
  rw [annotate] at h
  split at h
  · cases h
    exact hr
  · split at h
    · cases h
      exact .inr (.inl rfl)
    · split at h
      · cases h
        exact hr
      · split at h
        · cases h
        · cases h
          dsimp only
          split
          · exact hr
          · exact .inr (.inr rfl)

/-- Matching a refspec leaves only statuses that a push may start with. -/
theorem isInitial_matchOne (h : repo.matchOne refs spec = .ok refs')
    (hrefs : ∀ r ∈ refs, r.status.IsInitial) : ∀ r ∈ refs', r.status.IsInitial := by
  rw [matchOne] at h
  split at h
  · cases h
  split at h
  · cases h
  next refs₁ i hplace =>
    have hplaced : ∀ r ∈ refs₁, r.status.IsInitial := by
      obtain ⟨-, rfl | ⟨-, rfl⟩⟩ := place_eq_ok hplace
      · exact hrefs
      · intro r hr
        rcases List.mem_append.mp hr with hr | hr
        · exact hrefs r hr
        · rw [List.mem_singleton.mp hr]
          exact .inl rfl
    split at h
    · cases h
      exact hplaced
    next r hr =>
      split at h
      · cases h
      cases hannotate : repo.annotate spec.force (r.withUpdate _ _) with
      | error e =>
        rw [hannotate] at h
        cases h
      | ok r' =>
        rw [hannotate] at h
        cases h
        intro q hq
        rcases List.mem_or_eq_of_mem_set hq with hq | rfl
        · exact hplaced q hq
        · exact isInitial_annotate hannotate (hplaced r (List.mem_of_getElem? hr))

/-- Matching decides at most that a ref is up to date or would lose history. -/
theorem isInitial_matchPush (h : repo.matchPush remote specs = .ok refs) :
    ∀ r ∈ refs, r.status.IsInitial := by
  refine matchPush_induction (motive := fun _ refs => ∀ r ∈ refs, r.status.IsInitial) (fun r hr => ?_)
    (fun _ _ _ _ hbefore hone => isInitial_matchOne hone hbefore) h
  obtain ⟨q, -, rfl⟩ := List.mem_map.mp hr
  exact .inl rfl

/-- The refs that take part in a push have different names. -/
theorem Matched.nodup_requested (h : repo.Matched remote specs refs) :
    ((refs.filter Ref.isRequested).map Ref.name).Nodup := by
  rw [List.Nodup, List.pairwise_map, List.pairwise_filter, List.pairwise_iff_getElem]
  intro i j hi hj hij hpeer hpeer' hname
  have hfirst := h.first i _ (List.getElem?_eq_getElem hi) hpeer
  rw [hname, h.first j _ (List.getElem?_eq_getElem hj) hpeer', Option.some.injEq] at hfirst
  omega

/-- No two refspecs of a push have the same target. -/
theorem Matched.nodup_targets (h : repo.Matched remote specs refs) :
    (specs.map Refspec.target).Nodup := by
  rw [List.nodup_iff_count_le_one]
  intro name
  by_cases hname : name ∈ specs.map Refspec.target
  · obtain ⟨spec, hspec, rfl⟩ := List.mem_map.mp hname
    obtain ⟨r, hr, hrname, hpeer⟩ := h.covered spec hspec
    obtain ⟨granting, hgrants⟩ := h.granted r hr hpeer
    have hone := congrArg List.length hgrants.only
    rw [hrname, ← List.countP_eq_length_filter] at hone
    rw [List.count, List.countP_map]
    exact Nat.le_of_eq hone
  · rw [List.count_eq_zero.mpr hname]
    exact Nat.zero_le 1

/-- The refs that take part in a push are the targets of its refspecs. -/
theorem Matched.perm_requested (h : repo.Matched remote specs refs) :
    ((refs.filter Ref.isRequested).map Ref.name).Perm (specs.map Refspec.target) := by
  rw [List.perm_ext_iff_of_nodup h.nodup_requested h.nodup_targets]
  intro name
  rw [List.mem_map, List.mem_map]
  constructor
  · rintro ⟨r, hr, rfl⟩
    obtain ⟨hr, hpeer⟩ := List.mem_filter.mp hr
    obtain ⟨spec, hgrants⟩ := h.granted r hr hpeer
    have hspec : spec ∈ specs.filter (·.target == r.name) := by
      rw [hgrants.only]
      exact List.mem_singleton_self _
    obtain ⟨hspec, htarget⟩ := List.mem_filter.mp hspec
    exact ⟨spec, hspec, beq_iff_eq.mp htarget⟩
  · rintro ⟨spec, hspec, rfl⟩
    obtain ⟨r, hr, hname, hpeer⟩ := h.covered spec hspec
    exact ⟨r, List.mem_filter.mpr ⟨hr, hpeer⟩, hname⟩

end LocalRepository

/-- A push moves statuses only. -/
theorem Ref.Moves.name_peer {caps : Capabilities} {args : PushArgs} {reports : Bool → String → Prop}
    {r r' : Ref} (h : r.Moves caps args reports r') : r'.name = r.name ∧ r'.peer = r.peer := by
  cases h <;> exact ⟨rfl, rfl⟩

/-- What the server's answer has to say for the status of a ref behind a push: a report is still expected
only where one was asked for, and then the ref is done only if the answer has a line that accepts it; it
is refused only if the answer has a line that does. -/
structure Ref.Backed (caps : Capabilities) (args : PushArgs) (reports : Bool → String → Prop) (r : Ref) :
    Prop where
  expecting : r.status = .expectingReport → caps.has "report-status" = true ∧ args.dryRun = false
  accepted : caps.has "report-status" = true → args.dryRun = false → r.status = .done →
    reports true r.name
  refused : r.status = .remoteReject → reports false r.name

/-- A push that starts with refs that nothing was sent of leaves them backed. -/
theorem Ref.Moves.backed {caps : Capabilities} {args : PushArgs} {reports : Bool → String → Prop}
    {r r' : Ref} (h : r.Moves caps args reports r') (hstatus : r.status.IsInitial) :
    r'.Backed caps args reports := by
  cases h with
  | stays =>
    refine ⟨fun hs => ?_, fun _ _ hs => ?_, fun hs => ?_⟩ <;>
      rcases hstatus with h | h | h <;> rw [h] at hs <;> cases hs
  | undeletable => exact ⟨nofun, nofun, nofun⟩
  | done _ _ hquiet =>
    refine ⟨nofun, fun hreport hsent _ => ?_, nofun⟩
    rcases hquiet with hquiet | hquiet
    · rw [hquiet] at hreport
      cases hreport
    · rw [hquiet] at hsent
      cases hsent
  | expected _ _ hreport hsent => exact ⟨fun _ => ⟨hreport, hsent⟩, nofun, nofun⟩
  | @reported _ _ hreport hsent ok _ hline =>
    cases ok with
    | true => exact ⟨nofun, fun _ _ _ => hline, nofun⟩
    | false => exact ⟨nofun, nofun, fun _ => hline⟩

namespace StatelessPush

variable {p : StatelessPush} {repo : LocalRepository} {produce : PackProducer} {input : Bytes}

/-- A push that ends well got as far as sending refs that were matched. -/
theorem exists_send_of_run_isOk (h : (p.run repo produce input).result.isOk = true) :
    ∃ server rest specs refs, Advertisement.read input = (.ok server, rest) ∧
      p.specs.mapM Refspec.parse = .ok specs ∧ repo.matchPush server.refs specs = .ok refs ∧
      ∀ b : Bool, ({ p with helperStatus := b } : StatelessPush).run repo produce input =
        ({ p with helperStatus := b } : StatelessPush).send repo produce server refs rest := by
  rw [run] at h
  split at h
  · cases h
  next specs hspecs =>
    split at h
    · cases h
    next server rest hread =>
      split at h
      · cases h
      next refs hmatch =>
        refine ⟨server, rest, specs, refs, hread, hspecs, hmatch, fun b => ?_⟩
        rw [run]
        simp only [hspecs, hread, hmatch]

/-- What a push that ended well leaves of the refs that were matched: they take part in it as before,
and the server's answer backs their statuses. -/
theorem refs_send_of_ok {server : Advertisement} {rest : Bytes} {specs : List Refspec}
    {refs : List Ref} (hmatch : repo.matchPush server.refs specs = .ok refs)
    (hok : (p.send repo produce server refs rest).result.isOk = true) :
    ((p.send repo produce server refs rest).refs.filter Ref.isRequested).map Ref.name =
        (refs.filter Ref.isRequested).map Ref.name ∧
      ∀ r ∈ (p.send repo produce server refs rest).refs, r.Backed server.capabilities p.args
        (AnswerReports (server.capabilities.has "side-band-64k") rest) := by
  have hstatus := LocalRepository.isInitial_matchPush hmatch
  have hpack (e : WireError) :
      ¬ PackFails server refs { p.args with stateless := true } repo.source produce e := by
    intro hfails
    rw [send, (sendPush_of_packFails rest hfails).1] at hok
    cases hok
  have hmoves : List.Forall₂ (fun r r' => r.status.IsInitial ∧
      r.Moves server.capabilities { p.args with stateless := true }
        (AnswerReports (server.capabilities.has "side-band-64k") rest) r') refs
      (sendPush rest server refs { p.args with stateless := true } repo.source produce).refs :=
    (List.forall₂_and_left _ _).mpr ⟨hstatus, forall₂_sendPush_moves hstatus hpack⟩
  rw [send]
  dsimp only
  generalize (sendPush rest server refs { p.args with stateless := true } repo.source produce).refs =
    refs' at hmoves
  clear hok hmatch hstatus hpack
  induction hmoves with
  | nil => exact ⟨rfl, by simp⟩
  | @cons r r' refs refs' hmove _ ih =>
    obtain ⟨hname, hpeer⟩ := hmove.2.name_peer
    have hbacked := hmove.2.backed hmove.1
    refine ⟨?_, List.forall_mem_cons.mpr
      ⟨⟨hbacked.expecting, hbacked.accepted, hbacked.refused⟩, ih.2⟩⟩
    have hrequested : r'.isRequested = r.isRequested := congrArg Option.isSome hpeer
    rw [List.filter_cons, List.filter_cons, hrequested]
    split
    · rw [List.map_cons, List.map_cons, hname, ih.1]
    · exact ih.1

/-- The status text of a push that ended well accounts for the targets of its refspecs, whatever was
advertised and reported. The refs that take part are the targets, each once, and for each of them that
it is settled on there is one line, in the order of the refs: it starts with `ok` if the update was done
or the ref was up to date, and with `error` otherwise. Other refs have no line. Left out are the refs
that a report is still expected on; where the server reports, an update that its report does not accept
is not done. Where no target holds a line feed, the lines are read back from the text. -/
theorem status_lines_account_for_targets (hhelper : p.helperStatus = true)
    (hok : (p.run repo produce input).result.isOk = true) :
    ∃ server rest specs lines, Advertisement.read input = (.ok server, rest) ∧
      p.specs.mapM Refspec.parse = .ok specs ∧
      (p.run repo produce input).written =
        (({ p with helperStatus := false } : StatelessPush).run repo produce input).written ++
          Utf8.encode (String.join (lines.map (· ++ "\n"))) ∧
      (specs.map Refspec.target).Nodup ∧
      (((p.run repo produce input).refs.filter Ref.isRequested).map Ref.name).Perm
        (specs.map Refspec.target) ∧
      List.Forall₂ Ref.HasLine ((p.run repo produce input).refs.filter Ref.isSettled) lines ∧
      (∀ r ∈ (p.run repo produce input).refs, r.Backed server.capabilities p.args
        (AnswerReports (server.capabilities.has "side-band-64k") rest)) ∧
      ((∀ spec ∈ specs, '\n' ∉ spec.target.toList) →
        Text.fields '\n' (String.join (lines.map (· ++ "\n"))) = lines ++ [""]) := by
  obtain ⟨server, rest, specs, refs, hread, hspecs, hmatch, hrun⟩ := exists_send_of_run_isOk hok
  have hself : ({ p with helperStatus := true } : StatelessPush) = p := by rw [← hhelper]
  have hsend := hrun true
  rw [hself] at hsend
  rw [hsend] at hok ⊢
  rw [hrun false]
  obtain ⟨hnames, hbacked⟩ := refs_send_of_ok hmatch hok
  have hmatched := LocalRepository.matched_of_matchPush hmatch
  have hperm := hmatched.perm_requested
  rw [← hnames] at hperm
  have hlines := forall₂_statusLines (p.send repo produce server refs rest).refs
  refine ⟨server, rest, specs, _, hread, hspecs, ?_, hmatched.nodup_targets, hperm, hlines,
    hbacked, fun htargets => ?_⟩
  · have hended : (sendPush rest server refs { p.args with stateless := true } repo.source
        produce).result.isOk = true := by
      cases hresult : (sendPush rest server refs { p.args with stateless := true } repo.source
          produce).result with
      | ok => rfl
      | error e =>
        rw [send, hresult] at hok
        cases hok
    simp only [send, hended, ite_true, ending, hhelper, statusText, Bool.false_eq_true, ite_false,
      List.append_nil, List.append_assoc]
  · have hnames : ∀ r ∈ (p.send repo produce server refs rest).refs.filter Ref.isSettled,
        '\n' ∉ r.name.toList := by
      intro r hr
      obtain ⟨hr, hsettled⟩ := List.mem_filter.mp hr
      have hrequested := (Bool.and_eq_true_iff.mp hsettled).1
      have hname := hperm.mem_iff.mp (List.mem_map_of_mem (List.mem_filter.mpr ⟨hr, hrequested⟩))
      obtain ⟨spec, hspec, htarget⟩ := List.mem_map.mp hname
      exact htarget ▸ htargets spec hspec
    have hback := fields_join (lineFeed_not_mem_of_forall₂ hlines hnames) ""
    rwa [String.append_empty] at hback

end StatelessPush

/-- A server with the branches `a` and `b` that reports on pushes. -/
def twoReported : Bytes :=
  packets [(uniformId 1).hexBytes ++ bytesOf " refs/heads/a" ++ 0 :: bytesOf "report-status",
    (uniformId 2).hexBytes ++ bytesOf " refs/heads/b"] ++ flushPacket

/-- A push of two branches that ends with status lines. -/
def toldPush : StatelessPush :=
  { specs := ["main:refs/heads/b", "main:refs/heads/a"], helperStatus := true }

/-- A report on the branch `b` that does not mention `a`. -/
def reportOnOne : Bytes :=
  packets [bytesOf "unpack ok\n", bytesOf "ng refs/heads/b not now\n"] ++ flushPacket

/-- The run of a push on the report on one branch. -/
def StatelessPush.reportedOnOne (p : StatelessPush) : StatelessRun :=
  p.run oneHead (.ofPack [] (.ok ())) (twoReported ++ reportOnOne)

/-- Of the two targets, the one with a line in the report has a status line, and it is refused. -/
theorem status_lines_account_for_targets_unmentioned :
    toldPush.helperStatus = true ∧ toldPush.reportedOnOne.result.isOk = true ∧
    toldPush.reportedOnOne.refs.map (fun r => (r.name, r.status)) =
      [("refs/heads/a", .expectingReport), ("refs/heads/b", .remoteReject)] ∧
    ∃ lines, toldPush.reportedOnOne.written =
        ({ toldPush with helperStatus := false } : StatelessPush).reportedOnOne.written ++
          Utf8.encode (String.join (lines.map (· ++ "\n"))) ∧
      List.Forall₂ Ref.HasLine (toldPush.reportedOnOne.refs.filter Ref.isSettled) lines := by
  have hok : toldPush.reportedOnOne.result.isOk = true := by decide +kernel
  obtain ⟨-, -, -, lines, -, -, hwritten, -, -, hlines, -, -⟩ :=
    @StatelessPush.status_lines_account_for_targets toldPush oneHead (.ofPack [] (.ok ()))
      (twoReported ++ reportOnOne) rfl hok
  exact ⟨rfl, hok, by decide +kernel, lines, hwritten, hlines⟩

/-- A push that ends well does not have a status line for each target: the branch that the report does
not mention has none. -/
theorem unmentioned_ref_has_no_line :
    toldPush.reportedOnOne.result.isOk = true ∧
    (toldPush.reportedOnOne.refs.filter Ref.isRequested).map Ref.name =
      ["refs/heads/a", "refs/heads/b"] ∧
    ¬ ∃ lines, toldPush.reportedOnOne.written =
        ({ toldPush with helperStatus := false } : StatelessPush).reportedOnOne.written ++
          Utf8.encode (String.join (lines.map (· ++ "\n"))) ∧
      List.Forall₂ Ref.HasLine (toldPush.reportedOnOne.refs.filter Ref.isRequested) lines := by
  have hnames : (toldPush.reportedOnOne.refs.filter Ref.isRequested).map Ref.name =
      ["refs/heads/a", "refs/heads/b"] := by decide +kernel
  refine ⟨by decide +kernel, hnames, ?_⟩
  rintro ⟨lines, hwritten, hlines⟩
  have hlength : lines.length = 2 := by
    rw [← hlines.length_eq, ← List.length_map Ref.name, hnames]
    rfl
  have hfree := lineFeed_not_mem_of_forall₂ hlines (by decide +kernel)
  have htext : toldPush.reportedOnOne.written =
      ({ toldPush with helperStatus := false } : StatelessPush).reportedOnOne.written ++
        Utf8.encode "error refs/heads/b not now\n" := by decide +kernel
  have hsame := List.append_cancel_left (hwritten.symm.trans htext)
  have hjoin : String.join (lines.map (· ++ "\n")) = "error refs/heads/b not now\n" := by
    have hread := congrArg Utf8.decode? hsame
    rwa [Utf8.decode?_encode, Utf8.decode?_encode, Option.some.injEq] at hread
  have hback := fields_join hfree ""
  rw [String.append_empty, hjoin] at hback
  have hcount := congrArg List.length hback
  rw [List.length_append, hlength] at hcount
  revert hcount
  decide +kernel

end GitRemote
