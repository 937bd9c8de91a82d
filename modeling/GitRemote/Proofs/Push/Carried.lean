import GitRemote.Proofs.Push.History
import GitRemote.Proofs.Push.Reading
import GitRemote.Proofs.Remote.Relay

/-!
# Pushes that are carried over an exchange

A push without a connection is cut into packets, and the exchange puts the packets together again: the
server gets one request with the bytes that a push over a connection would write. What the push writes
behind it, the statuses of the refs, is the result of the exchange.
-/

namespace GitRemote

/-! ### What is written -/

variable {input : Bytes} {server : Advertisement} {refs : List Ref} {args : PushArgs}
variable {source : ObjectSource} {produce : PackProducer} {outcome : PushOutcome}

/-- A push that ends well with some refs has written its commands and its pack. -/
theorem sendPush_eq_ok {c : Commands} {pack : PackStep}
    (hc : writeCommands (.of server.capabilities args) args false refs = c)
    (hpack : buildPack source produce server.haves
      { args with ofsDelta := args.ofsDelta || server.capabilities.has "ofs-delta" } c = pack)
    (hne : refs ≠ []) (h : (sendPush input server refs args source produce).result = .ok outcome) :
    c.error = none ∧ pack.error = none ∧ outcome.commandsSent = c.sent := by
  have hempty : refs.isEmpty = false := by simpa using hne
  rw [sendPush, hempty] at h
  simp only [Bool.false_eq_true, ite_false, hc, frameCommands_eq, hpack] at h
  cases hcommands : c.error with
  | some e => rw [hcommands] at h; cases h
  | none =>
    cases hbuilt : pack.error with
    | some e => rw [hcommands, hbuilt] at h; cases h
    | none =>
      refine ⟨rfl, rfl, ?_⟩
      rw [hcommands, hbuilt] at h
      simp only at h
      split at h
      · split at h
        · cases h
        · next state rest hread =>
          cases h
          have hsent := commandsSent_readAgreedReport (.of server.capabilities args) pack.refs
            { commandsSent := c.sent, newRefs := c.newRefs } input
          rw [hread] at hsent
          exact hsent
      · cases h
        rfl

/-- A push that ended well does the same with more of the server's answer behind what it read. -/
theorem sendPush_append_of_ok
    (h : (sendPush input server refs args source produce).result = .ok outcome) (more : Bytes) :
    sendPush (input ++ more) server refs args source produce =
      { sendPush input server refs args source produce with
        input := (sendPush input server refs args source produce).input ++ more } := by
  rw [sendPush] at h
  rw [sendPush, sendPush]
  cases hempty : refs.isEmpty with
  | true => rfl
  | false =>
    simp only [hempty, Bool.false_eq_true, ite_false] at h ⊢
    split at h
    · cases h
    next herror =>
    split at h
    · cases h
    next commands hcommands =>
    split at h
    · cases h
    next hpack =>
    split at h
    · next hdue =>
      split at h
      · cases h
      · next state rest hread =>
        have hmore := readAgreedReport_append_of_ok hread more
        simp only [if_pos hdue, hmore]
    · next hdue => simp only [if_neg hdue]

/-- Commands do not depend on the transport. -/
theorem writeCommands_stateless (a : Agreement) (args : PushArgs) (b sent : Bool) (refs : List Ref) :
    writeCommands a { args with stateless := b } sent refs = writeCommands a args sent refs := by
  induction refs generalizing sent with
  | nil => rfl
  | cons r refs ih =>
    rw [writeCommands, writeCommands]
    simp only [ih]

/-- The pack that goes out behind some commands. -/
def packBehind (c : Commands) (pack : Bytes) : Bytes :=
  if c.newRefs = 0 || !c.sent then [] else pack

/-- A pack that is there already is built on every transport if it is built on one. -/
theorem buildPack_ofPack {haves : List ObjectId} {c : Commands} {pack : Bytes}
    (h : (buildPack source (.ofPack pack (.ok ())) haves args c).error = none) (args' : PushArgs) :
    (buildPack source (.ofPack pack (.ok ())) haves args' c).error = none ∧
      (buildPack source (.ofPack pack (.ok ())) haves args' c).written =
        framePack args'.stateless (packBehind c pack) := by
  have hnil : framePack args'.stateless [] = [] := by cases hb : args'.stateless <;> rfl
  rw [buildPack] at h ⊢
  rw [packBehind]
  split
  · exact ⟨rfl, hnil.symm⟩
  · next hdue =>
    rw [if_neg hdue, PackRequest.collect] at h
    rw [PackRequest.collect]
    cases hrevs : PackRequest.revsOf source c.refs with
    | error e => rw [hrevs] at h; cases h
    | ok revs => exact ⟨rfl, rfl⟩

/-- What a push over a connection writes. -/
theorem written_connected {c : Commands} {pack : Bytes}
    (hc : writeCommands (.of server.capabilities args) args false refs = c)
    (hbuilt : (buildPack source (.ofPack pack (.ok ())) server.haves args c).error = none)
    (hne : refs ≠ []) (herror : c.error = none) :
    (sendPush input server refs { args with stateless := false } source
      (.ofPack pack (.ok ()))).written = c.bytes ++ flushPacket ++ packBehind c pack := by
  have hc' : writeCommands (.of server.capabilities { args with stateless := false })
      { args with stateless := false } false refs = c := (writeCommands_stateless ..).trans hc
  rw [written_sendPush hc' rfl hne herror, (buildPack_ofPack hbuilt _).2]
  simp [framePack]

/-- The payloads of the request that a push without a connection makes. -/
def pushPayloads (c : Commands) (pack : Bytes) : List Bytes :=
  pieces payloadLimit (c.bytes ++ flushPacket).length (c.bytes ++ flushPacket) ++
    pieces payloadLimit (packBehind c pack).length (packBehind c pack)

/-- Put together again, the payloads are the commands, a flush packet and the pack. -/
theorem flatten_pushPayloads (c : Commands) (pack : Bytes) :
    (pushPayloads c pack).flatten = c.bytes ++ flushPacket ++ packBehind c pack := by
  rw [pushPayloads, List.flatten_append, flatten_pieces (by decide) (Nat.le_refl _),
    flatten_pieces (by decide) (Nat.le_refl _)]

theorem length_le_of_mem_pushPayloads {c : Commands} {pack : Bytes} :
    ∀ p ∈ pushPayloads c pack, p.length ≤ payloadLimit := by
  intro p hp
  rcases List.mem_append.mp hp with hp | hp
  · exact length_le_of_mem_pieces hp
  · exact length_le_of_mem_pieces hp

/-- A request has at least one payload, since the commands end with a flush packet. -/
theorem pushPayloads_ne_nil (c : Commands) (pack : Bytes) : pushPayloads c pack ≠ [] := by
  intro hnil
  have hflatten := flatten_pushPayloads c pack
  rw [hnil, List.flatten_nil] at hflatten
  have hlength := congrArg List.length hflatten
  simp only [flushPacket, ControlPacket.encode, List.length_nil, List.length_append,
    length_hex4] at hlength
  omega

/-- What a push without a connection writes: one request, if there are commands. -/
theorem written_stateless {c : Commands} {pack : Bytes}
    (hc : writeCommands (.of server.capabilities args) args false refs = c)
    (hbuilt : (buildPack source (.ofPack pack (.ok ())) server.haves args c).error = none)
    (hne : refs ≠ []) (herror : c.error = none) :
    (sendPush input server refs { args with stateless := true } source
      (.ofPack pack (.ok ()))).written =
        if c.sent then requestOf (pushPayloads c pack) else [] := by
  have hc' : writeCommands (.of server.capabilities { args with stateless := true })
      { args with stateless := true } false refs = c := (writeCommands_stateless ..).trans hc
  rw [written_sendPush hc' rfl hne herror, (buildPack_ofPack hbuilt _).2, (buildPack_ofPack hbuilt _).1]
  cases hsent : c.sent with
  | false => simp [framePack, packBehind, hsent, bandPackets_nil, pieces]
  | true =>
    simp [framePack, bandPackets_nil, requestOf, pushPayloads, packets_append]

/-- The framing of a push that ends well comes to nothing: without a connection it writes no request,
or one whose payloads together are what it writes over a connection. -/
theorem written_sendPush_cases {pack : Bytes}
    (h : (sendPush input server refs { args with stateless := true } source
      (.ofPack pack (.ok ()))).result = .ok outcome) :
    (outcome.commandsSent = false ∧ ∀ given, (sendPush given server refs
        { args with stateless := true } source (.ofPack pack (.ok ()))).written = []) ∨
      (outcome.commandsSent = true ∧ ∃ ps : List Bytes, ps ≠ [] ∧
        (∀ p ∈ ps, p.length ≤ payloadLimit) ∧
        (∀ given, (sendPush given server refs { args with stateless := true } source
          (.ofPack pack (.ok ()))).written = requestOf ps) ∧
        ∀ given, (sendPush given server refs { args with stateless := false } source
          (.ofPack pack (.ok ()))).written = ps.flatten) := by
  by_cases hne : refs = []
  · subst hne
    cases h
    exact .inl ⟨rfl, fun _ => rfl⟩
  obtain ⟨c, hc⟩ : ∃ c, writeCommands (.of server.capabilities args) args false refs = c := ⟨_, rfl⟩
  have hc' : writeCommands (.of server.capabilities { args with stateless := true })
      { args with stateless := true } false refs = c := (writeCommands_stateless ..).trans hc
  obtain ⟨herror, hpack, hsent⟩ := sendPush_eq_ok hc' rfl hne h
  have hbuilt := (buildPack_ofPack hpack args).1
  rw [hsent]
  cases hcs : c.sent with
  | false =>
    refine .inl ⟨rfl, fun given => ?_⟩
    rw [written_stateless hc hbuilt hne herror, hcs]
    rfl
  | true =>
    refine .inr ⟨rfl, pushPayloads c pack, pushPayloads_ne_nil c pack,
      length_le_of_mem_pushPayloads, fun given => ?_, fun given => ?_⟩
    · rw [written_stateless hc hbuilt hne herror, hcs]
      rfl
    · rw [written_connected hc hbuilt hne herror, flatten_pushPayloads]

/-! ### The push as the child of an exchange -/

namespace StatelessPush

variable {p : StatelessPush} {repo : LocalRepository} {advertisement rest : Bytes}
variable {specs : List Refspec}

/-- What the push would write over a connection, with a pack that is there already. -/
def connectedBytes (p : StatelessPush) (repo : LocalRepository) (server : Advertisement)
    (refs : List Ref) (pack given : Bytes) : Bytes :=
  (sendPush given server refs { p.args with stateless := false } repo.source
    (.ofPack pack (.ok ()))).written

/-- What a push that ended well says of its refs. -/
def text (p : StatelessPush) (refs : List Ref) : Bytes :=
  if p.helperStatus then Utf8.encode (statusText refs) else []

/-- What the program of a push writes is what the push writes. -/
theorem outputOf_program (p : StatelessPush) (repo : LocalRepository) (produce : PackProducer)
    (i : ProgramInput) :
    outputOf (p.program repo produce i).effects = (p.run repo produce i.data).written :=
  List.append_nil _

/-- A push that ended well is a program that did. -/
theorem ending_program_of_ok {produce : PackProducer} {i : ProgramInput}
    (h : (p.run repo produce i.data).result = .ok outcome) :
    (p.program repo produce i).ending.failure? = none := by
  rw [program, h]
  rfl

/-- A push that ended well does the same with more behind what it read, and this is left. -/
theorem run_append_of_ok {produce : PackProducer} {input : Bytes}
    (h : (p.run repo produce input).result = .ok outcome) (more : Bytes) :
    p.run repo produce (input ++ more) =
      { p.run repo produce input with input := (p.run repo produce input).input ++ more } := by
  cases hspecs : p.specs.mapM Refspec.parse with
  | error e =>
    rw [run, hspecs] at h
    cases h
  | ok specs =>
    rcases hread : Advertisement.read input with ⟨e | server, rest⟩
    · rw [run, hspecs] at h
      simp only [hread] at h
      cases h
    · have hmore := Advertisement.read_append_of_ok hread more
      cases hmatch : repo.matchPush server.refs specs with
      | error e =>
        rw [run, hspecs] at h
        simp only [hread, hmatch] at h
        cases h
      | ok refs =>
        rw [run, hspecs] at h ⊢
        rw [run, hspecs]
        simp only [hread, hmore, hmatch, send] at h ⊢
        cases hr : (sendPush rest server refs { p.args with stateless := true } repo.source
            produce).result with
        | error e =>
          rw [hr] at h
          cases h
        | ok o =>
          rw [sendPush_append_of_ok hr more]
          simp only [hr]

theorem run_of_nil (p : StatelessPush) (repo : LocalRepository) (produce : PackProducer) (b : Bytes) :
    p.run repo produce (b ++ []) = p.run repo produce b := by rw [List.append_nil]

section

variable (hspecs : p.specs.mapM Refspec.parse = .ok specs)
variable (hread : Advertisement.read advertisement = (.ok server, rest))
variable (hmatch : repo.matchPush server.refs specs = .ok refs)
include hspecs hread hmatch

/-- What a push does with the server's responses behind the advertisement. -/
theorem run_append (produce : PackProducer) (more : Bytes) :
    p.run repo produce (advertisement ++ more) = p.send repo produce server refs (rest ++ more) := by
  rw [run, hspecs]
  simp only [Advertisement.read_append_of_ok hread, hmatch]

/-- What is written by a push that ends well. -/
theorem written_run_of_ok {more : Bytes}
    (hok : (p.run repo produce (advertisement ++ more)).result = .ok outcome) :
    (sendPush (rest ++ more) server refs { p.args with stateless := true } repo.source
        produce).result = .ok outcome ∧
      (p.run repo produce (advertisement ++ more)).written =
        (sendPush (rest ++ more) server refs { p.args with stateless := true } repo.source
          produce).written ++
          (flushPacket ++ p.text (p.run repo produce (advertisement ++ more)).refs) := by
  rw [run_append hspecs hread hmatch] at hok ⊢
  have hpush : (sendPush (rest ++ more) server refs { p.args with stateless := true } repo.source
      produce).result = .ok outcome := by
    cases hr : (sendPush (rest ++ more) server refs { p.args with stateless := true } repo.source
        produce).result with
    | error e =>
      rw [send] at hok
      simp only [hr] at hok
      cases hok
    | ok o =>
      rw [send] at hok
      simp only [hr] at hok
      cases hok
      rfl
  refine ⟨hpush, ?_⟩
  rw [send, hpush]
  rfl

/-- What was sent before the server's responses is all that a request needs. -/
theorem prefix_written_run (produce : PackProducer) :
    (sendPush rest server refs { p.args with stateless := true } repo.source produce).written <+:
      (p.run repo produce advertisement).written := by
  rw [← run_of_nil, run_append hspecs hread hmatch, List.append_nil, send]
  exact List.prefix_append ..

/-- A push that failed so far has written nothing, or what it writes before it reads the server's
responses. -/
theorem written_run_of_error (produce : PackProducer) {early more sent : Bytes}
    (hinput : early ++ more = advertisement ++ sent)
    (herror : (p.run repo produce early).result.isOk = false) :
    (p.run repo produce early).written = [] ∨ ∃ given, given ++ more = rest ++ sent ∧
      (p.run repo produce early).written =
        (sendPush given server refs { p.args with stateless := true } repo.source produce).written := by
  rcases hearly : Advertisement.read early with ⟨e | server', given⟩
  · refine .inl ?_
    rw [run, hspecs]
    simp only [hearly]
  · have hmore := Advertisement.read_append_of_ok hearly more
    rw [hinput, Advertisement.read_append_of_ok hread sent] at hmore
    obtain ⟨hserver, hgiven⟩ := Prod.mk.inj hmore
    cases hserver
    refine .inr ⟨given, hgiven.symm, ?_⟩
    rw [run, hspecs] at herror ⊢
    simp only [hearly, hmatch, send] at herror ⊢
    cases hr : (sendPush given server refs { p.args with stateless := true } repo.source
        produce).result with
    | error e => simp [Except.isOk, Except.toBool]
    | ok o =>
      rw [hr] at herror
      cases herror

/-- A push that leaves nothing of what it is sent does not come to stand if what it writes before it reads
the responses fits a pipe. -/
theorem stalls_program (produce : PackProducer) {taken : Nat} {input sent : Bytes}
    (hinput : input = advertisement ++ sent)
    (hleft : (p.run repo produce input).result.isOk = true → (p.run repo produce input).input = [])
    (hwritten : ∀ given more, given ++ more = rest ++ sent → pipeCapacity < more.length →
      (sendPush given server refs { p.args with stateless := true } repo.source
        produce).written.length ≤ taken + pipeCapacity) :
    (p.program repo produce).stalls taken input = false := by
  obtain ⟨early, hearly⟩ : ∃ early, input.take (input.length - pipeCapacity - 1) = early := ⟨_, rfl⟩
  obtain ⟨more, hmore⟩ : ∃ more, input.drop (input.length - pipeCapacity - 1) = more := ⟨_, rfl⟩
  have hall : early ++ more = input := by rw [← hearly, ← hmore, List.take_append_drop]
  rw [Program.stalls, Bool.and_eq_false_iff, decide_eq_false_iff_not, decide_eq_false_iff_not,
    outputOf_program, Nat.not_lt, Nat.not_lt, hearly]
  refine or_iff_not_imp_left.mpr fun hlong => ?_
  have hroom : pipeCapacity < more.length := by
    rw [← hmore, List.length_drop]
    omega
  cases hok : (p.run repo produce early).result with
  | ok o =>
    -- A push that has ended already leaves what is still to come.
    have hrun := run_append_of_ok hok more
    rw [hall] at hrun
    have hnil := hleft (by rw [hrun, hok]; rfl)
    rw [hrun] at hnil
    rw [(List.append_eq_nil_iff.mp hnil).2] at hroom
    cases hroom
  | error e =>
    have herror : (p.run repo produce early).result.isOk = false := by rw [hok]; rfl
    rcases written_run_of_error hspecs hread hmatch produce (hall.trans hinput) herror with
      hnone | ⟨given, hgiven, hsame⟩
    · rw [hnone]
      exact Nat.zero_le _
    · rw [hsame]
      exact hwritten given more hgiven hroom

/-- A push that leaves nothing of what it is sent takes it. -/
theorem takes_program (produce : PackProducer) {taken : Nat} {input sent : Bytes}
    (hinput : input = advertisement ++ sent)
    (hleft : (p.run repo produce input).result.isOk = true → (p.run repo produce input).input = [])
    (hwritten : ∀ given more, given ++ more = rest ++ sent → pipeCapacity < more.length →
      (sendPush given server refs { p.args with stateless := true } repo.source
        produce).written.length ≤ taken + pipeCapacity) :
    (p.program repo produce).Takes taken input := by
  refine ⟨stalls_program hspecs hread hmatch produce hinput hleft hwritten, ?_⟩
  rw [ProgramRun.isBroken, program]
  cases hok : (p.run repo produce input).result.isOk with
  | false => rfl
  | true => simp [hleft hok]

/-- A push that sent no commands asks the server for nothing. -/
theorem converses_of_no_commands {pack : Bytes}
    (hok : (p.run repo (.ofPack pack (.ok ())) advertisement).result = .ok outcome)
    (hsent : outcome.commandsSent = false)
    (hleft : (p.run repo (.ofPack pack (.ok ())) advertisement).input = []) :
    (p.program repo (.ofPack pack (.ok ()))).Converses advertisement
      (p.text (p.run repo (.ofPack pack (.ok ())) advertisement).refs) [] := by
  rw [← run_of_nil] at hok
  obtain ⟨hpush, hwritten⟩ := written_run_of_ok hspecs hread hmatch hok
  rw [run_of_nil] at hok hwritten
  rcases written_sendPush_cases hpush with ⟨-, hnone⟩ | ⟨hsome, -⟩
  · have htakes : (p.program repo (.ofPack pack (.ok ()))).Takes 0 advertisement := by
      refine takes_program hspecs hread hmatch _ (List.append_nil _).symm (fun _ => hleft) ?_
      intro given _ _ _
      rw [hnone given]
      exact Nat.zero_le _
    rw [hnone, List.nil_append] at hwritten
    refine Program.converses_nil htakes ?_ ?_ (ending_program_of_ok hok)
    · rw [outputOf_program, hwritten]
      exact List.prefix_append ..
    · rw [outputOf_program, hwritten]
  · rw [hsome] at hsent
    cases hsent

/-- A push that sent commands asks the server once, for what it would write over a connection. -/
theorem converses_of_commands {pack : Bytes} {probed answer : Http.Response}
    (hprobed : probed.isSuccess = true) (hanswer : answer.isSuccess = true)
    (hok : (p.run repo (.ofPack pack (.ok ())) (advertisement ++ answer.body)).result = .ok outcome)
    (hsent : outcome.commandsSent = true) (hrest : rest.length ≤ pipeCapacity)
    (hleft : (p.run repo (.ofPack pack (.ok ())) (advertisement ++ answer.body)).input = []) :
    ∃ t : Turn, t.probed = probed ∧ t.answer = answer ∧
      (∀ given, t.body = p.connectedBytes repo server refs pack given) ∧
      (p.program repo (.ofPack pack (.ok ()))).Converses advertisement
        (p.text (p.run repo (.ofPack pack (.ok ())) (advertisement ++ answer.body)).refs) [t] := by
  obtain ⟨hpush, hwritten⟩ := written_run_of_ok hspecs hread hmatch hok
  rcases written_sendPush_cases hpush with ⟨hnone, -⟩ | ⟨-, ps, hne, hlength, hframed, hplain⟩
  · rw [hnone] at hsent
    cases hsent
  obtain ⟨first, more, rfl⟩ := List.exists_cons_of_ne_nil hne
  have hfirst := prefix_written_run hspecs hread hmatch (.ofPack pack (.ok ()))
  rw [hframed] at hfirst hwritten
  refine ⟨⟨first, more, probed, answer, hlength, hprobed, hanswer⟩, rfl, rfl,
    fun given => (hplain given).symm, ?_⟩
  refine Program.converses_singleton ?_ ?_ ?_ ?_ ?_ (ending_program_of_ok hok)
  · rwa [outputOf_program]
  -- What follows the advertisement fits a pipe, so the request comes when the rest can be written.
  · refine takes_program hspecs hread hmatch _ (List.append_nil _).symm (fun hisok => ?_)
      fun given more hmore hlong => ?_
    · cases hearly : (p.run repo (.ofPack pack (.ok ())) advertisement).result with
      | error e =>
        rw [hearly] at hisok
        cases hisok
      | ok o =>
        rw [run_append_of_ok hearly] at hleft
        exact (List.append_eq_nil_iff.mp hleft).1
    · have hlength := congrArg List.length hmore
      rw [List.append_nil, List.length_append] at hlength
      omega
  · refine takes_program hspecs hread hmatch _ rfl (fun _ => hleft) ?_
    intro given _ _ _
    rw [hframed given]
    exact Nat.le_add_right _ _
  · rw [outputOf_program, hwritten, ← List.append_assoc]
    exact List.prefix_append ..
  · rw [outputOf_program, hwritten, ← List.append_assoc]
    rfl

end

end StatelessPush

/-- A push that moves `a` and deletes `b`, and says so. -/
def spokenPush : StatelessPush := { moveAndDelete with helperStatus := true }

/-- The refspecs of the push. -/
def spokenSpecs : List Refspec := [⟨false, "main", "refs/heads/a"⟩, ⟨false, "", "refs/heads/b"⟩]

/-- A server with two branches and some capabilities. -/
def branchesServer (words : List String) : Advertisement where
  refs := [{ name := "refs/heads/a", oldId := uniformId 1 },
    { name := "refs/heads/b", oldId := uniformId 2 }]
  capabilities := ⟨words⟩

/-- The refs of that server as they are pushed. -/
def spokenRefs : List Ref :=
  [{ name := "refs/heads/a", oldId := uniformId 1, newId := uniformId 3, peer := some "main" },
    { name := "refs/heads/b", oldId := uniformId 2, peer := some "(delete)", deletion := true }]

theorem parse_spokenSpecs : spokenPush.specs.mapM Refspec.parse = .ok spokenSpecs := by
  decide +kernel

theorem match_spokenRefs (words : List String) :
    oneHead.matchPush (branchesServer words).refs spokenSpecs = .ok spokenRefs := by
  have hmatch : oneHead.matchPush (branchesServer []).refs spokenSpecs = .ok spokenRefs := by
    decide +kernel
  exact hmatch

/-- The push with a short pack, as a program. -/
def spokenProgram : Program := spokenPush.program oneHead (.ofPack (bytesOf "PACK") (.ok ()))

/-- The commands of the push as a server reads them, with the agreement behind the first. -/
def spokenCommands (agreed : Bytes) : Bytes :=
  packets [(uniformId 1).hexBytes ++ bytesOf " " ++ (uniformId 3).hexBytes ++
      bytesOf " refs/heads/a" ++ agreed ++ bytesOf "\n",
    (uniformId 2).hexBytes ++ bytesOf " " ++ ObjectId.null.hexBytes ++ bytesOf " refs/heads/b\n"] ++
  flushPacket

/-- Requests to the service that takes pushes. -/
def pushRpc : Rpc := { narrowRpc with service := "git-receive-pack" }

/-- A client whose host runs the push for every command, and whose server answers one turn. -/
def clientOfPush (t : Turn) : Http.Client where
  server := { responses := t.answers pushRpc }
  host := { load := fun _ _ => some spokenProgram }

theorem settles_clientOfPush (t : Turn) : (clientOfPush t).Settles :=
  fun hcomplete => by cases hcomplete

theorem start_clientOfPush (t : Turn) (command : Command) (h : command.refusal? = none) :
    (clientOfPush t).host.start command = .ok spokenProgram := by
  rw [Host.start, h]
  rfl

/-- The two branches as a server advertises them that reports on pushes. -/
def reportingBranches : Bytes :=
  packets [(uniformId 1).hexBytes ++ bytesOf " refs/heads/a" ++
      0 :: bytesOf "report-status delete-refs",
    (uniformId 2).hexBytes ++ bytesOf " refs/heads/b"] ++ flushPacket

/-- What that server reports on the push. -/
def spokenReport : Bytes :=
  packets [bytesOf "unpack ok\n", bytesOf "ok refs/heads/a\n", bytesOf "ok refs/heads/b\n"] ++
  flushPacket

/-- The push to that server as a turn of an exchange. -/
def reportedTurn : Turn :=
  { plainTurn (spokenCommands (0 :: bytesOf "report-status")) [bytesOf "PACK"]
      (by decide +kernel) 0 with
    answer := ⟨200, none, spokenReport⟩
    answer_isSuccess := rfl }

/-- The push to a server that sends no report as a turn of an exchange, with an answer of some
length. -/
def unreportedTurn (n : Nat) : Turn :=
  plainTurn (spokenCommands []) [bytesOf "PACK"] (by decide +kernel) n

theorem run_twoBranches : (spokenPush.run oneHead (.ofPack (bytesOf "PACK") (.ok ())) twoBranches).result =
    .ok { commandsSent := true, newRefs := 1, success := true } := by decide +kernel

/-- The push writes the same whatever that server says behind its advertisement. -/
theorem outputOf_spokenProgram (more : Bytes) :
    outputOf (spokenProgram ⟨twoBranches ++ more, false⟩).effects =
      outputOf (spokenProgram ⟨twoBranches, false⟩).effects := by
  rw [spokenProgram, StatelessPush.outputOf_program, StatelessPush.outputOf_program,
    StatelessPush.run_append_of_ok run_twoBranches]

/-- The push does not come to stand over a long answer, none of which it waits for. -/
theorem stalls_spokenProgram {more : Bytes} (h : pipeCapacity < more.length) (taken : Nat) :
    spokenProgram.stalls taken (twoBranches ++ more) = false := by
  have hearly : (twoBranches ++ more).take ((twoBranches ++ more).length - pipeCapacity - 1) =
      twoBranches ++ more.take (more.length - pipeCapacity - 1) := by
    rw [List.length_append, Nat.sub_sub, Nat.add_sub_assoc h, Nat.sub_sub]
    exact List.take_length_add_append _
  have hshort : (outputOf (spokenProgram ⟨twoBranches, false⟩).effects).length ≤ pipeCapacity := by
    decide +kernel
  rw [Program.stalls, Bool.and_eq_false_iff]
  refine .inr (decide_eq_false ?_)
  rw [hearly, outputOf_spokenProgram]
  omega

/-- Whatever that server says is left unread. -/
theorem isBroken_spokenProgram {more : Bytes} (h : 0 < more.length) :
    (spokenProgram ⟨twoBranches ++ more, false⟩).isBroken = true := by
  rw [ProgramRun.isBroken, spokenProgram, StatelessPush.program]
  simp only [StatelessPush.run_append_of_ok run_twoBranches, run_twoBranches]
  rw [Bool.and_eq_true]
  refine ⟨rfl, decide_eq_true ?_⟩
  rw [List.length_append]
  omega

end GitRemote
