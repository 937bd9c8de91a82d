import GitRemote.Proofs.Push.Commands

/-!
# What a push writes

The commands are packets, one for each ref that is eligible, and a flush packet ends them. A push over
a connection writes them as they are and the pack behind them; one over a transport that keeps no
state cuts them into packets once more. What is written does not depend on what the server answers.
-/

namespace GitRemote

/-- Framing commands never fails. -/
theorem frameCommands_eq (args : PushArgs) (c : Commands) :
    frameCommands args c = .ok (if args.stateless then
      if c.sent then bandPackets [] payloadLimit (c.bytes ++ flushPacket) else []
    else c.bytes ++ flushPacket) := by
  rw [frameCommands]
  cases args.stateless with
  | false => rfl
  | true =>
    cases c.sent with
    | false => rfl
    | true => rfl

/-- What a push writes if there are refs and no command is too long. -/
theorem written_sendPush {input : Bytes} {server : Advertisement} {refs : List Ref} {args : PushArgs}
    {source : ObjectSource} {produce : PackProducer} {c : Commands} {pack : PackStep}
    (hc : writeCommands (.of server.capabilities args) args false refs = c)
    (hpack : buildPack source produce server.haves
      { args with ofsDelta := args.ofsDelta || server.capabilities.has "ofs-delta" } c = pack)
    (hne : refs ≠ []) (hok : c.error = none) :
    (sendPush input server refs args source produce).written =
      (if args.stateless then
        if c.sent then bandPackets [] payloadLimit (c.bytes ++ flushPacket) else []
      else c.bytes ++ flushPacket) ++ pack.written ++
        (if pack.error.isNone && args.stateless && c.sent then flushPacket else []) := by
  have hempty : refs.isEmpty = false := by simpa using hne
  rw [sendPush, hempty]
  simp only [Bool.false_eq_true, ite_false, hc, hok, frameCommands_eq, hpack]
  cases pack.error with
  | some e => simp
  | none =>
    simp only [Option.isNone_none, Bool.true_and]
    split
    · split <;> rfl
    · rfl

/-- A push whose commands cannot be written writes nothing. -/
theorem written_sendPush_of_error {input : Bytes} {server : Advertisement} {refs : List Ref}
    {args : PushArgs} {source : ObjectSource} {produce : PackProducer} {e : WireError}
    (he : (writeCommands (.of server.capabilities args) args false refs).error = some e) :
    (sendPush input server refs args source produce).written = [] := by
  rw [sendPush]
  split
  · rfl
  · simp only [he]

/-- The commands that a request in packets makes: the data of its packets are packets themselves, up
to the flush packet that ends the commands. -/
def commandsIn (request : Bytes) : List Bytes := payloads (payloads request).flatten

theorem length_pieces_le {size fuel : Nat} (h : size ≤ payloadLimit) {data : Bytes} :
    ∀ p ∈ pieces size fuel data, p.length ≤ payloadLimit :=
  fun _ hp => Nat.le_trans (length_le_of_mem_pieces hp) h

/-- Commands that were cut into packets are read back, whatever comes behind them. -/
theorem commandsIn_bandPackets {lines : List Bytes} (h : ∀ l ∈ lines, l.length ≤ payloadLimit)
    (behind : Bytes) :
    commandsIn (bandPackets [] payloadLimit (packets lines ++ flushPacket) ++ behind) = lines := by
  rw [commandsIn, bandPackets_nil, payloads_packets (length_pieces_le (Nat.le_refl _)),
    List.flatten_append, flatten_pieces (by decide) (Nat.le_refl _), List.append_assoc,
    payloads_packets h, payloads_flush, List.append_nil]

/-- A request that starts with a flush packet makes no commands. -/
theorem commandsIn_flush (behind : Bytes) : commandsIn (flushPacket ++ behind) = [] := by
  rw [commandsIn, payloads_flush, List.flatten_nil, payloads_nil]

theorem commandsIn_nil : commandsIn [] = [] := by
  rw [commandsIn, payloads_nil, List.flatten_nil, payloads_nil]

/-! ### The commands on the wire

A server reads the commands of the refs that a push sends, in their order and all of them, unless one
is too long for a packet: then the push ends without a command. -/

/-- The commands that a server reads out of what a push wrote: the packets in front of a flush packet,
put together again first for a transport that keeps no state. -/
def commandsOut (args : PushArgs) (written : Bytes) : List Bytes :=
  if args.stateless then commandsIn written else payloads written

section

variable {a : Agreement} {args : PushArgs} {r : Ref} {refs : List Ref}

theorem commandsOut_nil : commandsOut args [] = [] := by
  rw [commandsOut, commandsIn_nil, payloads_nil, ite_self]

/-- The refs that are sent are the eligible ones, unless nothing is. -/
theorem mem_sentRefs : r ∈ sentRefs a args refs ↔
    args.dryRun = false ∧ r ∈ refs ∧ r.eligibility args.mirror a.allowDelete = .eligible := by
  cases hdry : args.dryRun <;> simp [sentRefs, hdry]

/-- The refs that are sent are some of the refs, in their order. -/
theorem sentRefs_sublist : (sentRefs a args refs).Sublist refs := by
  rw [sentRefs]
  split
  · exact List.nil_sublist _
  · exact List.filter_sublist

/-- No command goes out just if there is no ref to send. -/
theorem sendsSome_eq_false : sendsSome a args refs = false ↔ sentRefs a args refs = [] := by
  cases hdry : args.dryRun <;> simp [sendsSome, sentRefs, hdry]

end

/-- No pack is built if no command was sent. -/
theorem written_buildPack_of_not_sent {source : ObjectSource} {produce : PackProducer}
    {haves : List ObjectId} {args : PushArgs} {c : Commands} (h : c.sent = false) :
    (buildPack source produce haves args c).written = [] := by
  rw [buildPack, h]
  simp

variable {input : Bytes} {server : Advertisement} {refs : List Ref} {args : PushArgs}
variable {source : ObjectSource} {produce : PackProducer}

/-- A server reads exactly the commands of the refs that are sent, or none if one does not fit into a
packet. What comes behind the push makes no difference if it makes no commands itself. -/
theorem commandsOut_sendPush_append {behind : Bytes} (hbehind : commandsOut args behind = []) :
    commandsOut args ((sendPush input server refs args source produce).written ++ behind) =
      if CommandsFit (.of server.capabilities args) args false refs then
        requestLines (.of server.capabilities args) false
          (sentRefs (.of server.capabilities args) args refs)
      else [] := by
  by_cases hne : refs = []
  · subst hne
    have hsent : sentRefs (.of server.capabilities args) args [] = [] :=
      List.sublist_nil.mp sentRefs_sublist
    rw [hsent, requestLines, ite_self]
    exact hbehind
  split
  · next hfit =>
    rw [written_sendPush rfl rfl hne (error_writeCommands_iff.mpr hfit), bytes_writeCommands hfit,
      sent_writeCommands hfit, Bool.false_or]
    cases hstateless : args.stateless with
    | false =>
      simp only [commandsOut, hstateless, Bool.false_eq_true, ite_false, List.append_assoc]
      rw [payloads_packets hfit, payloads_flush, List.append_nil]
    | true =>
      cases hsome : sendsSome (.of server.capabilities args) args refs with
      | true =>
        simp only [commandsOut, hstateless, ite_true, List.append_assoc]
        exact commandsIn_bandPackets hfit _
      | false =>
        have hsent := (sent_writeCommands hfit).trans hsome
        simpa only [Bool.false_eq_true, ite_true, ite_false, Bool.and_false, List.nil_append,
          written_buildPack_of_not_sent hsent, sendsSome_eq_false.mp hsome, requestLines]
          using hbehind
  · next hfit =>
    cases herror : (writeCommands (.of server.capabilities args) args false refs).error with
    | none => exact absurd (error_writeCommands_iff.mp herror) hfit
    | some e => rw [written_sendPush_of_error herror, List.nil_append, hbehind]

/-- What a push writes are the lines of the refs that are sent, or nothing if one of them does not
fit. -/
theorem commandsOut_sendPush :
    commandsOut args (sendPush input server refs args source produce).written =
      if CommandsFit (.of server.capabilities args) args false refs then
        requestLines (.of server.capabilities args) false
          (sentRefs (.of server.capabilities args) args refs)
      else [] := by
  rw [← List.append_nil (sendPush input server refs args source produce).written]
  exact commandsOut_sendPush_append commandsOut_nil

end GitRemote
