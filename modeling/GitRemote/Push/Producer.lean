import GitRemote.Process.Program
import GitRemote.Push.Pack
import GitRemote.Wire.Sideband

/-!
# Builders of packs

Two builders: one gives out a pack that is there already, the other runs a program that is fed the
objects to start from. For a transport that keeps no state the pack goes out in bare packets.
-/

namespace GitRemote

/-- A pack as it is sent on a transport. -/
def framePack (stateless : Bool) (pack : Bytes) : Bytes :=
  if stateless then bandPackets [] payloadLimit pack else pack

namespace PackProducer

/-- Gives out a pack, and then ends as told. -/
def ofPack (pack : Bytes) (ending : Except WireError Unit) : PackProducer := fun request =>
  (framePack request.stateless pack, ending)

/-- Runs a program. Its output is sent on in the pieces in which it is read. -/
def ofProgram (host : Host) (program : String) (gitDir : Option String) : PackProducer :=
  fun request =>
    let c := request.command program gitDir
    match host.start c with
    | .error e => ([], .error e)
    | .ok p =>
      let r := p { data := request.revLines }
      let pack := outputOf r.effects
      ((pieces packetLimit pack.length pack).flatMap (framePack request.stateless),
        Host.verdict c r.ending)

end PackProducer

end GitRemote
