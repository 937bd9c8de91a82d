import GitRemote.Object.Source
import GitRemote.Process.Command
import GitRemote.Push.Ref
import GitRemote.Wire.Error

/-!
# Requests for packs

Which objects a pack must complete and which the remote has already, and the command that builds such
a pack.
-/

namespace GitRemote

/-- How a push is to be done. -/
structure PushArgs where
  verbose : Bool := false
  /-- Ask the server for silence, and show no progress. -/
  quiet : Bool := false
  progress : Bool := false
  /-- Decide on statuses, and send nothing. -/
  dryRun : Bool := false
  /-- Send refs without a local counterpart too. -/
  mirror : Bool := false
  thinPack : Bool := false
  ofsDelta : Bool := false
  /-- Frame everything in packets, for a transport that keeps no state. -/
  stateless : Bool := false
  agent : String := "bough/0.1.0"
  deriving DecidableEq, Repr

/-- An object that the pack starts from. -/
inductive Rev where
  /-- The remote has this and all that it reaches. -/
  | exclude (id : ObjectId)
  /-- The pack must make this complete. -/
  | include (id : ObjectId)
  deriving DecidableEq, Repr

/-- An object that the pack starts from, as text. -/
def Rev.text : Rev → Bytes
  | .exclude id => 0x5E :: id.hexBytes
  | .include id => id.hexBytes

/-- What a builder of packs has to know. -/
structure PackRequest where
  revs : List Rev
  thin : Bool
  ofsDelta : Bool
  quiet : Bool
  progress : Bool
  stateless : Bool
  deriving DecidableEq, Repr

/-- What builds packs: the bytes written for a request, and whether the pack is complete. -/
abbrev PackProducer := PackRequest → Bytes × Except WireError Unit

namespace PackRequest

/-- What each ref contributes: its old value as present, if it is so here, and its new value. -/
def revsOf (source : ObjectSource) : List Ref → Except StorageError (List Rev)
  | [] => .ok []
  | r :: rest =>
    match if r.oldId.isNull then .ok false else source.contains r.oldId with
    | .error e => .error e
    | .ok known =>
      match revsOf source rest with
      | .error e => .error e
      | .ok later =>
        .ok ((if known then [.exclude r.oldId] else []) ++
          (if r.newId.isNull then [] else [.include r.newId]) ++ later)

/-- The request for the pack of a push. Objects that the server has without a ref come first. -/
def collect (source : ObjectSource) (refs : List Ref) (haves : List ObjectId) (args : PushArgs) :
    Except StorageError PackRequest :=
  (revsOf source refs).map fun revs =>
    { revs := haves.map .exclude ++ revs
      thin := args.thinPack
      ofsDelta := args.ofsDelta
      quiet := args.quiet
      progress := args.progress
      stateless := args.stateless }

/-- The objects as the builder reads them, one on a line. -/
def revLines (r : PackRequest) : Bytes := r.revs.flatMap fun rev => rev.text ++ [0x0A]

/-- The command that builds the pack. -/
def command (r : PackRequest) (program : String) (gitDir : Option String) : Command :=
  (((((⟨program, ["pack-objects", "--all-progress-implied", "--revs", "--stdout"], [], none⟩
    : Command).argIf r.thin "--thin").argIf r.ofsDelta "--delta-base-offset").argIf
    (r.quiet || !r.progress) "-q").argIf r.progress "--progress").inRepository gitDir

end PackRequest

end GitRemote
