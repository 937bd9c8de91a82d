import GitRemote.Process.Program
import GitRemote.Push.Matching

/-!
# Repositories behind git

A repository that is known through commands of git only. A command that exits with one says "no";
every other failure is an error.
-/

namespace GitRemote

/-- How to ask git about a repository. -/
structure Plumbing where
  program : String
  gitDir : Option String := none
  deriving DecidableEq, Repr

namespace Plumbing

/-- The command with some arguments. -/
def command (p : Plumbing) (args : List String) : Command :=
  ({ program := p.program, args } : Command).inRepository p.gitDir

/-- What a command answered. -/
def answer (output : Bytes) : Except WireError Unit → Except WireError (Option Bytes)
  | .ok () => .ok (some output)
  | .error (.program _ (.exited 1)) => .ok none
  | .error e => .error e

/-- Asks git. -/
def ask (p : Plumbing) (args : List String) (h : Host) : Except WireError (Option Bytes) × Host :=
  match h.run (p.command args) [] with
  | (.error e, h) => (.error e, h)
  | (.ok (output, verdict), h) => (answer output verdict, h)

/-- An answer of git as text, without blanks around it. -/
def word (output : Bytes) : String := Text.trim (Utf8.decodeLossy output)

/-- A failure to read an object. -/
def unreadable (e : WireError) : StorageError := .io e.message

/-- The object with an id: its kind first, and then its content. -/
def read (p : Plumbing) (id : ObjectId) (h : Host) : Except StorageError (Option Object) × Host :=
  match p.ask ["cat-file", "-t", id.hex] h with
  | (.error e, h) => (.error (unreadable e), h)
  | (.ok none, h) => (.ok none, h)
  | (.ok (some kindText), h) =>
    match ObjectKind.ofName (word kindText) with
    | .error e => (.error e, h)
    | .ok kind =>
      match p.ask ["cat-file", kind.name, id.hex] h with
      | (.error e, h) => (.error (unreadable e), h)
      | (.ok none, h) => (.error (.notFound id), h)
      | (.ok (some data), h) => (.ok (some ⟨kind, data⟩), h)

/-- Whether there is an object with an id. -/
def contains (p : Plumbing) (id : ObjectId) (h : Host) : Except StorageError Bool × Host :=
  let (r, h) := p.ask ["cat-file", "-e", id.hex] h
  ((r.mapError unreadable).map Option.isSome, h)

/-- The object that a name stands for. -/
def resolve (p : Plumbing) (name : String) (h : Host) :
    Except RemoteError (Option ObjectId) × Host :=
  match p.ask ["rev-parse", "--verify", "--quiet", name] h with
  | (.error e, h) => (.error (.wire e), h)
  | (.ok none, h) => (.ok none, h)
  | (.ok (some output), h) =>
    (liftStorage ((ObjectId.parse (Utf8.encode (word output))).map some), h)

/-- Whether a commit is another one or comes before it. -/
def isAncestor (p : Plumbing) (ancestor descendant : ObjectId) (h : Host) :
    Except RemoteError Bool × Host :=
  let (r, h) := p.ask ["merge-base", "--is-ancestor", ancestor.hex, descendant.hex] h
  ((liftWire r).map Option.isSome, h)

/-- The repository as a push sees it, on a host that the questions leave as it is. -/
def repository (p : Plumbing) (h : Host) : LocalRepository where
  source :=
    { read := fun id => (p.read id h).1
      contains := fun id => (p.contains id h).1 }
  resolve name := (p.resolve name h).1
  isAncestor a d := (p.isAncestor a d h).1

end Plumbing

end GitRemote
