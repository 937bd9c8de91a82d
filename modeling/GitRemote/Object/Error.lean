import GitRemote.Object.Id

/-!
# Kinds of objects, and what can be wrong with one

The four kinds of objects, and the errors met while reading objects, each with its message.
-/

namespace GitRemote

/-- What an object is. -/
inductive ObjectKind where
  | blob
  | tree
  | commit
  | tag
  deriving DecidableEq, Repr

/-- The name of a kind in object headers. -/
def ObjectKind.name : ObjectKind → String
  | .blob => "blob"
  | .tree => "tree"
  | .commit => "commit"
  | .tag => "tag"

instance : ToString ObjectKind := ⟨ObjectKind.name⟩

/-- What makes some data, or a name for it, unusable as an object. -/
inductive InvalidObject where
  /-- The id is not written as an id. -/
  | badId (cause : ObjectIdError)
  /-- The header names no kind of object. -/
  | unknownKind (name : String)
  /-- A loose object without the NUL that ends the header. -/
  | looseNoHeader
  /-- A loose object whose header is not text. -/
  | looseHeaderNotText
  /-- A loose object whose header has no blank. -/
  | looseMalformedHeader
  /-- A loose object whose header gives no length. -/
  | looseBadLength
  /-- A loose object whose header gives another length than its body has. -/
  | looseLengthMismatch (said has : Nat)
  /-- The data belongs to another object than the one it was sent for. -/
  | hashesTo (expected actual : ObjectId)
  /-- The file of an object holds another one. -/
  | corruptFile (id : ObjectId)
  /-- The source has a reason of its own. -/
  | unreadable (reason : String)
  deriving DecidableEq, Repr

/-- The message for an unusable object. -/
def InvalidObject.message : InvalidObject → String
  | .badId cause => cause.message
  | .unknownKind name => "unknown object type '" ++ name ++ "'"
  | .looseNoHeader => "loose object: no header"
  | .looseHeaderNotText => "loose object: header is not text"
  | .looseMalformedHeader => "loose object: malformed header"
  | .looseBadLength => "loose object: bad length"
  | .looseLengthMismatch said has =>
    "loose object: header says " ++ toString said ++ " bytes, body has " ++ toString has
  | .hashesTo expected actual => "object " ++ expected.hex ++ " hashes to " ++ actual.hex
  | .corruptFile id => "object file " ++ id.hex ++ " is corrupt"
  | .unreadable reason => reason

/-- Why an object could not be read or written. -/
inductive StorageError where
  | io (text : String)
  | notFound (id : ObjectId)
  | wrongKind (id : ObjectId) (actual expected : ObjectKind)
  | invalid (cause : InvalidObject)
  /-- The compressed data is malformed. -/
  | compression
  deriving DecidableEq, Repr

/-- The message for a storage error. -/
def StorageError.message : StorageError → String
  | .io text => "I/O error: " ++ text
  | .notFound id => "object not found: " ++ id.hex
  | .wrongKind id actual expected =>
    "object " ++ id.hex ++ " is a " ++ actual.name ++ ", expected a " ++ expected.name
  | .invalid cause => "invalid object: " ++ cause.message
  | .compression => "compression error: corrupt deflate stream"

/-- The kind with the given name. -/
def ObjectKind.ofName (name : String) : Except StorageError ObjectKind :=
  if name = "blob" then .ok .blob
  else if name = "tree" then .ok .tree
  else if name = "commit" then .ok .commit
  else if name = "tag" then .ok .tag
  else .error (.invalid (.unknownKind name))

/-- Reads an object id, as a storage operation. -/
def ObjectId.parse (digits : Bytes) : Except StorageError ObjectId :=
  (ObjectId.ofHex digits).mapError fun e => .invalid (.badId e)

end GitRemote
