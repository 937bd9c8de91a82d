import GitRemote.Object.Source
import GitRemote.Text.Blank
import GitRemote.Zlib.Inflate

/-!
# Loose objects

A loose object is a zlib stream of header and body. A directory of loose objects holds one such file
for an id, below a directory that is named for the first byte of the id. Which stream is written is the
choice of a compressor.
-/

namespace GitRemote

namespace Object

/-- The loose form of an object, which a compressor makes. -/
def toLoose (deflate : Bytes → Bytes) (o : Object) : Bytes := deflate o.framed

/-- The object with this header and body; the header's length must be the body's. -/
def ofFramed (raw : Bytes) : Except StorageError Object :=
  match Text.cut? (· == (0 : UInt8)) raw with
  | none => .error (.invalid .looseNoHeader)
  | some (head, body) =>
    match Utf8.decode? head with
    | none => .error (.invalid .looseHeaderNotText)
    | some text =>
      match Text.cutAt? ' ' text with
      | none => .error (.invalid .looseMalformedHeader)
      | some (name, length) =>
        match ObjectKind.ofName name with
        | .error e => .error e
        | .ok kind =>
          match Text.natural? Text.wordBound length with
          | none => .error (.invalid .looseBadLength)
          | some n =>
            if body.length = n then .ok ⟨kind, body⟩
            else .error (.invalid (.looseLengthMismatch n body.length))

/-- Reads the loose form of an object. -/
def ofLoose (compressed : Bytes) : Except StorageError Object :=
  match Zlib.inflate? compressed with
  | none => .error .compression
  | some raw => ofFramed raw

end Object

/-- Where the loose object with an id is kept, below the directory of objects. -/
def ObjectId.loosePath (id : ObjectId) : String :=
  String.ofList (id.hex.toList.take 2) ++ "/" ++ String.ofList (id.hex.toList.drop 2)

/-- The files of a directory of loose objects. -/
structure LooseDir where
  files : List (ObjectId × Bytes) := []

namespace LooseDir

/-- The file of an object. -/
def file? (dir : LooseDir) (id : ObjectId) : Option Bytes := dir.files.lookup id

/-- Adds a file; one that is there stays. -/
def addFile (dir : LooseDir) (id : ObjectId) (compressed : Bytes) : LooseDir :=
  match dir.file? id with
  | some _ => dir
  | none => ⟨dir.files ++ [(id, compressed)]⟩

/-- Replaces a file by raw data, whatever it is. -/
def setFile (dir : LooseDir) (id : ObjectId) (raw : Bytes) : LooseDir :=
  ⟨dir.files.filter (·.1 != id) ++ [(id, raw)]⟩

/-- Adds an object, in the form that a compressor makes. -/
def write (deflate : Bytes → Bytes) (dir : LooseDir) (o : Object) : LooseDir :=
  dir.addFile o.id (o.toLoose deflate)

/-- Adds a file that came from elsewhere, after checking that it holds the object it is named for. -/
def writeCompressed (dir : LooseDir) (id : ObjectId) (compressed : Bytes) :
    Except StorageError LooseDir :=
  match Object.ofLoose compressed with
  | .error e => .error e
  | .ok o =>
    if o.id = id then .ok (dir.addFile id compressed)
    else .error (.invalid (.hashesTo id o.id))

/-- The object with an id; its file must hold it. -/
def read (dir : LooseDir) (id : ObjectId) : Except StorageError (Option Object) :=
  match dir.file? id with
  | none => .ok none
  | some compressed =>
    match Object.ofLoose compressed with
    | .error e => .error e
    | .ok o => if o.id = id then .ok (some o) else .error (.invalid (.corruptFile id))

/-- A directory as a source. It has an object as soon as it has its file. -/
def source (dir : LooseDir) : ObjectSource where
  read := dir.read
  contains id := .ok (dir.file? id).isSome

/-- The paths of the files, in ascending order. -/
def paths (dir : LooseDir) : List String :=
  ((dir.files.map (·.1)).mergeSort ObjectId.le).map ObjectId.loosePath

end LooseDir

end GitRemote
