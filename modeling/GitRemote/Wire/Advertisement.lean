import GitRemote.Push.Ref
import GitRemote.Wire.Capabilities
import GitRemote.Wire.Packet

/-!
# Advertisements of refs

A server that speaks the packet protocol sends one line for each ref, with its capabilities behind a
NUL on the first. A server of plain files has a list in which every line is an id, a tab and a name;
one line of another form spoils all of it.
-/

namespace GitRemote

/-- What a server advertised. -/
structure Advertisement where
  refs : List Ref := []
  capabilities : Capabilities := {}
  /-- Commits whose parents the server does not have. -/
  shallow : List ObjectId := []
  /-- Objects that the server has without a ref. -/
  haves : List ObjectId := []
  deriving DecidableEq, Repr

/-- The id and the name of a line: forty digits, a separator, and a name of at least one byte. -/
def idAndName? (separator : UInt8) (line : Bytes) : Option (ObjectId × String) :=
  match line.drop 40 with
  | b :: name =>
    if b = separator && !name.isEmpty then
      match ObjectId.ofHex? (line.take 40), Utf8.decode? name with
      | some id, some name => some (id, name)
      | _, _ => none
    else none
  | [] => none

namespace Advertisement

/-- A line of an advertisement. -/
inductive Line where
  /-- An id and the name it goes by, and what stands behind a NUL. -/
  | object (id : ObjectId) (name : String) (list : Option Bytes)
  | shallow (id : ObjectId)
  deriving DecidableEq, Repr

namespace Line

/-- Reads a line on an object. -/
def parseObject? (line : Bytes) : Option Line :=
  let (body, list) := (Text.cut? (· == (0 : UInt8)) line).elim (line, none) fun (b, l) => (b, some l)
  (idAndName? 0x20 body).map fun (id, name) => .object id name list

/-- Reads a line. The server can give an error in place of one. -/
def parse (line : Bytes) : Except WireError Line :=
  match Text.after? (bytesOf "ERR ") line with
  | some text => .error (.remote (Utf8.decodeLossy text))
  | none =>
    let read : Option Line :=
      match Text.after? (bytesOf "shallow ") line with
      | some digits => (ObjectId.ofHex? digits).map Line.shallow
      | none => parseObject? line
    read.elim (.error (.advertisement (.badLine line))) .ok

/-- Whether a name is that of a peeled tag or the placeholder for "no refs". -/
def isPeeled (name : String) : Bool := (Text.stripEnd? "^\x7b\x7d" name).isSome

/-- The ref that a line gives. Peeled names and objects without a name of their own are none. -/
def ref? : Line → Option Ref
  | .object id name _ => if name = ".have" || isPeeled name then none else some { name, oldId := id }
  | .shallow _ => none

/-- The object that a line gives without a ref. -/
def unnamed? : Line → Option ObjectId
  | .object id name _ => if name = ".have" then some id else none
  | .shallow _ => none

/-- The shallow commit that a line gives. -/
def shallow? : Line → Option ObjectId
  | .object .. => none
  | .shallow id => some id

/-- What a line has behind a NUL, if it is on an object. -/
def list? : Line → Option (Option Bytes)
  | .object _ _ list => some list
  | .shallow _ => none

end Line

/-- Reads lines up to a flush packet. -/
def readLines (s : Bytes) : Except WireError (List Line) × Bytes :=
  match _h : Packet.readLine s with
  | (.error e, rest) => (.error e, rest)
  | (.ok none, rest) => (.ok [], rest)
  | (.ok (some raw), rest) =>
    match Line.parse raw with
    | .error e => (.error e, rest)
    | .ok line =>
      match readLines rest with
      | (.error e, rest) => (.error e, rest)
      | (.ok lines, rest) => (.ok (line :: lines), rest)
termination_by s.length
decreasing_by exact Packet.length_readLine_lt _h

/-- The capabilities that stand on the first line on an object. -/
def capabilitiesOf (lines : List Line) : Capabilities :=
  match lines.findSome? Line.list? with
  | some (some list) => .parse (Utf8.decodeLossy list)
  | _ => {}

/-- Attaches the target that a `symref` value gives to the first ref of the name it gives. -/
def attachSymref (refs : List Ref) (value : String) : List Ref :=
  match Text.cutAt? ':' value with
  | none => refs
  | some (name, target) =>
    match findRef refs name with
    | none => refs
    | some i => refs.modify i fun r => { r with symref := some target }

/-- The advertisement that some lines make. The targets of symbolic refs are among the
capabilities. -/
def ofLines (lines : List Line) : Advertisement :=
  let capabilities := capabilitiesOf lines
  { refs := (capabilities.values "symref").foldl attachSymref (lines.filterMap Line.ref?)
    capabilities
    shallow := lines.filterMap Line.shallow?
    haves := lines.filterMap Line.unnamed? }

/-- Reads an advertisement in packets, up to and with the flush packet that ends it. -/
def read (s : Bytes) : Except WireError Advertisement × Bytes :=
  match readLines s with
  | (.ok lines, rest) => (.ok (ofLines lines), rest)
  | (.error e, rest) => (.error e, rest)

end Advertisement

/-- The ref of a line in a list of plain files. A name holds neither tab nor NUL. -/
def infoRef? (line : Bytes) : Option Ref :=
  match idAndName? 0x09 line with
  | none => none
  | some (id, name) =>
    if name.toList.contains '\t' || name.toList.contains '\x00' then none
    else some { name, oldId := id }

/-- Reads a list of plain files. Every line must have the right form and end in a line feed. -/
def parseInfoRefs (buf : Bytes) : Except WireError (List Ref) :=
  let lines := Text.splitOn (· == (0x0A : UInt8)) buf
  match if lines.getLast? = some [] then lines.dropLast.mapM infoRef? else none with
  | some refs => .ok refs
  | none => .error (.advertisement .notInfoRefs)

end GitRemote
