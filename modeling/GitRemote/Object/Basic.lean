import GitRemote.Object.Error
import GitRemote.Object.Sha1

/-!
# Objects

An object is a kind and a body. Its id is the digest of a header, which names the kind and the
length of the body, followed by the body. Commits and tags have bodies of header lines, an empty
line and a message.
-/

namespace GitRemote

/-- A kind and a body. -/
structure Object where
  kind : ObjectKind
  data : Bytes
  deriving DecidableEq, Repr

namespace Object

/-- The header before the body of an object: kind, length, and a NUL. -/
def header (kind : ObjectKind) (size : Nat) : Bytes :=
  Utf8.encode kind.name ++ 0x20 :: (Text.digitBytes 10 size ++ [0])

/-- Header and body. -/
def framed (o : Object) : Bytes := header o.kind o.data.length ++ o.data

/-- The id of an object. -/
def id (o : Object) : ObjectId := ⟨Sha1.digest o.framed, Sha1.length_digest _⟩

/-- A file's content. -/
def blob (data : Bytes) : Object := ⟨.blob, data⟩

/-- A directory, from its written entries. -/
def tree (entries : Bytes) : Object := ⟨.tree, entries⟩

/-- One header line. -/
def headerLine (key : String) (value : Bytes) : Bytes :=
  Utf8.encode key ++ 0x20 :: (value ++ [0x0A])

/-- A commit of a tree with the given parents. Author and committer are whole ident lines. -/
def commit (tree : ObjectId) (parents : List ObjectId) (author committer message : String) :
    Object :=
  ⟨.commit, headerLine "tree" tree.hexBytes ++
    parents.flatMap (fun p => headerLine "parent" p.hexBytes) ++
    headerLine "author" (Utf8.encode author) ++ headerLine "committer" (Utf8.encode committer) ++
    0x0A :: Utf8.encode message⟩

/-- An annotated tag of an object. -/
def tag (target : Object) (name tagger message : String) : Object :=
  ⟨.tag, headerLine "object" target.id.hexBytes ++
    headerLine "type" (Utf8.encode target.kind.name) ++ headerLine "tag" (Utf8.encode name) ++
    headerLine "tagger" (Utf8.encode tagger) ++ 0x0A :: Utf8.encode message⟩

end Object

end GitRemote
