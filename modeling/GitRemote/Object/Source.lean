import GitRemote.Object.Basic

/-!
# Sources of objects

Whatever can look objects up by id. A source may fail; an object that it does not have is no failure.
-/

namespace GitRemote

/-- Read access to objects. -/
structure ObjectSource where
  /-- The object with an id, if the source has it. -/
  read : ObjectId → Except StorageError (Option Object)
  /-- Whether the source has an object. -/
  contains : ObjectId → Except StorageError Bool := fun id => (read id).map Option.isSome

namespace ObjectSource

/-- The object with an id, which has to be there and of the expected kind. -/
def readKind (source : ObjectSource) (id : ObjectId) (expected : ObjectKind) :
    Except StorageError Object :=
  match source.read id with
  | .error e => .error e
  | .ok none => .error (.notFound id)
  | .ok (some o) =>
    if o.kind = expected then .ok o else .error (.wrongKind id o.kind expected)

/-- The body of a tree. -/
def readTree (source : ObjectSource) (id : ObjectId) : Except StorageError Bytes :=
  (source.readKind id .tree).map Object.data

end ObjectSource

/-- Objects kept in memory, each under its id. -/
structure ObjectStore where
  objects : List (ObjectId × Object) := []

namespace ObjectStore

/-- The object with an id. -/
def find? (store : ObjectStore) (id : ObjectId) : Option Object := store.objects.lookup id

/-- Adds an object; one that is there stays. -/
def insert (store : ObjectStore) (o : Object) : ObjectStore :=
  let id := o.id
  match store.find? id with
  | some _ => store
  | none => ⟨store.objects ++ [(id, o)]⟩

/-- The number of distinct objects. -/
def size (store : ObjectStore) : Nat := store.objects.length

/-- The store with these objects. -/
def ofList (objects : List Object) : ObjectStore := objects.foldl insert {}

/-- Reading from memory never fails. -/
def source (store : ObjectStore) : ObjectSource where
  read id := .ok (store.find? id)

end ObjectStore

end GitRemote
