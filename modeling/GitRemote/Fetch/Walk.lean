import GitRemote.Http.Client
import GitRemote.Object.Links
import GitRemote.Object.Loose
import GitRemote.Tree.Cursor

/-!
# Fetching file by file

From a server of plain files, objects are fetched one by one: those that are wanted, and all that they
link to, each once and only if it is not there already. An entry of a tree that names a commit belongs
to another repository and is not followed.
-/

namespace GitRemote

/-- A fetch under way: what is fetched with and where to. -/
structure Fetch where
  client : Http.Client
  dir : LooseDir := {}
  /-- The number of objects fetched so far. -/
  fetched : Nat := 0

/-- An object to visit, and how many trees it is nested in. -/
structure Target where
  id : ObjectId
  depth : Nat := 0
  deriving DecidableEq, Repr

/-- What entries link to, one level deeper. -/
def entryTargets (depth : Nat) (entries : List Entry) : List Target :=
  (entries.filter (!·.isGitlink)).map fun e => ⟨e.id, depth + 1⟩

/-- What an object at a depth links to. Trees must not be nested deeper than `limit`. -/
def Object.targets (limit depth : Nat) (o : Object) : Except RemoteError (List Target) :=
  match o.kind with
  | .commit => (liftStorage (headerLinks ["tree", "parent"] o.data)).map (·.map (⟨·, 0⟩))
  | .tag => (liftStorage (headerLinks ["object"] o.data)).map (·.map (⟨·, 0⟩))
  | .blob => .ok []
  | .tree =>
    if limit ≤ depth then .error (.failed .treeTooDeep)
    else
      let c := Cursor.scan o.data
      match c.fault with
      | some e => .error (.tree e)
      | none => .ok (entryTargets depth c.entries)

namespace Fetch

/-- Fetches the object with an id. -/
def download (base : String) (f : Fetch) (id : ObjectId) : Except RemoteError Object × Fetch :=
  let url := base ++ "objects/" ++ id.loosePath
  match f.client.send (.get url) with
  | (.error e, client) => (.error e, { f with client })
  | (.ok response, client) =>
    let f := { f with client }
    if response.isSuccess then
      match f.dir.writeCompressed id response.body with
      | .error e => (.error (.storage e), f)
      | .ok dir => (liftStorage (Object.ofLoose response.body), { f with dir, fetched := f.fetched + 1 })
    else if response.status = 404 then (.error (.failed (.objectMissing id base)), f)
    else (.error (.access url response.status response.remark?), f)

/-- The object with an id, fetched if it is not there. -/
def object (base : String) (f : Fetch) (id : ObjectId) : Except RemoteError Object × Fetch :=
  match f.dir.read id with
  | .error e => (.error (.storage e), f)
  | .ok (some o) => (.ok o, f)
  | .ok none => f.download base id

/-- Visits what is in a queue and all that it links to. Every step visits a further object, which is
there already or takes a response, so `fuel` need not exceed the number of both. -/
def visitAll (base : String) (limit : Nat) :
    Nat → List ObjectId → List Target → Fetch → Except RemoteError Unit × Fetch
  | 0, _, _, f => (.ok (), f)
  | fuel + 1, seen, queue, f =>
    match queue.dropWhile fun t => seen.contains t.id with
    | [] => (.ok (), f)
    | t :: rest =>
      match f.object base t.id with
      | (.error e, f) => (.error e, f)
      | (.ok o, f) =>
        match o.targets limit t.depth with
        | .error e => (.error e, f)
        | .ok links => visitAll base limit fuel (t.id :: seen) (rest ++ links) f

/-- Makes everything present that some ids reach. -/
def run (base : String) (limit : Nat) (ids : List ObjectId) (f : Fetch) :
    Except RemoteError Unit × Fetch :=
  visitAll base limit (f.dir.files.length + f.client.server.responses.length + 1) []
    (ids.map (⟨·, 0⟩)) f

end Fetch

end GitRemote
