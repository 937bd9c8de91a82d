import GitRemote.Config.Setting

/-!
# Tables of settings

A settings file is a tree of tables. A table comes to be in one of several ways, and that decides what
may be added to it later: nothing is given twice, and a table in braces is complete.
-/

namespace GitRemote.Config.Toml

/-- How a table came to be. -/
inductive TableForm where
  /-- By a header of its own. -/
  | defined
  /-- By a header of a table in it. -/
  | implied
  /-- By a key with dots. -/
  | dotted
  /-- In braces. -/
  | inline
  /-- By a key with dots in braces. -/
  | inlineDotted
  deriving DecidableEq, Repr

/-- Whether a key with dots made a table. -/
def TableForm.isDotted (form : TableForm) : Bool := form == .dotted || form == .inlineDotted

/-- Whether a table is in braces or in a table that is. -/
def TableForm.isInline (form : TableForm) : Bool := form == .inline || form == .inlineDotted

/-- What stands under a key. -/
inductive Node where
  | single (s : Setting)
  /-- A list of values. -/
  | list
  | table (form : TableForm) (entries : List (String × Node))
  /-- A list of tables, of which only the last can grow. -/
  | tables (last : List (String × Node))
  deriving Repr

/-- What a table holds. -/
abbrev Entries := List (String × Node)

namespace Entries

/-- The entries with one of them set. -/
def put (k : String) (node : Node) : Entries → Entries
  | [] => [(k, node)]
  | (name, old) :: rest => if name = k then (k, node) :: rest else (name, old) :: put k node rest

/-- Changes the table at the end of a path, on which tables that are missing are made. -/
def changeAt? (fresh : TableForm) (mayEnter : TableForm → Bool)
    (change : TableForm → Entries → Option Entries) :
    List String → TableForm → Entries → Option Entries
  | [], form, entries => change form entries
  | k :: path, _, entries =>
    match entries.lookup k with
    | none =>
      (changeAt? fresh mayEnter change path fresh []).map fun sub =>
        entries.put k (.table fresh sub)
    | some (.table form sub) =>
      if mayEnter form then
        (changeAt? fresh mayEnter change path form sub).map fun sub =>
          entries.put k (.table form sub)
      else none
    | some (.tables last) =>
      (changeAt? fresh mayEnter change path .defined last).map fun last =>
        entries.put k (.tables last)
    | some _ => none

/-- What stands at the end of a path. -/
def find? : List String → Entries → Option Node
  | [], _ => none
  | [k], entries => entries.lookup k
  | k :: path, entries =>
    match entries.lookup k with
    | some (.table _ sub) => find? path sub
    | some (.tables last) => find? path last
    | _ => none

/-- Adds a value under a key to a table, in braces or not. A key with dots adds only to tables that keys
with dots have made, and a key without them to any other. -/
def add? (inBraces : Bool) (form : TableForm) (entries : Entries) (key : List String)
    (node : Node) : Option Entries :=
  let fresh : TableForm := if inBraces then .inlineDotted else .dotted
  let mayEnter (form : TableForm) : Bool :=
    if inBraces then form == .inlineDotted else form == .implied || form == .dotted
  match key.getLast? with
  | none => none
  | some last =>
    changeAt? fresh mayEnter
      (fun form entries =>
        if form.isDotted == (key.length == 1) || (entries.lookup last).isSome then none
        else some (entries.put last node))
      key.dropLast form entries

end Entries

/-- The header of a table, or of the next table of a list. -/
structure Header where
  isList : Bool
  key : List String
  deriving DecidableEq, Repr

/-- A file that is being read. -/
structure Draft where
  /-- The tables read so far. -/
  done : Entries := []
  /-- The header of the table that is being read, unless it is the file itself. -/
  header : Option Header := none
  /-- What the table that is being read holds. -/
  entries : Entries := []

namespace Draft

/-- All tables, once the one that is being read has ended. -/
def close? (d : Draft) : Option Entries :=
  match d.header with
  | none => some d.entries
  | some header =>
    match header.key.getLast? with
    | none => none
    | some last =>
      Entries.changeAt? .implied (!·.isInline)
        (fun _ entries =>
          match header.isList, entries.lookup last with
          | true, none | true, some (.tables _) => some (entries.put last (.tables d.entries))
          | false, none | false, some (.table .implied _) =>
            some (entries.put last (.table .defined d.entries))
          | _, _ => none)
        header.key.dropLast .defined d.done

/-- Starts the table below a header. One that headers of tables in it have implied keeps those. -/
def start? (d : Draft) (header : Header) : Option Draft :=
  d.close?.map fun done =>
    let entries :=
      match Entries.find? header.key done with
      | some (.table .implied entries) => if header.isList then [] else entries
      | _ => []
    { done, header := some header, entries }

/-- Adds a value to the table that is being read. -/
def add? (d : Draft) (key : List String) (node : Node) : Option Draft :=
  (d.entries.add? false .defined key node).map fun entries => { d with entries }

end Draft

end GitRemote.Config.Toml
