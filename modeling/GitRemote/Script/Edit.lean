import GitRemote.Script.Filter

/-!
# Line editing of shell scripts

The commands of `sed`: each may have addresses that choose its lines, and it changes, prints or drops
the line at hand. `Edit.readAll` reads commands from text and `Edit.filter` runs them on all lines.

Like all of `Script` it only serves to run commands: no result is about it, and none needs it.
-/

namespace GitRemote.Script

/-- What chooses a line. -/
inductive Address where
  | line (n : Nat)
  | last
  | matching (r : Regex)

/-- A piece of the text that replaces a match. -/
inductive Replacement where
  | text (b : Bytes)
  /-- What a group matched; group zero is the whole match. -/
  | group (n : Nat)

/-- What is done to the line at hand. -/
inductive Action where
  /-- Replaces the match of this number, and all later ones too if `all` is set. -/
  | substitute (r : Regex) (parts : List Replacement) (nth : Nat) (all print : Bool)
  | print
  | delete
  | quit (silent : Bool) (status : Nat)
  | number
  | exchange (source target : Bytes)
  | append (text : Bytes)
  | insert (text : Bytes)
  | change (text : Bytes)
  | nextLine
  /-- Goes into a block of so many commands. -/
  | enter (size : Nat)

/-- How many commands an action leaves out behind it where it does not apply. -/
def Action.inside : Action → Nat
  | .enter n => n
  | _ => 0

/-- A command with its addresses. -/
structure Edit where
  first : Option Address := none
  second : Option Address := none
  negated : Bool := false
  action : Action

namespace Edit

/-- Text up to a delimiter, in which a backslash keeps the delimiter. -/
def untilDelimiter (delimiter : UInt8) : Bytes → Option (Bytes × Bytes)
  | [] => none
  | 0x5C :: b :: bs =>
    (untilDelimiter delimiter bs).map fun (t, r) =>
      (if b = delimiter then b :: t else 0x5C :: b :: t, r)
  | b :: bs =>
    if b = delimiter then some ([], bs) else (untilDelimiter delimiter bs).map fun (t, r) => (b :: t, r)

/-- The pieces of a replacement. -/
def replacement : Bytes → List Replacement
  | [] => []
  | 0x5C :: b :: bs =>
    if 0x30 ≤ b ∧ b ≤ 0x39 then .group (b.toNat - 0x30) :: replacement bs
    else if b = 0x6E then .text [0x0A] :: replacement bs
    else if b = 0x74 then .text [0x09] :: replacement bs
    else .text [b] :: replacement bs
  | 0x26 :: bs => .group 0 :: replacement bs
  | b :: bs => .text [b] :: replacement bs

/-- An expression with the escapes of single characters replaced. -/
def plainEscapes : Bytes → Bytes
  | [] => []
  | 0x5C :: b :: bs =>
    match if b = 0x5C || b = 0x62 then none else letterEscape? b with
    | some x => x :: plainEscapes bs
    | none => 0x5C :: b :: plainEscapes bs
  | b :: bs => b :: plainEscapes bs

/-- Reads an expression. -/
def expression? (extended : Bool) (b : Bytes) : Option Regex := Regex.read extended (plainEscapes b)

/-- Drops blanks. -/
def skip (b : Bytes) : Bytes := b.dropWhile fun x => x == 0x20 || x == 0x09

/-- An address at the front of a text. -/
def address? (extended : Bool) (b : Bytes) : Option (Address × Bytes) :=
  match b with
  | 0x24 :: bs => some (.last, bs)
  | 0x2F :: bs =>
    (untilDelimiter 0x2F bs).bind fun (t, r) =>
      (expression? extended t).map fun re =>
        let folded := r.head? == some 0x49
        (.matching (if folded then re.foldCase else re), if folded then r.drop 1 else r)
  | bs =>
    let digits := bs.takeWhile fun x => (Text.digitValue? 10 x).isSome
    (Text.digits? 10 digits).map fun n => (.line n, bs.drop digits.length)

/-- The flags behind a substitution: number, all, print and either case. -/
def substituteFlags : Nat → (Nat × Bool × Bool × Bool) → Bytes → (Nat × Bool × Bool × Bool) × Bytes
  | 0, f, bs => (f, bs)
  | _ + 1, f, [] => (f, [])
  | fuel + 1, (nth, all, print, fold), b :: bs =>
    if b = 0x67 then substituteFlags fuel (nth, true, print, fold) bs
    else if b = 0x70 then substituteFlags fuel (nth, all, true, fold) bs
    else if b = 0x69 || b = 0x49 then substituteFlags fuel (nth, all, print, true) bs
    else
      let digits := (b :: bs).takeWhile fun x => (Text.digitValue? 10 x).isSome
      match Text.digits? 10 digits with
      | some n => substituteFlags fuel (n, all, print, fold) ((b :: bs).drop digits.length)
      | none => ((nth, all, print, fold), b :: bs)

/-- The text of an appending command: the rest of its line, or the next line behind a backslash. -/
def lineText (b : Bytes) : Bytes × Bytes :=
  let b := skip b
  let b :=
    match b with
    | 0x5C :: 0x0A :: bs => bs
    | 0x5C :: bs => skip bs
    | bs => bs
  let t := b.takeWhile (· != 0x0A)
  (t ++ [0x0A], b.drop (t.length + 1))

/-- An action at the front of a text. A block has no size yet. -/
def action? (extended : Bool) (b : UInt8) (bs : Bytes) : Option (Action × Bytes) :=
  if b = 0x70 then some (.print, bs)
  else if b = 0x64 then some (.delete, bs)
  else if b = 0x3D then some (.number, bs)
  else if b = 0x6E then some (.nextLine, bs)
  else if b = 0x7B then some (.enter 0, bs)
  else if b = 0x71 || b = 0x51 then
    let bs := skip bs
    let digits := bs.takeWhile fun x => (Text.digitValue? 10 x).isSome
    some (.quit (b == 0x51) ((Text.digits? 10 digits).getD 0), bs.drop digits.length)
  else if b = 0x61 then some (.append (lineText bs).1, (lineText bs).2)
  else if b = 0x69 then some (.insert (lineText bs).1, (lineText bs).2)
  else if b = 0x63 then some (.change (lineText bs).1, (lineText bs).2)
  else if b = 0x73 || b = 0x79 then
    match bs with
    | [] => none
    | delimiter :: bs =>
      (untilDelimiter delimiter bs).bind fun (source, bs) =>
        (untilDelimiter delimiter bs).bind fun (target, bs) =>
          if b = 0x79 then some (.exchange source target, bs)
          else
            let ((nth, all, print, fold), bs) := substituteFlags (bs.length + 1) (1, false, false, false) bs
            (expression? extended source).map fun r =>
              (.substitute (if fold then r.foldCase else r) (replacement target) nth all print, bs)
  else none

/-- Whether a byte stands between commands. -/
def isBetween (b : UInt8) : Bool := b == 0x20 || b == 0x09 || b == 0x0A || b == 0x3B

/-- Reads commands up to the end, or up to a closing brace; a block is followed by its commands. -/
def readAll (extended : Bool) : Nat → Bytes → Option (List Edit × Bytes)
  | 0, _ => none
  | fuel + 1, b =>
    match b.dropWhile isBetween with
    | [] => some ([], [])
    | 0x7D :: bs => some ([], bs)
    | b =>
      let (first, b) : Option Address × Bytes :=
        match address? extended b with
        | some (a, r) => (some a, r)
        | none => (none, b)
      let (second, b) : Option Address × Bytes :=
        match first, b with
        | some _, 0x2C :: r =>
          match address? extended r with
          | some (a, r) => (some a, r)
          | none => (none, b)
        | _, b => (none, b)
      let b := skip b
      let negated := b.head? == some 0x21
      let b := if negated then skip (b.drop 1) else b
      match b with
      | [] => none
      | x :: bs =>
        match action? extended x bs with
        | none => none
        | some (.enter _, bs) =>
          (readAll extended fuel bs).bind fun (inner, bs) =>
            (readAll extended fuel bs).map fun (es, r) =>
              (⟨first, second, negated, .enter inner.length⟩ :: (inner ++ es), r)
        | some (action, bs) =>
          (readAll extended fuel bs).map fun (es, r) => (⟨first, second, negated, action⟩ :: es, r)

/-- The state of editing. -/
structure State where
  /-- The line at hand. -/
  space : Bytes := []
  number : Nat := 0
  rest : List Bytes := []
  output : Bytes := []
  /-- What is printed when the line is done. -/
  appended : Bytes := []
  /-- The commands whose range of lines has begun. -/
  begun : List Nat := []
  /-- The last line has no end, and has been printed so. -/
  uneven : Bool := false
  owed : Bool := false

/-- What is next after a command. -/
inductive Step where
  | onward
  | nextCycle
  | finished (status : Nat)

/-- Whether an address chooses the line at hand. -/
def State.chosen (s : State) : Address → Bool
  | .line n => s.number == n
  | .last => s.rest.isEmpty
  | .matching r => (r.find? s.space).isSome

/-- Whether a command is for the line at hand, and the state in which its range has begun or ended. -/
def applies (i : Nat) (e : Edit) (s : State) : Bool × State :=
  let (b, s) : Bool × State :=
    match e.first, e.second with
    | none, _ => (true, s)
    | some a, none => (s.chosen a, s)
    | some a, some z =>
      if s.begun.contains i then
        let ended : Bool :=
          match z with
          | .line n => n ≤ s.number
          | z => s.chosen z
        let beyond : Bool :=
          match z with
          | .line n => n < s.number
          | _ => false
        if beyond then (s.chosen a, { s with begun := s.begun.filter (· != i) })
        else (true, if ended then { s with begun := s.begun.filter (· != i) } else s)
      else if s.chosen a then
        let single : Bool :=
          match z with
          | .line n => n ≤ s.number
          | _ => false
        (true, if single then s else { s with begun := i :: s.begun })
      else (false, s)
  (b != e.negated, s)

/-- A replacement for a match. -/
def replaced (parts : List Replacement) (m : Regex.Match) : Bytes :=
  parts.flatMap fun
    | .text b => b
    | .group 0 => m.text
    | .group n => (m.groups.lookup n).getD []

/-- Replaces matches in a text, and tells whether there was one to replace. An empty match does not
count where another one ends. -/
def substitute (r : Regex) (parts : List Replacement) (nth : Nat) (all : Bool) :
    Nat → Bool → Nat → Bytes → Bytes → Bytes × Bool
  | 0, _, _, before, text => (before ++ text, false)
  | fuel + 1, touching, count, before, text =>
    match r.findFrom (before ++ text) before text with
    | none => (before ++ text, false)
    | some m =>
      let beyond (touching : Bool) (count : Nat) (kept : Bytes) (hit : Bool) : Bytes × Bool :=
        if !m.text.isEmpty then
          let (t, more) := substitute r parts nth all fuel touching count (m.before ++ kept) m.behind
          (t, hit || more)
        else
          match m.behind with
          | [] => (m.before ++ kept, hit)
          | b :: behind =>
            let (t, more) :=
              substitute r parts nth all fuel false count (m.before ++ kept ++ [b]) behind
            (t, hit || more)
      if touching && m.text.isEmpty && m.before.length == before.length then beyond false count [] false
      else
        let hit := count == nth || (all && nth ≤ count)
        let kept := if hit then replaced parts m else m.text
        if hit && !all then (m.before ++ kept ++ m.behind, true) else beyond true (count + 1) kept hit

/-- Prints lines; an end that the one before lacks comes first. -/
def State.put (s : State) (b : Bytes) : State :=
  if b.isEmpty then s
  else { s with output := s.output ++ (if s.owed then [0x0A] else []) ++ b, owed := false }

/-- Prints a text as a line, which has no end if it is the last one and that has none. -/
def State.print (s : State) (b : Bytes) : State :=
  let bare := s.uneven && s.rest.isEmpty
  { s with
    output := s.output ++ (if s.owed then [0x0A] else []) ++ b ++ (if bare then [] else [0x0A])
    owed := bare }

/-- Ends the work on a line. -/
def State.close (s : State) (quiet : Bool) : State :=
  let s := if quiet then s else s.print s.space
  { s.put s.appended with appended := [] }

/-- Does an action. -/
def perform (quiet : Bool) (s : State) : Action → Step × State
  | .substitute r parts nth all print =>
    let (t, hit) := substitute r parts nth all (s.space.length + 2) false 1 [] s.space
    let s := { s with space := t }
    (.onward, if hit && print then s.print t else s)
  | .print => (.onward, s.print s.space)
  | .delete => (.nextCycle, { s.put s.appended with appended := [] })
  | .quit silent status =>
    (.finished status, if silent then s else s.close quiet)
  | .number => (.onward, s.print (Text.digitBytes 10 s.number))
  | .exchange source target => (.onward, { s with space := s.space.map (exchange source target) })
  | .append text => (.onward, { s with appended := s.appended ++ text })
  | .insert text => (.onward, s.put text)
  | .change text => (.nextCycle, s.put text)
  | .nextLine =>
    match s.rest with
    | [] => (.finished 0, s.close quiet)
    | l :: rest => (.onward, { s.close quiet with space := l, number := s.number + 1, rest })
  | .enter _ => (.onward, s)

/-- Runs commands from a position on, for one line. A status ends the editing. -/
def cycle (quiet : Bool) (i : Nat) (es : List Edit) (s : State) : Option Nat × State :=
  match es with
  | [] => (none, s.close quiet)
  | e :: es =>
    let (applicable, s) := applies i e s
    if applicable then
      match perform quiet s e.action with
      | (.onward, s) => cycle quiet (i + 1) es s
      | (.nextCycle, s) => (none, s)
      | (.finished status, s) => (some status, s)
    else cycle quiet (i + 1 + e.action.inside) (es.drop e.action.inside) s
  termination_by es.length
  decreasing_by
    · simp
    · simp only [List.length_drop, List.length_cons]
      omega

/-- Runs commands on all lines. -/
def runAll (quiet : Bool) (es : List Edit) : Nat → State → Bytes × Nat
  | 0, s => (s.output, 0)
  | fuel + 1, s =>
    match s.rest with
    | [] => (s.output, 0)
    | l :: rest =>
      match cycle quiet 0 es { s with space := l, number := s.number + 1, rest } with
      | (some status, s) => (s.output, status)
      | (none, s) => runAll quiet es fuel s

/-- The filter that commands make. A last line without an end is printed without one. -/
def filter (quiet : Bool) (es : List Edit) : Filter := fun sources =>
  let b := contentOf sources
  let uneven := !b.isEmpty && b.getLast? != some 0x0A
  runAll quiet es (b.length + 1) { rest := linesOf b, uneven }

/-- The filter that arguments describe, and its sources. -/
def ofArgs (args : List Bytes) : Option (Filter × List Bytes) :=
  let g := given "ef" args
  let named := (g.options.filter (·.1 == 0x65)).map (·.2)
  let (scripts, files) :=
    if named.isEmpty then (g.operands.take 1, g.operands.drop 1) else (named, g.operands)
  let text := ([0x0A] : Bytes).intercalate scripts
  match readAll (g.has 'E' || g.has 'r') (text.length + 1) text with
  | some (es, []) => some (filter (g.has 'n') es, files)
  | _ => none

end Edit

end GitRemote.Script
