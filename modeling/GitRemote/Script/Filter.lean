import GitRemote.Object.Id
import GitRemote.Object.Sha1
import GitRemote.Script.Arithmetic
import GitRemote.Script.Format
import GitRemote.Script.Regex
import GitRemote.Text.Blank

/-!
# Filters of shell scripts

The utilities that read all of some sources and print something about them or made of them, such as
their lines in order. `filter?` finds one by its name and arguments.

Like all of `Script` it only serves to run commands: no result is about it, and none needs it.
-/

namespace GitRemote.Script

/-- Something that is read: a named file, or the input. -/
structure Source where
  name : Option Bytes := none
  content : Bytes

/-- What a filter makes of its sources: what it prints, and its status. -/
abbrev Filter := List Source → Bytes × Nat

/-- The content of all sources. -/
def contentOf (sources : List Source) : Bytes := sources.flatMap (·.content)

/-- The lines of a text with their ends, which the last one may lack. -/
def lineRuns (b : Bytes) : List Bytes := b.splitBy fun x _ => x != 0x0A

/-- A line without its end. -/
def dropEnd (l : Bytes) : Bytes := if l.getLast? = some 0x0A then l.dropLast else l

/-- The lines of a text without their ends. -/
def linesOf (b : Bytes) : List Bytes := (lineRuns b).map dropEnd

/-- Lines with an end behind each. -/
def unlines (ls : List Bytes) : Bytes := ls.flatMap (· ++ [0x0A])

/-- A filter on the lines of all sources. -/
def ofLines (f : List Bytes → List Bytes) : Filter := fun sources =>
  (unlines (f (linesOf (contentOf sources))), 0)

/-- The options and operands of a utility. -/
structure Given where
  options : List (UInt8 × Bytes) := []
  operands : List Bytes := []

namespace Given

/-- Whether an option is given by its letter. -/
def has (g : Given) (letter : Char) : Bool :=
  g.options.any fun (l, _) => l == UInt8.ofNat letter.toNat

/-- The value of an option. -/
def value? (g : Given) (letter : Char) : Option Bytes := g.options.lookup (UInt8.ofNat letter.toNat)

/-- The number that is the value of an option. -/
def number? (g : Given) (letter : Char) : Option Int := (g.value? letter).map fun b => (integer b).1

/-- The options in a cluster of letters: the last may have its value in the rest of the cluster or in
the next argument. -/
def cluster (valued : List UInt8) : Bytes → List Bytes → List (UInt8 × Bytes) × List Bytes
  | [], args => ([], args)
  | l :: ls, args =>
    if valued.contains l then
      if ls.isEmpty then ([(l, args.headD [])], args.tail) else ([(l, ls)], args)
    else
      let (more, args) := cluster valued ls args
      ((l, []) :: more, args)

/-- Reads options and operands, which may stand in any order. -/
def read (valued : List UInt8) : Nat → List Bytes → Given
  | 0, args => { operands := args }
  | _ + 1, [] => {}
  | fuel + 1, a :: args =>
    match a with
    | [0x2D, 0x2D] => { operands := args }
    | 0x2D :: l :: ls =>
      let (options, args) := cluster valued (l :: ls) args
      let g := read valued fuel args
      { g with options := options ++ g.options }
    | a =>
      let g := read valued fuel args
      { g with operands := a :: g.operands }

end Given

/-- The options and operands of a utility, of which some options have values. -/
def given (valued : String) (args : List Bytes) : Given :=
  Given.read (bytesOf valued) (args.length + 1) args

/-- A number option that is written as its digits alone, in full. -/
def spellCount : List Bytes → List Bytes
  | (0x2D :: d :: ds) :: args =>
    if (Text.digitValue? 10 d).isSome then bytesOf "-n" :: (d :: ds) :: args
    else (0x2D :: d :: ds) :: args
  | args => args

/-- The first lines or bytes. -/
def headFilter (g : Given) : Filter := fun sources =>
  let cut {α : Type} (n : Int) (l : List α) : List α :=
    if n < 0 then l.take (l.length - n.natAbs) else l.take n.toNat
  let b := contentOf sources
  match g.number? 'c' with
  | some n => (cut n b, 0)
  | none =>
    ((cut ((g.number? 'n').getD 10) (lineRuns b)).flatten, 0)

/-- The last lines or bytes, or those from one on. -/
def tailFilter (g : Given) : Filter := fun sources =>
  let cut {α : Type} (v : Bytes) (l : List α) : List α :=
    let n := (integer v).1.natAbs
    if v.head? = some 0x2B then l.drop (n - 1) else l.drop (l.length - n)
  let b := contentOf sources
  match g.value? 'c' with
  | some v => (cut v b, 0)
  | none =>
    ((cut ((g.value? 'n').getD (bytesOf "10")) (lineRuns b)).flatten, 0)

/-- Whether a byte is a blank or ends a line. -/
def isSpaceByte (x : UInt8) : Bool := x == 0x20 || (0x09 ≤ x && x ≤ 0x0D)

/-- How many words a text has. -/
def wordCount (b : Bytes) : Nat :=
  ((b.splitBy fun x y => isSpaceByte x == isSpaceByte y).filter fun w =>
    !(w.head?.any isSpaceByte)).length

/-- Digits with blanks before them. -/
def padLeft (width : Nat) (b : Bytes) : Bytes := List.replicate (width - b.length) 0x20 ++ b

/-- The numbers of lines, words and bytes. -/
def countFilter (g : Given) : Filter := fun sources =>
  let all := !(g.has 'l' || g.has 'w' || g.has 'c' || g.has 'm')
  let counts (b : Bytes) : List Nat :=
    (if all || g.has 'l' then [b.count 0x0A] else []) ++
      (if all || g.has 'w' then [wordCount b] else []) ++
      (if g.has 'm' then [(Utf8.charsLossy b).length] else []) ++
      (if all || g.has 'c' then [b.length] else [])
  let b := contentOf sources
  let width :=
    if (counts b).length == 1 && sources.length ≤ 1 then 1
    else if sources.any (·.name.isNone) then 7
    else (Text.digitBytes 10 b.length).length
  let row (b name : Bytes) : Bytes :=
    joinArgs ((counts b).map fun n => padLeft width (Text.digitBytes 10 n)) ++
      (if name.isEmpty then [] else 0x20 :: name)
  let rows := sources.map fun s => row s.content (s.name.getD [])
  (unlines (if sources.length > 1 then rows ++ [row b (bytesOf "total")] else rows), 0)

/-- The lines in order. -/
def sortFilter (g : Given) : Filter := ofLines fun ls =>
  let number (l : Bytes) : Int :=
    let l := l.dropWhile (· == 0x20)
    let (sign, l) : Int × Bytes := if l.head? = some 0x2D then (-1, l.drop 1) else (1, l)
    sign * ((Text.digits? 10 (l.takeWhile fun b => (Text.digitValue? 10 b).isSome)).getD 0 : Nat)
  let atMost (a b : Bytes) : Bool :=
    if g.has 'n' && number a != number b then number a < number b
    else if g.has 'n' && g.has 'u' then true
    else decide (a ≤ b)
  let ls := ls.mergeSort fun a b => if g.has 'r' then atMost b a else atMost a b
  if g.has 'u' then
    (ls.splitBy fun a b => if g.has 'n' then number a == number b else a == b).filterMap List.head?
  else ls

/-- The lines without repetitions. -/
def uniqueFilter (g : Given) : Filter := ofLines fun ls =>
  (ls.splitBy (· == ·)).filterMap fun run =>
    if (g.has 'd' && run.length == 1) || (g.has 'u' && run.length > 1) then none
    else
      run.head?.map fun l =>
        if g.has 'c' then padLeft 7 (Text.digitBytes 10 run.length) ++ 0x20 :: l else l

/-- Whether a position is in a list of ranges such as `2,4-6,8-`. -/
def inRanges (ranges : Bytes) (n : Nat) : Bool :=
  (Text.splitOn (· == 0x2C) ranges).any fun r =>
    let low := r.takeWhile (· != 0x2D)
    let first := (Text.digits? 10 low).getD 1
    match r.drop low.length with
    | [] => n == first
    | [_] => first ≤ n
    | _ :: high => first ≤ n && n ≤ (Text.digits? 10 high).getD 0

/-- The members of a list at some positions, which count from one. -/
def atPositions {α : Type} (ranges : Bytes) (l : List α) : List α :=
  ((l.zipIdx 1).filter fun (_, n) => inRanges ranges n).map (·.1)

/-- Parts of each line. -/
def cutFilter (g : Given) : Filter := ofLines fun ls =>
  match g.value? 'f' with
  | some ranges =>
    let sep := ((g.value? 'd').bind List.head?).getD 0x09
    ls.filterMap fun l =>
      if l.contains sep then
        some (([sep] : Bytes).intercalate (atPositions ranges (Text.splitOn (· == sep) l)))
      else if g.has 's' then none
      else some l
  | none =>
    let ranges := ((g.value? 'c').orElse fun _ => g.value? 'b').getD []
    ls.map (atPositions ranges)

/-- The ranges of a set of `tr`. -/
def exchangeSet : Nat → Bytes → ByteSet
  | 0, _ => []
  | _ + 1, [] => []
  | fuel + 1, 0x5B :: rest =>
    match namedSet? (rest.map fun b => (b, false)) with
    | some (s, r) => s ++ exchangeSet fuel (r.map (·.1))
    | none => (0x5B, 0x5B) :: exchangeSet fuel rest
  | fuel + 1, 0x5C :: b :: rest =>
    match letterEscape? b with
    | some x => (x, x) :: exchangeSet fuel rest
    | none =>
      if (Text.digitValue? 8 b).isSome then
        let (v, rest) := octalDigits 3 0 (b :: rest)
        (UInt8.ofNat v, UInt8.ofNat v) :: exchangeSet fuel rest
      else (b, b) :: exchangeSet fuel rest
  | fuel + 1, a :: 0x2D :: b :: rest => (a, b) :: exchangeSet fuel rest
  | fuel + 1, b :: rest => (b, b) :: exchangeSet fuel rest

/-- A byte with the members of one set exchanged for those of another; the last member of the second
set stands for those it lacks. -/
def exchange (source target : Bytes) (b : UInt8) : UInt8 :=
  match source.idxOf? b with
  | some i => (target[i]? <|> target.getLast?).getD b
  | none => b

/-- A text with one byte for each run of a byte that a set has. -/
def squeeze (members : Bytes) (b : Bytes) : Bytes :=
  (b.splitBy fun x y => x == y && members.contains x).filterMap List.head?

/-- The bytes with some exchanged, taken out or not repeated. -/
def exchangeFilter (g : Given) : Option Filter :=
  let set (b : Bytes) : Bytes := (exchangeSet (b.length + 1) b).members
  let first (b : Bytes) : Bytes :=
    if g.has 'c' || g.has 'C' then
      ((List.range 256).map UInt8.ofNat).filter fun x => !(set b).contains x
    else set b
  let ofBytes (f : Bytes → Bytes) : Option Filter := some fun sources => (f (contentOf sources), 0)
  match g.operands with
  | [a] =>
    if g.has 'd' then
      let gone := first a
      ofBytes (·.filter (!gone.contains ·))
    else if g.has 's' then ofBytes (squeeze (first a))
    else none
  | [a, b] =>
    let source := first a
    let target := set b
    if g.has 'd' then ofBytes fun t => squeeze target (t.filter (!source.contains ·))
    else
      ofBytes fun t =>
        let t := t.map (exchange source target)
        if g.has 's' then squeeze target t else t
  | _ => none

/-- The lines that an expression matches, and what of them it matches. -/
structure Search where
  expressions : List Regex
  wholeLine : Bool := false
  wholeWord : Bool := false

namespace Search

/-- Whether a byte belongs to a word. -/
def isWordByte (b : UInt8) : Bool :=
  (0x30 ≤ b && b ≤ 0x39) || (0x41 ≤ b && b ≤ 0x5A) || b == 0x5F || (0x61 ≤ b && b ≤ 0x7A)

/-- The first match in a line. -/
def find? (s : Search) (line : Bytes) : Option Regex.Match :=
  s.expressions.findSome? fun r =>
    (r.find? line).filter fun m =>
      (!s.wholeLine || (m.before.isEmpty && m.behind.isEmpty)) &&
        (!s.wholeWord || !(m.before.getLast?.any isWordByte || m.behind.head?.any isWordByte))

/-- All matches in a line that are not empty. -/
def findAll (s : Search) : Nat → Bytes → List Bytes
  | 0, _ => []
  | fuel + 1, line =>
    match s.find? line with
    | none => []
    | some m =>
      if m.text.isEmpty then findAll s fuel (m.behind.drop 1) else m.text :: findAll s fuel m.behind

/-- The expression of a text that stands for itself. -/
def plain (b : Bytes) : Regex := b.foldr (fun x r => .sequence (.byte x) r) .empty

/-- The search that options describe: the expressions are the lines of those given. -/
def ofGiven (g : Given) : Option (Search × List Bytes) :=
  let named := (g.options.filter (·.1 == 0x65)).map (·.2)
  let (texts, files) := if named.isEmpty then (g.operands.take 1, g.operands.drop 1) else (named, g.operands)
  let read (b : Bytes) : Option Regex :=
    let r := if g.has 'F' then some (plain b) else Regex.read (g.has 'E') b
    let r := if g.has 'x' then r.map fun r => .sequence .lineStart (.sequence r .lineEnd) else r
    if g.has 'i' then r.map Regex.foldCase else r
  ((texts.flatMap (Text.splitOn (· == 0x0A))).mapM read).map fun expressions =>
    ({ expressions, wholeLine := g.has 'x', wholeWord := g.has 'w' }, files)

/-- Prints the lines found, their number, or nothing. -/
def filter (s : Search) (g : Given) : Filter := fun sources =>
  let many := sources.length > 1 && !g.has 'h'
  let results := sources.map fun source =>
    let label : Bytes := if many then (source.name.getD (bytesOf "(standard input)")) ++ [0x3A] else []
    let found := (((linesOf source.content).zipIdx 1).filter fun (l, _) =>
      (s.find? l).isSome != g.has 'v')
    let print (l : Bytes) (n : Nat) : List Bytes :=
      let lead := label ++ if g.has 'n' then Text.digitBytes 10 n ++ [0x3A] else []
      if g.has 'o' then (s.findAll (l.length + 1) l).map (lead ++ ·) else [lead ++ l]
    let lines :=
      if g.has 'q' then []
      else if g.has 'l' then
        if found.isEmpty then [] else [source.name.getD (bytesOf "(standard input)")]
      else if g.has 'c' then [label ++ Text.digitBytes 10 found.length]
      else found.flatMap fun (l, n) => print l n
    (lines, !found.isEmpty)
  (unlines (results.flatMap (·.1)), if results.any (·.2) then 0 else 1)

end Search

/-- The bytes of a text in hexadecimal or octal, sixteen to a line. -/
def dumpFilter (g : Given) : Filter := fun sources =>
  let b := contentOf sources
  let hex := (g.value? 't').any fun t => t.head? = some 0x78
  let digits (base width : Nat) (n : Nat) : Bytes :=
    let ds := Text.digitBytes base n
    List.replicate (width - ds.length) 0x30 ++ ds
  let cell (x : UInt8) : Bytes := 0x20 :: if hex then digits 16 2 x.toNat else digits 8 3 x.toNat
  let addressed := (g.value? 'A') != some [0x6E]
  let row (i : Nat) : Bytes :=
    (if addressed then digits 8 7 (16 * i) else []) ++ ((b.drop (16 * i)).take 16).flatMap cell
  let rows := (List.range ((b.length + 15) / 16)).map row
  (unlines (if addressed then rows ++ [digits 8 7 b.length] else rows), 0)

/-- The lines with their numbers before them. -/
def numberFilter : Filter := fun sources =>
  (((lineRuns (contentOf sources)).zipIdx 1).flatMap fun (l, n) =>
    padLeft 6 (Text.digitBytes 10 n) ++ 0x09 :: l, 0)

/-- The digest of each source behind its name. -/
def digestFilter : Filter := fun sources =>
  (sources.flatMap fun s =>
    (Sha1.digest s.content).flatMap ObjectId.hexPair ++
      bytesOf "  " ++ s.name.getD (bytesOf "-") ++ [0x0A], 0)

/-- The filter of a name, and the operands that are its sources. -/
def filter? (name : String) (args : List Bytes) : Option (Filter × List Bytes) :=
  match name with
  | "head" =>
    let g := given "nc" (spellCount args)
    some (headFilter g, g.operands)
  | "tail" =>
    let g := given "nc" (spellCount args)
    some (tailFilter g, g.operands)
  | "wc" =>
    let g := given "" args
    some (countFilter g, g.operands)
  | "sort" =>
    let g := given "kt" args
    some (sortFilter g, g.operands)
  | "uniq" =>
    let g := given "" args
    some (uniqueFilter g, g.operands)
  | "cut" =>
    let g := given "dfcb" args
    some (cutFilter g, g.operands)
  | "tr" => (exchangeFilter (given "" args)).map fun f => (f, [])
  | "grep" =>
    let g := given "em" args
    (Search.ofGiven g).map fun (s, files) => (s.filter g, files)
  | "egrep" =>
    let g := given "em" (bytesOf "-E" :: args)
    (Search.ofGiven g).map fun (s, files) => (s.filter g, files)
  | "fgrep" =>
    let g := given "em" (bytesOf "-F" :: args)
    (Search.ofGiven g).map fun (s, files) => (s.filter g, files)
  | "rev" => some (fun sources =>
      ((lineRuns (contentOf sources)).flatMap fun l =>
        (dropEnd l).reverse ++ l.drop (dropEnd l).length, 0), args)
  | "tac" => some (fun sources =>
      ((lineRuns (contentOf sources)).reverse.flatten, 0), args)
  | "od" =>
    let g := given "At" args
    some (dumpFilter g, g.operands)
  | "sha1sum" => some (digestFilter, args)
  | _ => none

end GitRemote.Script
