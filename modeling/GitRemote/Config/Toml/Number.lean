import GitRemote.Config.Setting
import GitRemote.Text.Hex

/-!
# Numbers in settings files

Integers in four bases and numbers with a fraction or an exponent. Underscores may separate digits.
-/

namespace GitRemote.Config.Toml

/-- Digits without their separators, each of which stands between two digits. -/
def joinDigits? (isDigit : Char → Bool) : List Char → Option (List Char)
  | [] => none
  | [c] => if isDigit c then some [c] else none
  | c :: '_' :: rest => if isDigit c then (joinDigits? isDigit rest).map (c :: ·) else none
  | c :: rest => if isDigit c then (joinDigits? isDigit rest).map (c :: ·) else none

/-- The number that digits with separators write. -/
def digits? (base : Nat) (cs : List Char) : Option Nat :=
  (joinDigits? (fun c => (Text.digitIn? base c).isSome) cs).bind (Text.numberIn? base)

/-- Whether a number has a zero in front that it should not have. -/
def hasLeadingZero (cs : List Char) : Bool :=
  cs.head? == some '0' && (cs.drop 1).head?.any fun c => c.isDigit || c == '_'

/-- Reads an integer. -/
def integer? (cs : List Char) : Option Int :=
  let bounded (n : Nat) : Option Int := if n < Setting.integerBound then some n else none
  match cs with
  | '0' :: 'x' :: ds => (digits? 16 ds).bind bounded
  | '0' :: 'o' :: ds => (digits? 8 ds).bind bounded
  | '0' :: 'b' :: ds => (digits? 2 ds).bind bounded
  | _ =>
    let (negative, ds) :=
      match cs with
      | '-' :: ds => (true, ds)
      | '+' :: ds => (false, ds)
      | ds => (false, ds)
    if hasLeadingZero ds then none
    else
      match digits? 10 ds with
      | none => none
      | some n =>
        if negative then if n ≤ Setting.integerBound then some (-(n : Int)) else none
        else bounded n

/-- The whole part, the fraction and the exponent of a number, as far as it has them. -/
def numberParts (cs : List Char) : List Char × Option (List Char) × Option (List Char) :=
  let (front, exponent) :=
    match Text.cut? (fun c => c == 'e' || c == 'E') cs with
    | some (front, e) => (front, some e)
    | none => (cs, none)
  match Text.cut? (· == '.') front with
  | some (whole, part) => (whole, some part, exponent)
  | none => (front, none, exponent)

/-- Reads a number that is no integer. One that is written in digits has to be within the range. -/
def double? (cs : List Char) : Option Double :=
  let (sign, ds) :=
    match cs with
    | '-' :: ds => (['-'], ds)
    | '+' :: ds => ([], ds)
    | ds => ([], ds)
  if ds = "inf".toList || ds = "nan".toList then Double.parse? (String.ofList (sign ++ ds))
  else
    let (whole, part, exponent) := numberParts ds
    let unsignedExponent := exponent.map fun e =>
      match e with
      | '-' :: r | '+' :: r => r
      | r => r
    let valid := !hasLeadingZero whole && (digits? 10 whole).isSome &&
      part.all (fun p => (digits? 10 p).isSome) &&
      unsignedExponent.all (fun e => (digits? 10 e).isSome) && (part.isSome || exponent.isSome)
    if valid then (Double.parse? (String.ofList (sign ++ ds.filter (· != '_')))).filter (·.isFinite)
    else none

end GitRemote.Config.Toml
