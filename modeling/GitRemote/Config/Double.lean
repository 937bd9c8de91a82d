import GitRemote.Text.Number

/-!
# Numbers in double precision

A number with a fraction or an exponent is kept as the nearest number `m * 2 ^ q` with a significand
below `2 ^ 53`, and is written with the fewest digits that read back as it, always positionally.
-/

namespace GitRemote.Config

/-- A number in double precision. -/
inductive Double where
  | nan
  | infinite (negative : Bool)
  /-- `m * 2 ^ q`. -/
  | finite (negative : Bool) (m : Nat) (q : Int)
  deriving DecidableEq, Repr

/-- A fraction, of which the denominator is not zero. -/
structure Ratio where
  num : Nat
  den : Nat
  deriving DecidableEq, Repr

namespace Ratio

/-- The fraction times a power. -/
def scale (r : Ratio) (base : Nat) (e : Int) : Ratio :=
  if 0 ≤ e then { r with num := r.num * base.pow e.toNat }
  else { r with den := r.den * base.pow (-e).toNat }

/-- The greatest number that is not above the fraction. -/
def floor (r : Ratio) : Nat := r.num / r.den

/-- The nearest number; of two that are equally near, the even one. -/
def round (r : Ratio) : Nat :=
  let k := r.num / r.den
  let twice := 2 * (r.num % r.den)
  if twice < r.den then k
  else if r.den < twice then k + 1
  else k + k % 2

/-- The nearest number; of two that are equally near, the greater one. -/
def roundUp (r : Ratio) : Nat := (2 * r.num + r.den) / (2 * r.den)

end Ratio

namespace Double

/-- The least exponent of two. -/
def leastExponent : Int := -1074

/-- The bound of significands, which is `2 ^ 53`. -/
def significandBound : Nat := 9007199254740992

/-- The exponent of two for a fraction that is not zero. -/
def exponentFor (r : Ratio) : Int :=
  let q : Int := (r.num.log2 : Int) - r.den.log2 - 53
  let q := if (r.scale 2 (-q)).floor < significandBound then q else q + 1
  max q leastExponent

/-- The nearest number to a fraction. -/
def nearest (negative : Bool) (r : Ratio) : Double :=
  if r.num = 0 then .finite negative 0 leastExponent
  else
    let q := exponentFor r
    let m := (r.scale 2 (-q)).round
    let (m, q) := if m = significandBound then (significandBound / 2, q + 1) else (m, q)
    if 971 < q then .infinite negative else .finite negative m q

/-- The nearest number to `digits * 10 ^ e`. Exponents far outside the range are cut short. -/
def ofDecimal (negative : Bool) (digits : Nat) (e : Int) : Double :=
  let size : Int := (Nat.toDigits 10 digits).length + e
  if digits = 0 || size < -400 then .finite negative 0 leastExponent
  else if 400 < size then .infinite negative
  else nearest negative (({ num := digits, den := 1 } : Ratio).scale 10 e)

/-- The value without its sign. -/
def ratio (m : Nat) (q : Int) : Ratio := ({ num := m, den := 1 } : Ratio).scale 2 q

/-- The decimals of `10 ^ e` on both sides of a value that read back as it, the nearer one first. -/
def readBack (m : Nat) (q e : Int) : List Nat :=
  let scaled := (ratio m q).scale 10 (-e)
  let low := scaled.floor
  let candidates := if scaled.round = low then [low, low + 1] else [low + 1, low]
  candidates.filter fun d => ofDecimal false d e = .finite false m q

/-- The first decimal that reads back as a value, from the power `10 ^ e` downwards. At the seventeenth
digit there always is one. -/
def shortestFrom (m : Nat) (q : Int) : Nat → Int → Nat × Int
  | 0, e => ((readBack m q e).headD 0, e)
  | fuel + 1, e =>
    match readBack m q e with
    | d :: _ => (d, e)
    | [] => shortestFrom m q fuel (e - 1)

/-- A power of ten that is not below the one of a value's first digit. -/
def leadingExponent (m : Nat) (q : Int) : Int :=
  let r := ratio m q
  if r.floor = 0 then 1 - ((Nat.toDigits 10 (r.den / r.num)).length : Int)
  else (Nat.toDigits 10 r.floor).length

/-- Digits times a power of ten, positionally. -/
def positional (digits : Nat) (e : Int) : String :=
  if 0 ≤ e then toString (digits * Nat.pow 10 e.toNat)
  else
    let places := (-e).toNat
    let whole := digits / Nat.pow 10 places
    let part := toString (digits % Nat.pow 10 places)
    toString whole ++ "." ++ String.ofList (List.replicate (places - part.length) '0') ++ part

/-- A number as text. -/
def text : Double → String
  | .nan => "NaN"
  | .infinite negative => if negative then "-inf" else "inf"
  | .finite negative m q =>
    let (digits, e) := if m = 0 then (0, 0) else shortestFrom m q 400 (leadingExponent m q)
    (if negative then "-" else "") ++ positional digits e

/-- The nearest number that is not negative and below a bound; what is no number counts as zero. -/
def toNatural (bound : Nat) : Double → Nat
  | .nan | .infinite true => 0
  | .infinite false => bound - 1
  | .finite true _ _ => 0
  | .finite false m q => min (ratio m q).roundUp (bound - 1)

/-- Whether a number is zero. -/
def isZero : Double → Bool
  | .finite _ m _ => m == 0
  | _ => false

/-- Whether a number has a finite value. -/
def isFinite : Double → Bool
  | .finite .. => true
  | _ => false

/-- The digits at the front. -/
def takeDigits (b : Bytes) : Bytes × Bytes :=
  let ds := b.takeWhile fun x => 0x30 ≤ x && x ≤ 0x39
  (ds, b.drop ds.length)

/-- The number of a digit sequence, which may be empty. -/
def digitsValue (b : Bytes) : Nat := (Text.digitsOnto? 10 0 b).getD 0

/-- The exponent behind a significand. -/
def exponent? : Bytes → Option Int
  | [] => some 0
  | x :: rest =>
    if x = 0x65 || x = 0x45 then
      match rest with
      | 0x2D :: ds => (Text.digits? 10 ds).map fun n => -(n : Int)
      | 0x2B :: ds => (Text.digits? 10 ds).map Int.ofNat
      | ds => (Text.digits? 10 ds).map Int.ofNat
    else none

/-- Reads a number without its sign: digits around a point, at least one, and an exponent. -/
def unsigned? (negative : Bool) (b : Bytes) : Option Double :=
  let (whole, rest) := takeDigits b
  let (part, rest) :=
    match rest with
    | 0x2E :: rest => takeDigits rest
    | _ => ([], rest)
  if whole.isEmpty && part.isEmpty then none
  else
    (exponent? rest).map fun e =>
      ofDecimal negative (digitsValue (whole ++ part)) (e - part.length)

/-- Reads a number with its sign, or the name of infinity or of what is no number. -/
def parse? (s : String) : Option Double :=
  let (negative, rest) :=
    match s.toList with
    | '-' :: rest => (true, rest)
    | '+' :: rest => (false, rest)
    | cs => (false, cs)
  let word := String.ofList (rest.map Char.toLower)
  if word = "inf" || word = "infinity" then some (.infinite negative)
  else if word = "nan" then some .nan
  else unsigned? negative (Utf8.encode (String.ofList rest))

end Double

end GitRemote.Config
