import GitRemote.Text.Blank
import GitRemote.Url.Domain.Basic
import GitRemote.Url.Error
import GitRemote.Url.Percent

/-!
# Hosts

A host of a special scheme is a domain name or an address and has one written form: names in lower
case and in ASCII, addresses as four decimal or eight hexadecimal numbers, the longest run of zeros
among the latter left out. A host of another scheme is kept as it is.
-/

namespace GitRemote.Url

/-- A part of an IPv4 address, in decimal, in octal behind a zero or in hexadecimal behind `0x`. -/
def ipv4Part? : List Char → Option Nat
  | [] => none
  | '0' :: 'x' :: cs | '0' :: 'X' :: cs => Text.numberIn? 16 cs
  | '0' :: c :: cs => Text.numberIn? 8 (c :: cs)
  | cs => Text.numberIn? 10 cs

/-- Whether a name has to be an IPv4 address: its last part is a number. -/
def endsInNumber (cs : List Char) : Bool :=
  let parts := (Text.splitOn (· == '.') cs).reverse
  let last? :=
    match parts with
    | [] :: rest => rest.head?
    | _ => parts.head?
  match last? with
  | none => false
  | some last => (!last.isEmpty && last.all Char.isDigit) || (ipv4Part? last).isSome

/-- The number of an IPv4 address: all parts but the last are bytes, the last fills what is left. -/
def ipv4Number? (parts : List Nat) : Option Nat :=
  match parts.reverse with
  | [] => none
  | last :: front =>
    if parts.length ≤ 4 && last < 1 <<< (8 * (5 - parts.length)) && front.all (· < 256) then
      some (parts.dropLast.zipIdx.foldl (fun v (n, i) => v + n <<< (8 * (3 - i))) last)
    else none

/-- The number of an IPv4 address. A dot may follow the last part. -/
def ipv4? (cs : List Char) : Option Nat :=
  let parts := Text.splitOn (· == '.') cs
  let parts := if parts.getLast? = some [] then parts.dropLast else parts
  (parts.mapM ipv4Part?).bind ipv4Number?

/-- An IPv4 address as four decimal numbers. -/
def ipv4Text (n : Nat) : List Char :=
  (".".intercalate ([n / 16777216, n / 65536 % 256, n / 256 % 256, n % 256].map toString)).toList

/-- A group of an IPv6 address: one to four hexadecimal digits. -/
def ipv6Group? (cs : List Char) : Option Nat :=
  if 1 ≤ cs.length ∧ cs.length ≤ 4 then Text.numberIn? 16 cs else none

/-- A byte in decimal without leading zeros. -/
def decimalByte? (cs : List Char) : Option Nat :=
  if cs.isEmpty || (cs.head? == some '0' && 1 < cs.length) then none
  else (Text.numberIn? 10 cs).filter (· < 256)

/-- The two groups that an IPv4 address makes at the end of an IPv6 address. -/
def ipv4Groups? (cs : List Char) : Option (List Nat) :=
  match (Text.splitOn (· == '.') cs).mapM decimalByte? with
  | some [a, b, c, d] => some [a * 256 + b, c * 256 + d]
  | _ => none

/-- The groups between colons. The last may be an IPv4 address if `last` is set. -/
def ipv6Groups? (last : Bool) : List (List Char) → Option (List Nat)
  | [] => some []
  | [cs] =>
    match ipv6Group? cs with
    | some g => some [g]
    | none => if last then ipv4Groups? cs else none
  | cs :: rest =>
    match ipv6Group? cs, ipv6Groups? last rest with
    | some g, some gs => some (g :: gs)
    | _, _ => none

/-- The groups of a part of an address; no text has no group. -/
def ipv6Part? (last : Bool) (cs : List Char) : Option (List Nat) :=
  if cs.isEmpty then some [] else ipv6Groups? last (Text.splitOn (· == ':') cs)

/-- The parts before and after the first double colon. -/
def cutDoubleColon? : List Char → Option (List Char × List Char)
  | ':' :: ':' :: rest => some ([], rest)
  | c :: rest => (cutDoubleColon? rest).map fun (a, b) => (c :: a, b)
  | [] => none

/-- The eight groups of an IPv6 address. A double colon stands for at least one group of zero. -/
def ipv6? (cs : List Char) : Option (List Nat) :=
  match cutDoubleColon? cs with
  | none => (ipv6Part? true cs).filter (·.length == 8)
  | some (front, back) =>
    match ipv6Part? false front, ipv6Part? true back with
    | some f, some b =>
      if f.length + b.length ≤ 7 then
        some (f ++ List.replicate (8 - f.length - b.length) 0 ++ b)
      else none
    | _, _ => none

/-- The number of zeros at the front. -/
def leadingZeros (groups : List Nat) : Nat := (groups.takeWhile (· == 0)).length

/-- The start and the length of the first longest run of zeros. -/
def longestZeros (groups : List Nat) : Nat × Nat :=
  ((List.range groups.length).map fun i => (i, leadingZeros (groups.drop i))).foldl
    (fun best run => if best.2 < run.2 then run else best) (0, 0)

/-- Groups in hexadecimal, with colons between them. -/
def groupsText (groups : List Nat) : List Char :=
  (":".intercalate (groups.map fun g => String.ofList (Nat.toDigits 16 g))).toList

/-- An IPv6 address in brackets. -/
def ipv6Text (groups : List Nat) : List Char :=
  let (start, length) := longestZeros groups
  if length < 2 then '[' :: (groupsText groups ++ [']'])
  else
    '[' :: (groupsText (groups.take start) ++ [':', ':'] ++
      groupsText (groups.drop (start + length)) ++ [']'])

/-- An address in brackets in its written form. -/
def bracketed (cs : List Char) : Except UrlError (List Char) :=
  if cs.getLast? = some ']' then
    match ipv6? (cs.drop 1).dropLast with
    | some groups => .ok (ipv6Text groups)
    | none => .error .badIpv6
  else .error .badIpv6

/-- A host of a special scheme in its written form. -/
def specialHost (cs : List Char) : Except UrlError (List Char) :=
  if cs.head? = some '[' then bracketed cs
  else
    match domain cs with
    | .error e => .error e
    | .ok name =>
      if endsInNumber name then
        match ipv4? name with
        | some n => .ok (ipv4Text n)
        | none => .error .badIpv4
      else .ok name

/-- A host of another scheme in its written form. -/
def plainHost (cs : List Char) : Except UrlError (List Char) :=
  if cs.head? = some '[' then bracketed cs
  else if cs.any isForbiddenInHost then .error .badHostCharacter
  else .ok (encodeIn controlSet cs)

end GitRemote.Url
