import GitRemote.Text.Hex
import GitRemote.Text.Literal
import GitRemote.Text.Number

/-!
# Object ids

An object is named by the twenty bytes of a digest, written as forty hexadecimal digits. Writing
uses lower case; reading accepts both cases and names the first digit that is not one.
-/

namespace GitRemote

/-- The name of an object. -/
structure ObjectId where
  octets : Bytes
  size_eq : octets.length = 20
  deriving DecidableEq

/-- Why a text is not an object id. -/
inductive ObjectIdError where
  /-- It has this many bytes in place of forty. -/
  | length (n : Nat)
  /-- This byte, at this position, is no hexadecimal digit. -/
  | digit (b : UInt8) (position : Nat)
  deriving DecidableEq, Repr

namespace ObjectId

/-- The id with these bytes, if there are twenty. -/
def ofOctets? (b : Bytes) : Option ObjectId :=
  if h : b.length = 20 then some ⟨b, h⟩ else none

/-- The id that stands for "no object". -/
def null : ObjectId := ⟨List.replicate 20 0, by decide⟩

/-- Whether an id stands for "no object". -/
def isNull (id : ObjectId) : Bool := id == null

instance : Inhabited ObjectId := ⟨null⟩

/-- The two digits of a byte. -/
def hexPair (b : UInt8) : Bytes := [Text.hexDigit (b / 16), Text.hexDigit (b % 16)]

/-- The forty digits of an id. -/
def hexBytes (id : ObjectId) : Bytes := id.octets.flatMap hexPair

/-- The forty digits of an id, as text. -/
def hex (id : ObjectId) : String :=
  String.ofList (id.hexBytes.map fun b => Char.ofNat b.toNat)

instance : ToString ObjectId := ⟨hex⟩

instance : Repr ObjectId := ⟨fun id _ => Std.Format.text id.hex⟩

/-- Reads digits in pairs, the first of them at the given position. An odd digit at the end stands
for nothing. -/
def ofHexPairs (position : Nat) : Bytes → Except ObjectIdError Bytes
  | a :: b :: rest =>
    match Text.hexValue? a with
    | none => .error (.digit a position)
    | some high =>
      match Text.hexValue? b with
      | none => .error (.digit b (position + 1))
      | some low => (ofHexPairs (position + 2) rest).map ((high * 16 + low) :: ·)
  | _ => .ok []

/-- Reading forty digits gives twenty bytes. -/
theorem length_of_ofHexPairs {position : Nat} {digits out : Bytes}
    (h : ofHexPairs position digits = .ok out) : out.length = digits.length / 2 := by
  fun_induction ofHexPairs position digits generalizing out with
  | case1 => cases h
  | case2 => cases h
  | case3 position a b rest high _ low _ ih =>
    cases hr : ofHexPairs (position + 2) rest with
    | error e => rw [hr] at h; cases h
    | ok tail =>
      rw [hr] at h
      cases h
      simp only [List.length_cons, ih hr]
      omega
  | case4 rest _ hne =>
    cases h
    match rest, hne with
    | [], _ => rfl
    | [_], _ => simp
    | a :: b :: r, hne => exact absurd rfl (hne a b r)

/-- Reads the forty digits of an id. -/
def ofHex (digits : Bytes) : Except ObjectIdError ObjectId :=
  if hl : digits.length = 40 then
    match hp : ofHexPairs 0 digits with
    | .error e => .error e
    | .ok out => .ok ⟨out, by rw [length_of_ofHexPairs hp, hl]⟩
  else .error (.length digits.length)

/-- Reads the forty digits of an id, if that is what the bytes are. -/
def ofHex? (digits : Bytes) : Option ObjectId := (ofHex digits).toOption

/-- The ids in the order of their bytes. -/
def le (a b : ObjectId) : Bool := (compare a.octets b.octets).isLE

end ObjectId

/-- What is wrong with a text that should be an object id. -/
def ObjectIdError.message : ObjectIdError → String
  | .length n => "object id must be 40 hex digits, got " ++ toString n
  | .digit b position =>
    "bad object id: Invalid character " ++ Text.charLiteral (Char.ofNat b.toNat) ++
      " at position " ++ toString position

end GitRemote
