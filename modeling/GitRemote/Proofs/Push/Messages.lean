import GitRemote.Proofs.Push.StatusLines
import GitRemote.Proofs.Text.Utf8

/-!
# Messages of the remote

What the remote said about a ref is quoted in the status line on it. A reader takes the message back
out: behind a leading double quote it undoes the escapes up to the closing one, and takes anything
else as it stands. A message that is written as it stands never starts with a double quote, and every
escape ends by itself, so the reader gets what the remote said.
-/

namespace GitRemote

namespace Text

/-- The byte that a letter behind a backslash stands for. -/
def letterEscape? : Char → Option UInt8
  | '"' => some 0x22
  | '\\' => some 0x5C
  | 'a' => some 0x07
  | 'b' => some 0x08
  | 't' => some 0x09
  | 'n' => some 0x0A
  | 'v' => some 0x0B
  | 'f' => some 0x0C
  | 'r' => some 0x0D
  | _ => none

/-- The value of an octal digit. -/
def octalDigit? (c : Char) : Option Nat :=
  if '0' ≤ c ∧ c ≤ '7' then some (c.toNat - 0x30) else none

/-- The byte that three octal digits stand for. -/
def octalEscape? (x y z : Char) : Option UInt8 := do
  let value := (← octalDigit? x) * 64 + (← octalDigit? y) * 8 + (← octalDigit? z)
  if value < 256 then some (UInt8.ofNat value) else none

/-- The bytes of a text behind its opening quote. The closing quote has to be its end. -/
def unescape? : List Char → Option Bytes
  | [] => none
  | c :: rest =>
    if c = '"' then if rest.isEmpty then some [] else none
    else if c = '\\' then
      match rest with
      | [] => none
      | x :: rest =>
        match letterEscape? x with
        | some b => (unescape? rest).map (b :: ·)
        | none =>
          match rest with
          | y :: z :: rest =>
            match octalEscape? x y z with
            | some b => (unescape? rest).map (b :: ·)
            | none => none
          | _ => none
    else (unescape? rest).map (String.utf8EncodeChar c ++ ·)

/-- The message of a written form: one that starts with a double quote is escaped, any other is as it
stands. -/
def unquoteMessage? (s : String) : Option String :=
  match s.toList with
  | [] => some s
  | c :: rest => if c = '"' then (unescape? rest).bind Utf8.decode? else some s

/-! ### Reading escapes -/

variable {b : UInt8} {c x y z : Char} {rest : List Char}

/-- A letter behind a backslash is one byte. -/
theorem unescape?_letter (h : letterEscape? x = some b) :
    unescape? ('\\' :: x :: rest) = (unescape? rest).map (b :: ·) := by
  rw [unescape?.eq_def]
  dsimp only
  rw [if_neg (by decide), if_pos rfl, h]

/-- Three octal digits behind a backslash are one byte. -/
theorem unescape?_octal (hletter : letterEscape? x = none) (h : octalEscape? x y z = some b) :
    unescape? ('\\' :: x :: y :: z :: rest) = (unescape? rest).map (b :: ·) := by
  rw [unescape?.eq_def]
  dsimp only
  rw [if_neg (by decide), if_pos rfl, hletter]
  dsimp only
  rw [h]

/-- A character that is not quoted stands for itself. -/
theorem unescape?_cons (hquote : c ≠ '"') (hslash : c ≠ '\\') :
    unescape? (c :: rest) = (unescape? rest).map (String.utf8EncodeChar c ++ ·) := by
  rw [unescape?.eq_def]
  dsimp only
  rw [if_neg hquote, if_neg hslash]

/-- Digits are not mistaken for letters, and have their values. -/
theorem octal_digit : ∀ d < 8, letterEscape? (asciiChar (0x30 + d)) = none ∧
    octalDigit? (asciiChar (0x30 + d)) = some d := by decide

theorem toNat_asciiChar : ∀ n < 0x80, (asciiChar n).toNat = n := by decide

/-- The three digits of a byte stand for it. -/
theorem unescape?_octalEscape (b : UInt8) (rest : List Char) :
    unescape? (octalEscape b ++ rest) = (unescape? rest).map (b :: ·) := by
  have hb := b.toNat_lt
  obtain ⟨hletter, hx⟩ := octal_digit (b.toNat / 64) (by omega)
  obtain ⟨-, hy⟩ := octal_digit (b.toNat / 8 % 8) (by omega)
  obtain ⟨-, hz⟩ := octal_digit (b.toNat % 8) (by omega)
  refine unescape?_octal hletter ?_
  have hvalue : b.toNat / 64 * 64 + b.toNat / 8 % 8 * 8 + b.toNat % 8 = b.toNat := by omega
  rw [octalEscape?, hx, hy, hz]
  show (if b.toNat / 64 * 64 + b.toNat / 8 % 8 * 8 + b.toNat % 8 < 256 then _ else none) = _
  rw [hvalue, if_pos hb, UInt8.ofNat_toNat]

/-- The three ways in which a byte is written: as a letter behind a backslash, as it stands, or with
three digits. -/
inductive Written (b : UInt8) : List Char → Prop
  | letter {x : Char} (h : letterEscape? x = some b) : Written b ['\\', x]
  | plain (hquote : b ≠ 0x22) (hslash : b ≠ 0x5C) (hrange : 0x20 ≤ b ∧ b ≤ 0x7E) :
      Written b [asciiChar b.toNat]
  | octal : Written b (octalEscape b)

/-- Each byte is quoted in a way that is read back as that byte. -/
theorem written_quoteByte (b : UInt8) : Written b (quoteByte b) := by
  -- one condition at a time: nine of them are letters
  rw [quoteByte]
  refine iteInduction (fun h => .letter (by rw [h]; rfl)) fun hquote => ?_
  refine iteInduction (fun h => .letter (by rw [h]; rfl)) fun hslash => ?_
  iterate 7 refine iteInduction (fun h => .letter (by rw [h]; rfl)) fun _ => ?_
  exact iteInduction (.plain hquote hslash) fun _ => .octal

/-- What is written for a byte is read as that byte, whatever follows. -/
theorem Written.unescape? {chars : List Char} (h : Written b chars) (rest : List Char) :
    unescape? (chars ++ rest) = (unescape? rest).map (b :: ·) := by
  cases h with
  | letter h => exact unescape?_letter h
  | plain hquote hslash hrange =>
    have hhigh : b.toNat ≤ 0x7E := hrange.2
    have hchar : (asciiChar b.toNat).toNat = b.toNat := toNat_asciiChar _ (by omega)
    have hne {c : Char} (hc : b.toNat ≠ c.toNat) : asciiChar b.toNat ≠ c :=
      fun h => hc (by rw [← h, hchar])
    rw [List.singleton_append, unescape?_cons (hne fun h => hquote (UInt8.toNat_inj.mp h))
      (hne fun h => hslash (UInt8.toNat_inj.mp h)), Utf8.utf8EncodeChar_ascii (by omega), hchar,
      UInt8.ofNat_toNat]
    rfl
  | octal => exact unescape?_octalEscape b rest

/-- Escaped bytes and a closing quote read back. -/
theorem unescape?_flatMap (bytes : Bytes) :
    unescape? (bytes.flatMap quoteByte ++ ['"']) = some bytes := by
  induction bytes with
  | nil => rfl
  | cons b bytes ih =>
    rw [List.flatMap_cons, List.append_assoc, (written_quoteByte b).unescape?, ih]
    rfl

/-- Quoting a message and reading it back gives the message. -/
theorem unquoteMessage?_quoteMessage (s : String) : unquoteMessage? (quoteMessage s) = some s := by
  rw [quoteMessage]
  split
  · rw [unquoteMessage?, String.toList_ofList]
    dsimp only
    rw [if_pos rfl, unescape?_flatMap, Option.bind_some, Utf8.decode?_encode]
  · next hplain =>
    rw [unquoteMessage?]
    split
    · rfl
    · next c rest hs =>
      -- a text that needs no quoting does not start with a quote
      have hc : c ≠ '"' := by
        rintro rfl
        exact hplain (List.any_eq_true.mpr ⟨'"', by rw [hs]; exact List.mem_cons_self, by decide⟩)
      rw [if_neg hc]

/-- Different messages are quoted differently. -/
theorem quoteMessage_injective : Function.Injective quoteMessage := by
  intro s t h
  have hread := congrArg unquoteMessage? h
  rwa [unquoteMessage?_quoteMessage, unquoteMessage?_quoteMessage, Option.some.injEq] at hread

end Text

/-! ### Messages in status lines -/

namespace Ref

variable {r : Ref}

/-- A ref that it is settled on has what the remote said in its status line. -/
theorem statusLine?_of_said (h : r.isSettled = true) (m : String) :
    { r with remoteStatus := some m }.statusLine? =
      some (r.status.word ++ " " ++ r.name ++ " " ++ Text.quoteMessage m) := by
  rw [isSettled, isRequested, Bool.and_eq_true, bne_iff_ne, Option.isSome_iff_exists] at h
  obtain ⟨⟨peer, hpeer⟩, hstatus⟩ := h
  rw [statusLine?]
  cases hs : r.status with
  | expectingReport => exact absurd hs hstatus
  | _ => simp [hpeer, RefStatus.verdict?, RefStatus.word]

/-- Apart from the name of the ref, a status line is plain. -/
theorem isPlain_of_mem_statusLine? {line : String} (h : r.statusLine? = some line) {c : Char}
    (hc : c ∈ line.toList) : c ∈ r.name.toList ∨ Text.IsPlain c := by
  cases hsettled : r.isSettled with
  | false =>
    rw [statusLine?_of_not_settled hsettled] at h
    cases h
  | true =>
    obtain ⟨line', hline', remark, hremark⟩ := hasLine_of_settled hsettled
    obtain rfl : line = line' := Option.some.inj (h.symm.trans hline')
    have hword : (r.status.word.toList.all fun c => decide (Text.IsPlain c)) = true := by
      rw [RefStatus.word]
      split <;> decide
    rw [hremark] at hc
    simp only [String.toList_append, List.mem_append] at hc
    rcases hc with ((hc | hc) | hc) | hc
    · exact .inr (of_decide_eq_true (List.all_eq_true.mp hword c hc))
    · exact .inr (by rw [List.mem_singleton.mp hc]; decide)
    · exact .inl hc
    · cases remark with
      | none => cases hc
      | some m =>
        rw [Option.elim_some, String.toList_append, List.mem_append] at hc
        rcases hc with hc | hc
        · exact .inr (by rw [List.mem_singleton.mp hc]; decide)
        · exact .inr (isPlain_of_mem_quoteMessage hc)

end Ref

/-- Messages survive quoting: a quoted message is plain ASCII and is read back, so different messages
are quoted differently. In a status line only the name of the ref can hold anything else, and two
messages of the remote give the same status line only if they are the same, where there is a line. -/
theorem messages_survive_quoting :
    (∀ s : String, (∀ c ∈ (Text.quoteMessage s).toList, Text.IsPlain c) ∧
      Text.unquoteMessage? (Text.quoteMessage s) = some s) ∧
    Function.Injective Text.quoteMessage ∧
    ∀ r : Ref,
      (∀ line, r.statusLine? = some line →
        ∀ c ∈ line.toList, c ∈ r.name.toList ∨ Text.IsPlain c) ∧
      ∀ m m' : String, { r with remoteStatus := some m }.statusLine? =
          { r with remoteStatus := some m' }.statusLine? ↔ r.isSettled = false ∨ m = m' := by
  refine ⟨fun s => ⟨fun c => isPlain_of_mem_quoteMessage, Text.unquoteMessage?_quoteMessage s⟩,
    Text.quoteMessage_injective, fun r => ⟨fun line hline c => Ref.isPlain_of_mem_statusLine? hline,
    fun m m' => ?_⟩⟩
  cases hsettled : r.isSettled with
  | false =>
    rw [Ref.statusLine?_of_not_settled (r := { r with remoteStatus := some m }) hsettled,
      Ref.statusLine?_of_not_settled (r := { r with remoteStatus := some m' }) hsettled]
    simp
  | true =>
    rw [Ref.statusLine?_of_said hsettled, Ref.statusLine?_of_said hsettled, Option.some.injEq,
      String.append_right_inj, Text.quoteMessage_injective.eq_iff]
    simp

/-- A branch that the remote refused. -/
def refusedRef : Ref :=
  { name := "b", oldId := .null, status := .remoteReject, peer := some "b" }

/-- An accented letter and a line feed are escaped, and read back. -/
theorem messages_survive_quoting_accented :
    Text.quoteMessage "d\u00e9j\u00e0\n1" = "\"d\\303\\251j\\303\\240\\n1\"" ∧
    Text.unquoteMessage? "\"d\\303\\251j\\303\\240\\n1\"" = some "d\u00e9j\u00e0\n1" ∧
    { refusedRef with remoteStatus := some "no\n" }.statusLine? ≠
      { refusedRef with remoteStatus := some "\"no\\n\"" }.statusLine? := by
  have hquoted : Text.quoteMessage "d\u00e9j\u00e0\n1" = "\"d\\303\\251j\\303\\240\\n1\"" := by
    decide +kernel
  have hback := (messages_survive_quoting.1 "d\u00e9j\u00e0\n1").2
  rw [hquoted] at hback
  refine ⟨hquoted, hback, fun hsame => ?_⟩
  rcases ((messages_survive_quoting.2.2 refusedRef).2 _ _).mp hsame with h | h
  · exact absurd h (by decide)
  · exact absurd h (by decide)

end GitRemote
