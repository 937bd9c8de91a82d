import GitRemote.Proofs.Pathspec.Backtracking
import GitRemote.Proofs.Pathspec.Translation
import Mathlib.Data.List.Chain

/-!
# The parts of a wildcard

A wildcard is written part by part: plain characters, escaped ones, question marks, runs of stars and sets.
Each part means a token of the glob dialect. An escaped character means just itself, in a set as well as
outside; two or more stars mean two stars where they are a whole component and slashes count, and one star
everywhere else.
-/

namespace GitRemote

namespace Wildcard

/-- A member of a set, written with or without a backslash. -/
structure Member where
  char : Char
  escaped : Bool := false
  deriving DecidableEq, Repr

/-- What negates a set. -/
inductive Sign where
  | exclamation
  | caret
  deriving DecidableEq, Repr

def Sign.char : Sign → Char
  | .exclamation => '!'
  | .caret => '^'

/-- A set with its closing bracket. Only its first member may be a closing bracket without a backslash, and
only behind a sign may the first member be a character that negates. -/
structure BracketSet where
  sign : Option Sign
  first : Member
  others : List Member
  bare : ∀ m ∈ first :: others, m.escaped = true ∨ m.char ≠ '\\'
  unclosed : ∀ m ∈ others, m.escaped = true ∨ m.char ≠ ']'
  unsigned : sign = none → first.escaped = true ∨ (first.char ≠ '!' ∧ first.char ≠ '^')

/-- A part of a wildcard. -/
inductive Part where
  | plain (c : Char) (h : isSpecial c = false)
  | escaped (c : Char)
  | any
  /-- A run of stars, one more than the number. -/
  | stars (more : Nat)
  | set (s : BracketSet)

/-! ### How parts are written -/

def Member.written (m : Member) : List Char := if m.escaped then ['\\', m.char] else [m.char]

def BracketSet.members (s : BracketSet) : List Member := s.first :: s.others

/-- What stands behind the opening bracket. -/
def BracketSet.body (s : BracketSet) : List Char :=
  s.sign.toList.map Sign.char ++ s.members.flatMap Member.written ++ [']']

def Part.written : Part → List Char
  | .plain c _ => [c]
  | .escaped c => ['\\', c]
  | .any => ['?']
  | .stars more => List.replicate (more + 1) '*'
  | .set s => '[' :: s.body

def written (parts : List Part) : List Char := parts.flatMap Part.written

def Part.IsStars : Part → Prop
  | .stars _ => True
  | _ => False

/-- Two runs of stars are one run: they do not stand next to each other. -/
def Apart (parts : List Part) : Prop := parts.IsChain fun p q => ¬ (p.IsStars ∧ q.IsStars)

/-! ### What parts mean -/

/-- The members of a set: a dash between two of them makes a range, unless it is escaped. -/
def memberSpecifiers : List Member → List Glob.Specifier
  | a :: ⟨'-', false⟩ :: b :: rest => .range a.char b.char :: memberSpecifiers rest
  | a :: rest => .single a.char :: memberSpecifiers rest
  | [] => []

def BracketSet.token (s : BracketSet) : Glob.Token :=
  match s.sign with
  | some _ => .noneOf (memberSpecifiers s.members)
  | none => .anyOf (memberSpecifiers s.members)

/-- The tokens that parts mean, where a component starts in front of them or does not. Stars that are a
whole component take the slash behind them. -/
def meaning (separate : Bool) : Bool → List Part → List Glob.Token
  | _, [] => []
  | _, .plain c _ :: parts => .char c :: meaning separate (c == '/') parts
  | _, .escaped c :: parts => .char c :: meaning separate (c == '/') parts
  | _, .any :: parts => .anyChar :: meaning separate false parts
  | _, .set s :: parts => s.token :: meaning separate false parts
  | starts, [.stars more] =>
    if separate && starts && more != 0 then [.anyComponents] else [.anySequence]
  | starts, .stars more :: .plain '/' _ :: parts =>
    if separate && starts && more != 0 then .anyComponents :: meaning separate true parts
    else .anySequence :: .char '/' :: meaning separate true parts
  | _, .stars _ :: parts => .anySequence :: meaning separate false parts

variable {separate starts : Bool}

/-- When stars are a whole component, if there is a slash or nothing behind them. -/
theorem whole_iff {more : Nat} :
    (separate && starts && more != 0) = true ↔
      separate = true ∧ starts = true ∧ ∃ n, more = n + 1 := by
  rw [Bool.and_eq_true, Bool.and_eq_true, bne_iff_ne, ← Nat.pos_iff_ne_zero, Nat.exists_eq_add_one,
    and_assoc]

/-- Stars that are not a whole component are one star, or stand behind something else. -/
theorem not_whole {more : Nat} (h : ¬ (separate && starts && more != 0) = true)
    (hseparate : separate = true) : more = 0 ∨ starts = false := by
  rw [Bool.and_eq_true, Bool.and_eq_true, bne_iff_ne, not_and_or, not_and_or, not_not,
    Bool.not_eq_true starts] at h
  exact (h.imp_left fun h => h.resolve_left (not_not_intro hseparate)).symm

/-- Behind a character, two stars may stand if it is a slash. -/
theorem anchored_char (starts : Bool) (c : Char) (tokens : List Glob.Token) :
    Glob.Anchored starts (.char c :: tokens) ↔ Glob.Anchored (c == '/') tokens := by
  have hslash : (Glob.Token.char c == .char '/') = (c == '/') := by
    rw [Bool.eq_iff_iff, beq_iff_eq, beq_iff_eq, Glob.Token.char.injEq]
  rw [← hslash]
  rfl

/-- Behind a set, two stars may not stand. -/
theorem BracketSet.anchored_token (s : BracketSet) (starts : Bool) (tokens : List Glob.Token) :
    Glob.Anchored starts (s.token :: tokens) ↔ Glob.Anchored false tokens := by
  rw [token]
  split <;> rfl

/-- Two stars are meant only where a component starts. -/
theorem anchored_meaning (separate starts : Bool) (parts : List Part) :
    Glob.Anchored starts (meaning separate starts parts) := by
  fun_induction meaning separate starts parts with
  | case1 => trivial
  | case2 starts c h parts ih => exact (anchored_char starts c _).mpr ih
  | case3 starts c parts ih => exact (anchored_char starts c _).mpr ih
  | case4 starts parts ih => exact ih
  | case5 starts s parts ih => exact (s.anchored_token starts _).mpr ih
  | case6 starts more hwhole => exact ⟨(whole_iff.mp hwhole).2.1, trivial⟩
  | case7 => trivial
  | case8 starts more h parts hwhole ih => exact ⟨(whole_iff.mp hwhole).2.1, ih⟩
  | case9 starts more h parts hpart ih => exact (anchored_char false '/' _).mpr ih
  | case10 starts more parts hnil hslash ih => exact ih

theorem isSpecial_slash : isSpecial '/' = false := rfl

/-- A slash without its backslash. -/
def Part.bareSlash : Part → Part
  | .escaped '/' => .plain '/' isSpecial_slash
  | p => p

/-- No run of stars stands in front of an escaped slash, which would not end a component. -/
def SlashesBare (parts : List Part) : Prop :=
  parts.IsChain fun p q => ¬ (p.IsStars ∧ q = .escaped '/')

/-- A slash without its backslash was a slash, with or without one. -/
theorem eq_of_bareSlash_eq {p : Part} {hc : isSpecial '/' = false} (h : p.bareSlash = .plain '/' hc) :
    p = .plain '/' hc ∨ p = .escaped '/' := by
  rw [Part.bareSlash.eq_def] at h
  split at h
  · exact .inr rfl
  · exact .inl h

/-- Stars that are not a whole component are one star. -/
theorem meaning_stars {more : Nat} {parts : List Part}
    (h : (separate && starts && more != 0) = false ∨
      parts ≠ [] ∧ ∀ hc parts', parts ≠ .plain '/' hc :: parts') :
    meaning separate starts (.stars more :: parts) = .anySequence :: meaning separate false parts := by
  by_cases hnil : parts = []
  · subst hnil
    exact if_neg (Bool.eq_false_iff.mp (h.resolve_right fun h => h.1 rfl))
  · by_cases hslash : ∃ hc parts', parts = .plain '/' hc :: parts'
    · obtain ⟨hc, parts, rfl⟩ := hslash
      exact if_neg (Bool.eq_false_iff.mp (h.resolve_right fun h => h.2 hc parts rfl))
    · rw [meaning]
      · exact hnil
      · exact fun hc later hparts => hslash ⟨hc, later, hparts⟩

/-- The backslash in front of a slash means nothing, unless it stands behind stars. -/
theorem meaning_bareSlash (starts : Bool) {parts : List Part}
    (h : separate = true → SlashesBare parts) :
    meaning separate starts (parts.map Part.bareSlash) = meaning separate starts parts := by
  have htail {p : Part} {parts : List Part} (h : separate = true → SlashesBare (p :: parts)) :
      separate = true → SlashesBare parts := fun hseparate => (h hseparate).of_cons
  fun_induction meaning separate starts parts with
  | case1 => rfl
  | case2 starts c hc parts ih =>
    rw [← ih (htail h)]
    rfl
  | case3 starts c parts ih =>
    rw [List.map_cons, ← ih (htail h), Part.bareSlash.eq_def]
    split
    · next hescaped =>
      cases hescaped
      rfl
    · rfl
  | case4 starts parts ih =>
    rw [← ih (htail h)]
    rfl
  | case5 starts s parts ih =>
    rw [← ih (htail h)]
    rfl
  | case6 starts more hwhole => exact if_pos hwhole
  | case7 starts more hpart => exact if_neg hpart
  | case8 starts more hc parts hwhole ih =>
    rw [← ih (htail (htail h))]
    exact if_pos hwhole
  | case9 starts more hc parts hpart ih =>
    rw [← ih (htail (htail h))]
    exact if_neg hpart
  | case10 starts more parts hnil hslash ih =>
    rw [← ih (htail h)]
    refine meaning_stars (Decidable.or_iff_not_imp_left.mpr fun hwhole => ?_)
    rw [Bool.not_eq_false, whole_iff] at hwhole
    refine ⟨fun hmap => hnil (List.map_eq_nil_iff.mp hmap), fun hc later hmap => ?_⟩
    obtain ⟨p, parts, rfl, hp, -⟩ := List.map_eq_cons_iff.mp hmap
    rcases eq_of_bareSlash_eq hp with rfl | rfl
    · exact hslash hc parts rfl
    · exact (List.isChain_cons_cons.mp (h hwhole.1)).1 ⟨trivial, rfl⟩

/-! ### Sets without their backslashes -/

/-- No dash between two members is escaped. -/
def DashesKept : List Member → Prop
  | _ :: ⟨'-', escaped⟩ :: _ :: rest => escaped = false ∧ DashesKept rest
  | _ :: rest => DashesKept rest
  | [] => True

/-- A set that reads the same without its backslashes: it has no closing bracket behind its first member, it
does not come to start with an exclamation mark, and no dash comes to make a range. -/
structure BracketSet.Kept (s : BracketSet) : Prop where
  closing : ∀ m ∈ s.others, m.char ≠ ']'
  negating : s.sign = none → s.first.char ≠ '!'
  dashes : DashesKept s.members

/-- Where no dash is escaped between two members, the bare members are read as the written ones. -/
theorem specifiers_eq_of_dashesKept {members : List Member} (h : DashesKept members) :
    Glob.specifiers (members.map Member.char) = memberSpecifiers members := by
  fun_induction DashesKept members with
  | case1 a escaped b rest ih =>
    obtain ⟨rfl, hrest⟩ := h
    rw [memberSpecifiers, ← ih hrest]
    rfl
  | case2 a rest hdash ih =>
    have hbare : ∀ b more, rest.map Member.char ≠ '-' :: b :: more := by
      intro b more hmap
      obtain ⟨⟨d, escaped⟩, behind, rfl, rfl, hbehind⟩ := List.map_eq_cons_iff.mp hmap
      obtain ⟨b, behind, rfl, -⟩ := List.map_eq_cons_iff.mp hbehind
      exact hdash escaped b behind rfl
    rw [List.map_cons, Glob.specifiers, memberSpecifiers, ih h]
    · exact fun b more hmore => hdash false b more hmore
    · exact hbare
  | case3 => rfl

variable {ms : List Member} {rest : List Char}

/-- The members are copied without their backslashes, up to the first bracket that has none. -/
theorem setMembers_written
    (h : ∀ m ∈ ms, m.escaped = true ∨ (m.char ≠ ']' ∧ m.char ≠ '\\')) :
    setMembers (ms.flatMap Member.written ++ ']' :: rest) = (ms.map Member.char ++ [']'], rest) := by
  induction ms with
  | nil => rfl
  | cons m ms ih =>
    obtain ⟨hm, hms⟩ := List.forall_mem_cons.mp h
    rw [List.flatMap_cons, List.append_assoc, Member.written]
    split_ifs with hescaped
    · rw [List.cons_append, List.singleton_append, setMembers, ih hms]
      rfl
    · obtain ⟨hclosing, hbackslash⟩ := hm.resolve_left hescaped
      rw [List.singleton_append, setMembers, ih hms]
      · rfl
      · exact hclosing
      · exact fun _ _ hc => absurd hc hbackslash

/-- A set behind the sign that negates. -/
def unsignedBody : List Char → List Char × List Char
  | ']' :: rest => (']' :: (setMembers rest).1, (setMembers rest).2)
  | cs => setMembers cs

/-- Either sign in front of a set is written as an exclamation mark. -/
theorem setBody_sign (sign : Sign) (cs : List Char) :
    setBody (sign.char :: cs) = ('!' :: (unsignedBody cs).1, (unsignedBody cs).2) := by
  fun_cases unsignedBody cs with
  | case1 => cases sign <;> rfl
  | case2 cs hclosing => cases sign <;> simp [Sign.char, setBody]

/-- A set without a sign is its members. -/
theorem setBody_unsigned {cs : List Char} (h : cs.head? ≠ some '!' ∧ cs.head? ≠ some '^') :
    setBody cs = unsignedBody cs := by
  fun_cases unsignedBody cs with
  | case1 => rfl
  | case2 cs hclosing =>
    match cs with
    | [] => rfl
    | c :: cs =>
      have hc : c ≠ '!' ∧ c ≠ '^' := ⟨fun hc => h.1 (hc ▸ rfl), fun hc => h.2 (hc ▸ rfl)⟩
      simp [setBody, hc.1, hc.2]

namespace BracketSet

variable (s : BracketSet)

/-- The set in the glob dialect, behind its opening bracket. -/
def glob : List Char := s.sign.toList.map (fun _ => '!') ++ s.members.map Member.char ++ [']']

/-- A set starts with its first member, or with the backslash of it. -/
theorem head?_members (rest : List Char) :
    (s.members.flatMap Member.written ++ rest).head? =
      some (if s.first.escaped then '\\' else s.first.char) := by
  rw [members, List.flatMap_cons, Member.written]
  split_ifs <;> rfl

/-- The members of a set are written without their backslashes. -/
theorem unsignedBody_written (rest : List Char) :
    unsignedBody (s.members.flatMap Member.written ++ ']' :: rest) =
      (s.members.map Member.char ++ [']'], rest) := by
  have hothers : ∀ m ∈ s.others, m.escaped = true ∨ (m.char ≠ ']' ∧ m.char ≠ '\\') := by
    intro m hm
    rcases s.unclosed m hm with hescaped | hclosing
    · exact .inl hescaped
    · exact (s.bare m (List.mem_cons_of_mem _ hm)).imp_right fun hbackslash => ⟨hclosing, hbackslash⟩
  by_cases hfirst : s.first.escaped = true ∨ s.first.char ≠ ']'
  · have hmembers : ∀ m ∈ s.members, m.escaped = true ∨ (m.char ≠ ']' ∧ m.char ≠ '\\') := by
      refine List.forall_mem_cons.mpr ⟨?_, hothers⟩
      rcases hfirst with hescaped | hclosing
      · exact .inl hescaped
      · exact (s.bare _ List.mem_cons_self).imp_right fun hbackslash => ⟨hclosing, hbackslash⟩
    rw [unsignedBody, setMembers_written hmembers]
    intro cs hcs
    have hhead := s.head?_members (']' :: rest)
    rw [hcs, List.head?_cons, Option.some.injEq] at hhead
    split_ifs at hhead with hescaped
    · cases hhead
    · exact hfirst.elim hescaped fun hclosing => hclosing hhead.symm
  · rw [not_or, Bool.not_eq_true, not_not] at hfirst
    have hcs : s.members.flatMap Member.written ++ ']' :: rest =
        ']' :: (s.others.flatMap Member.written ++ ']' :: rest) := by
      rw [members, List.flatMap_cons, Member.written, hfirst.1, hfirst.2]
      rfl
    rw [hcs, unsignedBody, setMembers_written hothers, members, List.map_cons, hfirst.2]
    rfl

/-- A set is translated as a whole, up to its closing bracket. -/
theorem setBody_body (rest : List Char) : setBody (s.body ++ rest) = (s.glob, rest) := by
  cases hsign : s.sign with
  | some sign =>
    have hbody : s.body ++ rest =
        sign.char :: (s.members.flatMap Member.written ++ ']' :: rest) := by
      simp [body, hsign]
    rw [hbody, setBody_sign, unsignedBody_written, glob, hsign]
    rfl
  | none =>
    have hbody : s.body ++ rest = s.members.flatMap Member.written ++ ']' :: rest := by
      simp [body, hsign]
    rw [hbody, setBody_unsigned, unsignedBody_written, glob, hsign]
    · rfl
    · rw [s.head?_members]
      split_ifs with hescaped
      · decide
      · have hbare := (s.unsigned hsign).resolve_left hescaped
        exact ⟨fun h => hbare.1 (Option.some.inj h), fun h => hbare.2 (Option.some.inj h)⟩

/-- What a set is translated to is read as its token. -/
theorem bracket?_glob (h : s.Kept) : Glob.bracket? s.glob = some (s.token, []) := by
  have huntil : Glob.untilBracket 1 (s.members.map Member.char ++ [']']) =
      some (s.members.map Member.char, []) := by
    refine Glob.untilBracket_eq_some_iff.mpr ⟨rfl, Nat.le_add_left .., ?_⟩
    rw [members, List.map_cons, List.drop_one, List.tail_cons, List.mem_map]
    exact fun ⟨m, hm, hclosing⟩ => h.closing m hm hclosing
  rw [glob, token, ← specifiers_eq_of_dashesKept h.dashes]
  cases hsign : s.sign with
  | some sign =>
    rw [Option.toList_some, List.map_singleton, List.append_assoc, List.singleton_append,
      Glob.bracket?, if_pos, huntil]
    · rfl
    · simp [members]
  | none =>
    rw [Option.toList_none, List.map_nil, List.nil_append, Glob.bracket?, if_pos, huntil]
    · rfl
    · simp [members]
    · intro cs hcs
      exact h.negating hsign (List.cons.inj hcs).1

end BracketSet

end Wildcard

end GitRemote
