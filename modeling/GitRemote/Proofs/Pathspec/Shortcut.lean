import GitRemote.Proofs.Pathspec.Reading

/-!
# Shortcuts past the glob

The plain beginning of a pattern, and one star with a plain rest, are compared byte by byte. The answer is
that of the whole pattern unless a run of stars cuts a component: behind the plain beginning the run looks
as if it started one.
-/

namespace GitRemote

variable {cs plain rest text : List Char}

/-! ### Wildcards among bytes -/

/-- The bytes of a character are wildcards just if it is one. -/
theorem isWildcard_of_mem {c : Char} {b : UInt8} (h : b ∈ String.utf8EncodeChar c) :
    isWildcard b = Wildcard.isSpecial c := by
  rw [Bool.eq_iff_iff]
  constructor
  · intro hb
    have hcases : b = 0x2A ∨ b = 0x3F ∨ b = 0x5B ∨ b = 0x5C := by
      simpa [isWildcard, or_assoc] using hb
    rcases hcases with rfl | rfl | rfl | rfl <;>
      rw [(Utf8.mem_utf8EncodeChar (by decide)).mp h] <;> rfl
  · intro hc
    have hcases : c = '*' ∨ c = '?' ∨ c = '[' ∨ c = '\\' := by
      simpa [Wildcard.isSpecial, or_assoc] using hc
    rcases hcases with rfl | rfl | rfl | rfl <;>
      rw [Utf8.utf8EncodeChar_ascii (by decide), List.mem_singleton] at h <;> rw [h] <;> rfl

/-- The first byte of a text is that of its first character. -/
theorem textBytes_cons (c : Char) (cs : List Char) :
    ∃ b tail, textBytes (c :: cs) = b :: (tail ++ textBytes cs) ∧
      String.utf8EncodeChar c = b :: tail := by
  obtain ⟨b, tail, hc⟩ := List.exists_cons_of_ne_nil (String.utf8EncodeChar_ne_nil (c := c))
  refine ⟨b, tail, ?_, hc⟩
  rw [textBytes, List.flatMap_cons, hc]
  rfl

/-- The plain beginning of a text has the bytes of its plain characters. -/
theorem takeWhile_textBytes (cs : List Char) :
    (textBytes cs).takeWhile (!isWildcard ·) =
      textBytes (cs.takeWhile (!Wildcard.isSpecial ·)) := by
  induction cs with
  | nil => rfl
  | cons c cs ih =>
    by_cases hc : Wildcard.isSpecial c = true
    · obtain ⟨b, tail, htext, hb⟩ := textBytes_cons c cs
      have hspecial : isWildcard b = true := by
        rw [isWildcard_of_mem (c := c) (hb ▸ List.mem_cons_self), hc]
      rw [htext, List.takeWhile_cons_of_neg (by simp [hspecial]),
        List.takeWhile_cons_of_neg (by simp [hc])]
      rfl
    · have hall : ∀ b ∈ String.utf8EncodeChar c, (!isWildcard b) = true := by
        intro b hb
        rw [isWildcard_of_mem hb, Bool.not_eq_true', Bool.eq_false_iff]
        exact hc
      rw [List.takeWhile_cons_of_pos (by simp [hc]), textBytes, List.flatMap_cons,
        List.takeWhile_append_of_pos hall, ← textBytes, ih, textBytes, textBytes, List.flatMap_cons]

/-- Only plain characters have no wildcard among their bytes. -/
theorem any_isWildcard_textBytes :
    (textBytes cs).any isWildcard = false ↔ Wildcard.Plain cs := by
  rw [List.any_eq_false]
  constructor
  · intro h c hc
    obtain ⟨b, tail, hb⟩ := List.exists_cons_of_ne_nil (String.utf8EncodeChar_ne_nil (c := c))
    have hmem : b ∈ String.utf8EncodeChar c := hb ▸ List.mem_cons_self
    rw [← isWildcard_of_mem hmem, Bool.eq_false_iff]
    exact h b (List.mem_flatMap.mpr ⟨c, hc, hmem⟩)
  · intro h b hb
    obtain ⟨c, hc, hmem⟩ := List.mem_flatMap.mp hb
    rw [isWildcard_of_mem hmem, h c hc]
    exact Bool.false_ne_true

/-- Encoded texts match as the texts do. -/
theorem matchesBytes_textBytes (separate icase : Bool) (pattern text : List Char) :
    Wildcard.matchesBytes (textBytes pattern) (textBytes text) separate icase =
      Wildcard.matchesText pattern text separate icase := by
  rw [Wildcard.matchesBytes, textBytes, textBytes, Utf8.charsLossy_flatMap,
    Utf8.charsLossy_flatMap]

namespace PathspecItem

variable {item : PathspecItem}

/-- One star is all there is behind the plain part, apart from a plain rest. -/
theorem isOneStar_iff (hbehind : item.pattern.drop item.plainLength = textBytes rest) :
    item.isOneStar = true ↔
      item.magic.glob = false ∧ ∃ tail, rest = '*' :: tail ∧ Wildcard.Plain tail := by
  rw [isOneStar, hbehind, Bool.and_eq_true, Bool.not_eq_true']
  refine and_congr_right fun _ => ?_
  cases rest with
  | nil =>
    constructor
    · exact nofun
    · rintro ⟨tail, htail, -⟩
      cases htail
  | cons c rest =>
    obtain ⟨b, tail, htext, hc⟩ := textBytes_cons c rest
    rw [htext]
    constructor
    · intro hstar
      obtain ⟨hb, hplain⟩ := Bool.and_eq_true_iff.mp hstar
      obtain rfl := beq_iff_eq.mp hb
      obtain rfl : c = '*' :=
        (Utf8.mem_utf8EncodeChar (by decide)).mp (hc ▸ List.mem_cons_self)
      obtain rfl : tail = [] := (List.cons.inj hc).2.symm
      exact ⟨rest, rfl, any_isWildcard_textBytes.mp (Bool.not_eq_true' _ ▸ hplain)⟩
    · rintro ⟨tail', htail, hplain⟩
      obtain ⟨rfl, rfl⟩ := List.cons.inj htail
      obtain ⟨rfl, rfl⟩ := List.cons.inj hc
      exact Bool.and_eq_true_iff.mpr
        ⟨rfl, (Bool.not_eq_true' _).mpr (any_isWildcard_textBytes.mpr hplain)⟩

/-- A name matches if it starts with the plain part and goes on with what the rest matches. -/
theorem matchesWildcard_iff (hpattern : item.pattern = textBytes (plain ++ rest))
    (hlength : item.plainLength = (textBytes plain).length) (hnul : '\x00' ∉ plain ++ rest) :
    item.matchesWildcard item.pattern (textBytes text) item.plainLength = true ↔
      ∃ front back, text = front ++ back ∧
        front.map (foldChar item.magic.icase) = plain.map (foldChar item.magic.icase) ∧
          Wildcard.matchesText rest back item.magic.glob item.magic.icase = true := by
  rw [List.mem_append, not_or] at hnul
  have hbehind : item.pattern.drop item.plainLength = textBytes rest := by
    rw [hpattern, hlength, textBytes_append, List.drop_left]
  have hname (front back : List Char)
      (hfront : front.map (foldChar item.magic.icase) = plain.map (foldChar item.magic.icase)) :
      (textBytes (front ++ back)).drop item.plainLength = textBytes back := by
    rw [hlength, ← length_textBytes_of_fold hfront, textBytes_append, List.drop_left]
  have hrest (back : List Char) :
      (if item.isOneStar && (textBytes rest).head? == some 0x2A then
        (textBytes rest).tail.length ≤ (textBytes back).length &&
          agreeUpTo item.magic.icase (textBytes rest).tail.length (textBytes rest).tail
            ((textBytes back).drop ((textBytes back).length - (textBytes rest).tail.length))
      else Wildcard.matchesBytes (textBytes rest) (textBytes back) item.magic.glob
        item.magic.icase) = true ↔
        Wildcard.matchesText rest back item.magic.glob item.magic.icase = true := by
    by_cases hstar : item.isOneStar = true
    · obtain ⟨hglob, tail, rfl, hplain⟩ := (isOneStar_iff hbehind).mp hstar
      have hnul : '\x00' ∉ tail := fun hmem => hnul.2 (List.mem_cons_of_mem _ hmem)
      have htail : (textBytes ('*' :: tail)).tail = textBytes tail := rfl
      rw [if_pos (by rw [hstar]; rfl), htail, hglob, Wildcard.matchesText_star hplain,
        Bool.and_eq_true, decide_eq_true_eq, agreeUpTo_end hnul]
    · rw [if_neg (by simp [hstar]), matchesBytes_textBytes]
  rw [matchesWildcard, Bool.and_eq_true, hbehind]
  constructor
  · rintro ⟨hagree, hmatch⟩
    rw [hpattern, hlength] at hagree
    obtain ⟨front, back, rfl, hfront⟩ := (agreeUpTo_front hnul.1 rest).mp hagree
    rw [hname front back hfront] at hmatch
    exact ⟨front, back, rfl, hfront, (hrest back).mp hmatch⟩
  · rintro ⟨front, back, rfl, hfront, hmatch⟩
    rw [hname front back hfront]
    refine ⟨?_, (hrest back).mpr hmatch⟩
    rw [hpattern, hlength]
    exact (agreeUpTo_front hnul.1 rest).mpr ⟨front, back, rfl, hfront⟩

/-- The part that is compared as it is ends in front of the first wildcard. -/
theorem plainLength_of_textBytes (hliteral : item.magic.literal = false)
    (hpattern : item.pattern = textBytes cs) :
    item.plainLength = (textBytes (cs.takeWhile (!Wildcard.isSpecial ·))).length := by
  rw [plainLength, hliteral, hpattern, GitRemote.plainLength, takeWhile_textBytes]
  rfl

end PathspecItem

/-- Where no component is cut, a wildcard is matched as a whole. -/
theorem matchesWildcard_eq_matchesText {item : PathspecItem} {pattern : String} (name : String)
    (hliteral : item.magic.literal = false) (hpattern : item.pattern = Utf8.encode pattern)
    (hnul : '\x00' ∉ pattern.toList)
    (hcut : item.magic.glob = true → ¬ Wildcard.CutsComponent pattern.toList) :
    item.matchesWildcard item.pattern (Utf8.encode name) item.plainLength =
      Wildcard.matchesText pattern.toList name.toList item.magic.glob item.magic.icase := by
  rw [encode_eq_textBytes] at hpattern
  have hlength := PathspecItem.plainLength_of_textBytes hliteral hpattern
  have hplain : Wildcard.Plain (pattern.toList.takeWhile (!Wildcard.isSpecial ·)) := by
    intro c hc
    simpa using List.mem_takeWhile_imp hc
  have hsplit := List.takeWhile_append_dropWhile (p := (!Wildcard.isSpecial ·)) (l := pattern.toList)
  rw [← hsplit] at hpattern hnul hcut
  rw [Bool.eq_iff_iff, encode_eq_textBytes,
    PathspecItem.matchesWildcard_iff hpattern hlength hnul, ← Wildcard.matchesText_append hplain hcut,
    hsplit]

/-- Where no component is cut, the shortcuts give the answer of the whole pattern. Then a run of stars
that is not a whole component takes no slash of a name that matches. -/
theorem shortcuts_invisible_unless_component_cut (item : PathspecItem) (pattern name : String)
    (hliteral : item.magic.literal = false) (hpattern : item.pattern = Utf8.encode pattern)
    (hnul : '\x00' ∉ pattern.toList)
    (hcut : item.magic.glob = true → ¬ Wildcard.CutsComponent pattern.toList) :
    item.matchesWildcard item.pattern (Utf8.encode name) item.plainLength =
        Wildcard.matchesBytes item.pattern (Utf8.encode name) item.magic.glob item.magic.icase ∧
      (item.magic.glob = true →
        item.matchesWildcard item.pattern (Utf8.encode name) item.plainLength = true →
        ∀ before : Wildcard.Place,
          Relation.ReflTransGen (Wildcard.Place.Next true) (.start pattern.toList) before →
          before.AtPartialRun →
          match Glob.compile? (Wildcard.toGlob true pattern.toList) with
          | some tokens => ∃ pieces piece,
              Glob.Splits ⟨item.magic.icase, true⟩ tokens pieces ∧
                pieces.flatten = name.toList ∧ pieces[before.done.length]? = some piece ∧
                  '/' ∉ piece
          | none => name.toList.map (foldChar item.magic.icase) =
              pattern.toList.map (foldChar item.magic.icase)) := by
  have hwhole := matchesWildcard_eq_matchesText name hliteral hpattern hnul hcut
  constructor
  · rw [hwhole, hpattern, encode_eq_textBytes, encode_eq_textBytes, matchesBytes_textBytes]
  · intro hglob hmatch before hreads hrun
    rw [hwhole, hglob] at hmatch
    exact Wildcard.piece_of_atPartialRun hreads hrun hmatch

/-- The item `:(glob)a/**/b**c`. -/
def wholeItem : PathspecItem := ⟨Utf8.encode "a/**/b**c", ":(glob)a/**/b**c", { glob := true }⟩

/-- The place behind `b`. -/
def wholePlace : Wildcard.Place :=
  ⟨[.char 'a', .char '/', .anyComponents, .char 'b'], false, "**c".toList⟩

theorem shortcuts_invisible_for_whole_components :
    wholeItem.magic.literal = false ∧ wholeItem.pattern = Utf8.encode "a/**/b**c" ∧
      '\x00' ∉ "a/**/b**c".toList ∧ ¬ Wildcard.CutsComponent "a/**/b**c".toList ∧
      wholeItem.magic.glob = true ∧
      wholeItem.matchesWildcard wholeItem.pattern (Utf8.encode "a/x/y/bzzc")
        wholeItem.plainLength = true ∧
      Wildcard.matchesBytes wholeItem.pattern (Utf8.encode "a/x/y/bzzc") true false = true ∧
      ∃ (pieces : List (List Char)) (piece : List Char), pieces.flatten = "a/x/y/bzzc".toList ∧
        pieces[4]? = some piece ∧ '/' ∉ piece := by
  have hcut : ¬ Wildcard.CutsComponent "a/**/b**c".toList := by decide
  obtain ⟨hsame, hpieces⟩ := shortcuts_invisible_unless_component_cut wholeItem "a/**/b**c"
    "a/x/y/bzzc" rfl rfl (by decide) fun _ => hcut
  have hmatch : wholeItem.matchesWildcard wholeItem.pattern (Utf8.encode "a/x/y/bzzc")
      wholeItem.plainLength = true := by decide +kernel
  have hreads : Relation.ReflTransGen (Wildcard.Place.Next true) (.start "a/**/b**c".toList)
      wholePlace := by
    refine .head (.plain rfl) (.head (.plain rfl) (.head (.components (n := 0) rfl) ?_))
    exact .single (.plain rfl)
  have hrun : wholePlace.AtPartialRun := ⟨1, ['c'], rfl, by decide, .inr (.inl rfl)⟩
  have hglob : Glob.compile? (Wildcard.toGlob true "a/**/b**c".toList) = some
      [.char 'a', .char '/', .anyComponents, .char 'b', .anySequence, .char 'c'] := by decide
  have hpiece := hpieces rfl hmatch wholePlace hreads hrun
  rw [hglob] at hpiece
  obtain ⟨pieces, piece, -, htext, hpiece, hslash⟩ := hpiece
  exact ⟨rfl, rfl, by decide, hcut, rfl, hmatch, hsame ▸ hmatch, pieces, piece, htext, hpiece,
    hslash⟩

/-- The item `:(glob)a**`. -/
def cuttingItem : PathspecItem := ⟨Utf8.encode "a**", ":(glob)a**", { glob := true }⟩

theorem cutting_item_matches_below :
    PathspecItem.parse ":(glob)a**" = .ok cuttingItem ∧
      cuttingItem.matchesWildcard cuttingItem.pattern (Utf8.encode "ab/c")
        cuttingItem.plainLength = true ∧
      Wildcard.matchesBytes cuttingItem.pattern (Utf8.encode "ab/c") cuttingItem.magic.glob
        cuttingItem.magic.icase = false := by
  refine ⟨?_, ?_, ?_⟩ <;> decide +kernel

end GitRemote
