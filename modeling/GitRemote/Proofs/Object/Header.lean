import GitRemote.Object.Links
import GitRemote.Proofs.Object.Id
import GitRemote.Proofs.Text.Cut
import GitRemote.Proofs.Text.Lines
import GitRemote.Proofs.Text.Utf8

/-!
# Headers of commits and tags

A header gives an id in each line of a keyword, a blank and forty digits, up to the first empty
line. The links that are found in it are these ids, and they are found unless a line of the keyword
has something else. From a header that was written they come back in order, whatever stands in its
other lines and in the message.
-/

namespace GitRemote

/-! ### What a header gives -/

/-- A line gives an id under one of some keywords: it is a keyword, a blank, and the digits of the
id. -/
def LineGives (keys : List Bytes) (line : Bytes) (id : ObjectId) : Prop :=
  ∃ key ∈ keys, ∃ digits, line = key ++ 0x20 :: digits ∧ ObjectId.ofHex? digits = some id

/-- A header gives an id under one of some keywords if a line in front of its first empty one does.
-/
def HeaderGives (keys : List String) (data : Bytes) (id : ObjectId) : Prop :=
  ∃ line ∈ (Text.splitOn (· == (0x0A : UInt8)) data).takeWhile (!·.isEmpty),
    LineGives (keys.map Utf8.encode) line id

/-- A line that starts with one of some keywords gives an id under it. -/
def LineSound (keys : List Bytes) (line : Bytes) : Prop :=
  ∀ key ∈ keys, ∀ digits, line = key ++ 0x20 :: digits → ∃ id, ObjectId.ofHex? digits = some id

/-- The lines of a header in front of its first empty one give ids, as far as they start with one of
some keywords. -/
def HeaderSound (keys : List String) (data : Bytes) : Prop :=
  ∀ line ∈ (Text.splitOn (· == (0x0A : UInt8)) data).takeWhile (!·.isEmpty),
    LineSound (keys.map Utf8.encode) line

/-- Reading an id succeeds just on the digits of one. -/
theorem ObjectId.parse_eq_ok {digits : Bytes} {id : ObjectId} :
    parse digits = .ok id ↔ ofHex? digits = some id := by
  rw [parse, ofHex?]
  cases ofHex digits <;> simp [Except.toOption, Except.mapError]

section

variable {keys : List Bytes} (hkeys : ∀ key ∈ keys, (0x20 : UInt8) ∉ key)
include hkeys

/-- A line is cut behind the keyword under which it gives an id. -/
theorem lineGives_iff {line : Bytes} {id : ObjectId} :
    LineGives keys line id ↔ ∃ key digits,
      Text.cut? (· == (0x20 : UInt8)) line = some (key, digits) ∧
      key ∈ keys ∧ ObjectId.parse digits = .ok id := by
  simp only [cut?_eq_some, ObjectId.parse_eq_ok, beq_iff_eq, beq_eq_false_iff_ne]
  constructor
  · rintro ⟨key, hkey, digits, hline, hid⟩
    exact ⟨key, digits, ⟨0x20, rfl, fun b hb he => hkeys key hkey (he ▸ hb), hline⟩, hkey, hid⟩
  · rintro ⟨key, digits, ⟨_, rfl, -, hline⟩, hkey, hid⟩
    exact ⟨key, hkey, digits, hline, hid⟩

/-- The ids that are found in some lines are those that the lines give. -/
theorem mem_linksIn {lines : List Bytes} {ids : List ObjectId} (h : linksIn keys lines = .ok ids)
    (id : ObjectId) :
    id ∈ ids ↔ ∃ line ∈ lines.takeWhile (!·.isEmpty), LineGives keys line id := by
  have hcons (line : Bytes) (rest : List Bytes) (hne : line ≠ []) :
      (∃ l ∈ (line :: rest).takeWhile (!·.isEmpty), LineGives keys l id) ↔
        LineGives keys line id ∨ ∃ l ∈ rest.takeWhile (!·.isEmpty), LineGives keys l id := by
    rw [List.takeWhile_cons_of_pos (by simpa using hne)]
    simp only [List.mem_cons, exists_eq_or_imp]
  fun_induction linksIn keys lines generalizing ids with
  | case1 | case2 =>
    cases h
    simp
  | case3 line rest hne hcut ih =>
    have hno : ¬ LineGives keys line id := by simp [lineGives_iff hkeys, hcut]
    rw [hcons line rest fun he => hne he, or_iff_right hno]
    exact ih h
  | case4 => cases h
  | case5 line rest hne key digits hcut hkey found hparse ih =>
    cases hrest : linksIn keys rest with
    | error e =>
      rw [hrest] at h
      cases h
    | ok later =>
      rw [hrest] at h
      cases h
      have hgives : LineGives keys line id ↔ id = found := by
        have hmem : key ∈ keys := by simpa using hkey
        simp [lineGives_iff hkeys, hcut, hmem, hparse, eq_comm]
      rw [hcons line rest fun he => hne he, hgives, List.mem_cons]
      exact or_congr_right (ih hrest)
  | case6 line rest hne key digits hcut hkey ih =>
    have hno : ¬ LineGives keys line id := by
      have hmem : key ∉ keys := by simpa using hkey
      simp [lineGives_iff hkeys, hcut, hmem]
    rw [hcons line rest fun he => hne he, or_iff_right hno]
    exact ih h

/-- A line is sound if what is behind its keyword is an id. -/
theorem lineSound_iff {line : Bytes} :
    LineSound keys line ↔ ∀ key digits, Text.cut? (· == (0x20 : UInt8)) line = some (key, digits) →
      key ∈ keys → ∃ id, ObjectId.parse digits = .ok id := by
  simp only [cut?_eq_some, ObjectId.parse_eq_ok, beq_iff_eq, beq_eq_false_iff_ne]
  constructor
  · rintro h key digits ⟨_, rfl, -, hline⟩ hkey
    exact h key hkey digits hline
  · intro h key hkey digits hline
    exact h key digits ⟨0x20, rfl, fun b hb he => hkeys key hkey (he ▸ hb), hline⟩ hkey

/-- Ids are found in some lines just if all lines up to the first empty one are sound. -/
theorem exists_linksIn_iff {lines : List Bytes} :
    (∃ ids, linksIn keys lines = .ok ids) ↔
      ∀ line ∈ lines.takeWhile (!·.isEmpty), LineSound keys line := by
  have hcons (line : Bytes) (rest : List Bytes) (hne : line ≠ []) :
      (∀ l ∈ (line :: rest).takeWhile (!·.isEmpty), LineSound keys l) ↔
        LineSound keys line ∧ ∀ l ∈ rest.takeWhile (!·.isEmpty), LineSound keys l := by
    rw [List.takeWhile_cons_of_pos (by simpa using hne), List.forall_mem_cons]
  fun_induction linksIn keys lines with
  | case1 | case2 => simp
  | case3 line rest hne hcut ih =>
    have hsound : LineSound keys line := by simp [lineSound_iff hkeys, hcut]
    rw [hcons line rest fun he => hne he, and_iff_right hsound]
    exact ih
  | case4 line rest hne key digits hcut hkey e hparse =>
    have hunsound : ¬ LineSound keys line := by
      have hmem : key ∈ keys := by simpa using hkey
      simp [lineSound_iff hkeys, hcut, hmem, hparse]
    rw [hcons line rest fun he => hne he]
    simp [hunsound]
  | case5 line rest hne key digits hcut hkey found hparse ih =>
    have hsound : LineSound keys line := by simp [lineSound_iff hkeys, hcut, hparse]
    have hmap : (∃ ids, (linksIn keys rest).map (found :: ·) = .ok ids) ↔
        ∃ ids, linksIn keys rest = .ok ids := by
      cases linksIn keys rest <;> simp [Except.map]
    rw [hcons line rest fun he => hne he, and_iff_right hsound, hmap]
    exact ih
  | case6 line rest hne key digits hcut hkey ih =>
    have hsound : LineSound keys line := by
      have hmem : key ∉ keys := by simpa using hkey
      simp [lineSound_iff hkeys, hcut, hmem]
    rw [hcons line rest fun he => hne he, and_iff_right hsound]
    exact ih

end

/-! ### Written headers -/

/-- A text that can stand in front of the blank of a header line. -/
def IsKeyword (key : String) : Prop := 0x20 ∉ Utf8.encode key ∧ 0x0A ∉ Utf8.encode key

instance (key : String) : Decidable (IsKeyword key) := inferInstanceAs (Decidable (_ ∧ _))

/-- Different texts are encoded differently. -/
theorem Utf8.encode_injective : Function.Injective encode := by
  intro s t h
  have hback := decode?_encode s
  rw [h, decode?_encode] at hback
  exact (Option.some.inj hback).symm

/-- The digits of an id do not end a line. -/
theorem ObjectId.lineFeed_not_mem_hexBytes (id : ObjectId) : 0x0A ∉ id.hexBytes := by
  intro h
  have hdigit := isSome_hexValue?_of_mem_hexBytes h
  cases hdigit

theorem ObjectId.parse_hexBytes (id : ObjectId) : parse id.hexBytes = .ok id :=
  parse_eq_ok.mpr (ofHex?_hexBytes id)

section

variable {keys : List String} {key : String} {value : Bytes}

/-- What a header line gives comes in front of what the rest of the header gives. -/
theorem headerLinks_headerLine_append (hkey : IsKeyword key) (hvalue : 0x0A ∉ value)
    (rest : Bytes) :
    headerLinks keys (Object.headerLine key value ++ rest) =
      if key ∈ keys then
        match ObjectId.parse value with
        | .error e => .error e
        | .ok id => (headerLinks keys rest).map (id :: ·)
      else headerLinks keys rest := by
  obtain ⟨hblank, hlineFeed⟩ := hkey
  have hline : Object.headerLine key value ++ rest =
      (Utf8.encode key ++ 0x20 :: value) ++ 0x0A :: rest := by
    simp [Object.headerLine]
  have hfree : ∀ b ∈ Utf8.encode key ++ 0x20 :: value, (b == (0x0A : UInt8)) = false := by
    intro b hb
    rw [beq_eq_false_iff_ne]
    rintro rfl
    simp [hlineFeed, hvalue] at hb
  have hcut : Text.cut? (· == (0x20 : UInt8)) (Utf8.encode key ++ 0x20 :: value) =
      some (Utf8.encode key, value) :=
    cut?_eq_some.mpr
      ⟨0x20, rfl, fun b hb => beq_eq_false_iff_ne.mpr fun he => hblank (he ▸ hb), rfl⟩
  have hmem : (keys.map Utf8.encode).contains (Utf8.encode key) = true ↔ key ∈ keys := by
    rw [List.contains_iff_mem, List.mem_map_of_injective Utf8.encode_injective]
  have hne : Utf8.encode key ++ 0x20 :: value ≠ [] := by simp
  rw [headerLinks, hline, splitOn_append_cons hfree rfl, linksIn, hcut]
  · simp only [hmem]
    rfl
  · exact hne

/-- A line of another keyword gives nothing, whatever it says. -/
theorem headerLinks_other (hkey : IsKeyword key) (hno : key ∉ keys) (hvalue : 0x0A ∉ value)
    (rest : Bytes) :
    headerLinks keys (Object.headerLine key value ++ rest) = headerLinks keys rest := by
  rw [headerLinks_headerLine_append hkey hvalue, if_neg hno]

/-- Lines of one keyword give their ids in order, if the keyword is asked for. -/
theorem headerLinks_ids (hkey : IsKeyword key) (ids : List ObjectId) (rest : Bytes) :
    headerLinks keys (ids.flatMap (fun id => Object.headerLine key id.hexBytes) ++ rest) =
      (headerLinks keys rest).map ((if key ∈ keys then ids else []) ++ ·) := by
  induction ids with
  | nil =>
    rw [List.flatMap_nil, List.nil_append, ite_self]
    cases headerLinks keys rest <;> rfl
  | cons id ids ih =>
    rw [List.flatMap_cons, List.append_assoc,
      headerLinks_headerLine_append hkey id.lineFeed_not_mem_hexBytes, ObjectId.parse_hexBytes, ih]
    by_cases hmem : key ∈ keys
    · simp only [if_pos hmem]
      cases headerLinks keys rest <;> rfl
    · simp only [if_neg hmem]

/-- An empty line ends the header. -/
theorem headerLinks_end (message : Bytes) : headerLinks keys (0x0A :: message) = .ok [] := by
  rw [headerLinks, splitOn_cons_of_pos rfl, linksIn]

theorem lineFeed_not_mem_encode {text : String} (h : '\n' ∉ text.toList) :
    0x0A ∉ Utf8.encode text :=
  fun hmem => h ((Utf8.mem_encode (by decide)).mp hmem)

/-- A commit gives its tree and its parents, as far as they are asked for. -/
theorem headerLinks_commit {author committer : String} (hauthor : '\n' ∉ author.toList)
    (hcommitter : '\n' ∉ committer.toList) (hkeys : "author" ∉ keys ∧ "committer" ∉ keys)
    (tree : ObjectId) (parents : List ObjectId) (message : String) :
    headerLinks keys (Object.commit tree parents author committer message).data =
      .ok ((if "tree" ∈ keys then [tree] else []) ++ if "parent" ∈ keys then parents else []) := by
  have hdata : (Object.commit tree parents author committer message).data =
      [tree].flatMap (fun id => Object.headerLine "tree" id.hexBytes) ++
        (parents.flatMap (fun id => Object.headerLine "parent" id.hexBytes) ++
          (Object.headerLine "author" (Utf8.encode author) ++
            (Object.headerLine "committer" (Utf8.encode committer) ++
              0x0A :: Utf8.encode message))) := by
    simp only [Object.commit, List.flatMap_singleton, List.append_assoc]
  rw [hdata, headerLinks_ids (by decide), headerLinks_ids (by decide),
    headerLinks_other (by decide) hkeys.1 (lineFeed_not_mem_encode hauthor),
    headerLinks_other (by decide) hkeys.2 (lineFeed_not_mem_encode hcommitter), headerLinks_end]
  simp only [Except.map, List.append_nil]

/-- A tag gives its target, if that is asked for. -/
theorem headerLinks_tag {name tagger : String} (hname : '\n' ∉ name.toList)
    (htagger : '\n' ∉ tagger.toList)
    (hkeys : "type" ∉ keys ∧ "tag" ∉ keys ∧ "tagger" ∉ keys) (target : Object) (message : String) :
    headerLinks keys (Object.tag target name tagger message).data =
      .ok (if "object" ∈ keys then [target.id] else []) := by
  have hkind : 0x0A ∉ Utf8.encode target.kind.name := by cases target.kind <;> decide
  have hdata : (Object.tag target name tagger message).data =
      [target.id].flatMap (fun id => Object.headerLine "object" id.hexBytes) ++
        (Object.headerLine "type" (Utf8.encode target.kind.name) ++
          (Object.headerLine "tag" (Utf8.encode name) ++
            (Object.headerLine "tagger" (Utf8.encode tagger) ++ 0x0A :: Utf8.encode message))) := by
    simp only [Object.tag, List.flatMap_singleton, List.append_assoc]
  rw [hdata, headerLinks_ids (by decide), headerLinks_other (by decide) hkeys.1 hkind,
    headerLinks_other (by decide) hkeys.2.1 (lineFeed_not_mem_encode hname),
    headerLinks_other (by decide) hkeys.2.2 (lineFeed_not_mem_encode htagger), headerLinks_end]
  simp only [Except.map, List.append_nil]

end

/-- The links of what is written are what it was written from. A commit whose author and committer
are single lines gives its tree and then its parents in order, and its parents alone if only these
are asked for; a tag whose name and tagger are single lines gives its target. The messages may say
anything. -/
theorem written_links_are_recovered :
    (∀ (tree : ObjectId) (parents : List ObjectId) (author committer message : String),
      '\n' ∉ author.toList → '\n' ∉ committer.toList →
        headerLinks ["tree", "parent"]
          (Object.commit tree parents author committer message).data = .ok (tree :: parents) ∧
        headerLinks ["parent"]
          (Object.commit tree parents author committer message).data = .ok parents) ∧
    ∀ (target : Object) (name tagger message : String),
      '\n' ∉ name.toList → '\n' ∉ tagger.toList →
        headerLinks ["object"] (Object.tag target name tagger message).data = .ok [target.id] := by
  refine ⟨fun tree parents author committer message hauthor hcommitter => ⟨?_, ?_⟩,
    fun target name tagger message hname htagger => ?_⟩
  · rw [headerLinks_commit hauthor hcommitter (by decide)]
    simp
  · rw [headerLinks_commit hauthor hcommitter (by decide)]
    simp
  · rw [headerLinks_tag hname htagger (by decide)]
    simp

/-- A commit of two parents, in the message of which a line names a third, and a tag of it with such
a message. -/
theorem written_links_are_recovered_merge :
    let commit := Object.commit (uniformId 1) [uniformId 2, uniformId 3] "parent of all <p@x> 0 +0000"
      "" ("parent " ++ (uniformId 4).hex ++ "\n")
    '\n' ∉ "parent of all <p@x> 0 +0000".toList ∧ '\n' ∉ "".toList ∧
    headerLinks ["tree", "parent"] commit.data = .ok [uniformId 1, uniformId 2, uniformId 3] ∧
    headerLinks ["parent"] commit.data = .ok [uniformId 2, uniformId 3] ∧
    headerLinks ["object"]
      (Object.tag commit "v1" "" ("\nobject " ++ (uniformId 4).hex)).data = .ok [commit.id] := by
  intro commit
  have hauthor : '\n' ∉ "parent of all <p@x> 0 +0000".toList := by decide
  have hempty : '\n' ∉ "".toList := by decide
  obtain ⟨hcommit, htag⟩ := written_links_are_recovered
  obtain ⟨hboth, hparents⟩ := hcommit (uniformId 1) [uniformId 2, uniformId 3]
    "parent of all <p@x> 0 +0000" "" ("parent " ++ (uniformId 4).hex ++ "\n") hauthor hempty
  exact ⟨hauthor, hempty, hboth, hparents,
    htag commit "v1" "" ("\nobject " ++ (uniformId 4).hex) (by decide) hempty⟩

end GitRemote
