import GitRemote.Proofs.Push.Matching
import GitRemote.Proofs.Text.Cut
import GitRemote.Proofs.Text.Lines
import GitRemote.Wire.Advertisement

/-!
# Capability lists and the targets in them

Words with blanks between them are read back. The target of a symbolic ref stands in a word of its own,
which is cut at its first colon; of several words on one name the last counts, and of several refs of
one name the first gets the target.
-/

namespace GitRemote

/-! ### Words -/

/-- A text that is read as one word: it is not empty and holds no blank. -/
def IsWord (w : String) : Prop := w ≠ "" ∧ ∀ c ∈ w.toList, Text.isBlank c = false

instance (w : String) : Decidable (IsWord w) :=
  decidable_of_iff (w ≠ "" ∧ (w.toList.all fun c => !Text.isBlank c) = true) (by simp [IsWord])

theorem IsWord.not_isEmpty {w : String} (h : IsWord w) : (!w.toList.isEmpty) = true := by
  rw [Bool.not_eq_true', List.isEmpty_eq_false_iff]
  exact fun hempty => h.1 (String.toList_eq_nil_iff.mp hempty)

/-- A word is the only word of itself. -/
theorem words_word {w : String} (h : IsWord w) : Text.words w = [w] := by
  obtain ⟨piece, pieces, hnil, hsplit⟩ := splitOn_append h.2 []
  cases hnil
  rw [List.append_nil] at hsplit
  rw [Text.words, hsplit, List.filter_cons, if_pos h.not_isEmpty, List.filter_nil,
    List.map_singleton, String.ofList_toList]

/-- A word ends at the first blank behind it. -/
theorem words_append {w : String} (h : IsWord w) (rest : String) :
    Text.words (w ++ " " ++ rest) = w :: Text.words rest := by
  have hsplit : (w ++ " " ++ rest).toList = w.toList ++ ' ' :: rest.toList := by
    rw [String.toList_append, String.toList_append, List.append_assoc]
    rfl
  rw [Text.words, hsplit, splitOn_append_cons h.2 (by decide), List.filter_cons,
    if_pos h.not_isEmpty, List.map_cons, String.ofList_toList, Text.words]

namespace Capabilities

/-- The words of a list are read back from its text. -/
theorem parse_text {c : Capabilities} (h : ∀ w ∈ c.words, IsWord w) : parse c.text = c := by
  obtain ⟨ws⟩ := c
  show Capabilities.mk (Text.words (" ".intercalate ws)) = ⟨ws⟩
  congr 1
  induction ws with
  | nil => rfl
  | cons w ws ih =>
    rw [List.forall_mem_cons] at h
    cases ws with
    | nil => rw [String.intercalate_singleton, words_word h.1]
    | cons v ws => rw [String.intercalate_cons_cons, words_append h.1, ih h.2]

/-- The text of a list is one line. -/
theorem lineFeed_not_mem_text {c : Capabilities} (h : ∀ w ∈ c.words, IsWord w) :
    '\n' ∉ c.text.toList := by
  obtain ⟨ws⟩ := c
  show '\n' ∉ (" ".intercalate ws).toList
  induction ws with
  | nil => simp
  | cons w ws ih =>
    rw [List.forall_mem_cons] at h
    have hw : '\n' ∉ w.toList := fun hlf => absurd (h.1.2 _ hlf) (by decide)
    cases ws with
    | nil => rwa [String.intercalate_singleton]
    | cons v ws =>
      rw [String.intercalate_cons_cons, String.toList_append, String.toList_append,
        List.mem_append, List.mem_append]
      exact not_or.mpr ⟨not_or.mpr ⟨hw, by decide⟩, ih h.2⟩

/-! ### Targets of symbolic refs -/

/-- A value is what follows the name and an equals sign. -/
theorem valueIn?_eq_some {name word value : String} :
    valueIn? name word = some value ↔ word = name ++ "=" ++ value := by
  have htext : word = name ++ "=" ++ value ↔
      word.toList = name.toList ++ '=' :: value.toList := by
    rw [← String.toList_inj, String.toList_append, String.toList_append, List.append_assoc]
    rfl
  rw [htext, valueIn?]
  constructor
  · intro h
    split at h
    · next rest hafter =>
      cases h
      rw [after?_eq_some.mp hafter, String.toList_ofList]
    · cases h
  · intro h
    simp only [after?_eq_some.mpr h, String.ofList_toList]

/-- The word that gives a symbolic ref its target. -/
def symrefWord (name target : String) : String := "symref" ++ "=" ++ (name ++ ":" ++ target)

/-- The last word on a symbolic ref gives this target. A name with a colon has none. -/
def Targets (c : Capabilities) (name target : String) : Prop :=
  ':' ∉ name.toList ∧ ∃ before after, c.words = before ++ symrefWord name target :: after ∧
    ∀ other, symrefWord name other ∉ after

/-- The target that a `symref` value gives for a name. -/
def targetIn? (name value : String) : Option String :=
  (Text.cutAt? ':' value).bind fun (n, target) => if n = name then some target else none

/-- The target of a name stands behind its first colon. -/
theorem targetIn?_eq_some {name value target : String} :
    targetIn? name value = some target ↔ ':' ∉ name.toList ∧ value = name ++ ":" ++ target := by
  have htext : value = name ++ ":" ++ target ↔
      value.toList = name.toList ++ ':' :: target.toList := by
    rw [← String.toList_inj, String.toList_append, String.toList_append, List.append_assoc]
    rfl
  rw [htext, targetIn?, Option.bind_eq_some_iff, ← cutAt?_eq_some]
  constructor
  · rintro ⟨⟨n, t⟩, hcut, hname⟩
    dsimp only at hname
    split_ifs at hname with hn
    cases hname
    rwa [← hn]
  · exact fun h => ⟨_, h, if_pos rfl⟩

/-- The target that the last value on a name gives. -/
def lastTarget? (values : List String) (name : String) : Option String :=
  values.reverse.findSome? (targetIn? name)

/-- Later values win over earlier ones. -/
theorem lastTarget?_cons (value : String) (values : List String) (name : String) :
    lastTarget? (value :: values) name = (lastTarget? values name).or (targetIn? name value) := by
  rw [lastTarget?, List.reverse_cons, List.findSome?_append, List.findSome?_singleton, lastTarget?]

/-- The last value on a name is that of the last word on it. -/
theorem lastTarget?_values (c : Capabilities) (name target : String) :
    lastTarget? (c.values "symref") name = some target ↔ c.Targets name target := by
  have hword (w t : String) :
      ((valueIn? "symref" w).bind (targetIn? name)) = some t ↔
        ':' ∉ name.toList ∧ w = symrefWord name t := by
    simp only [Option.bind_eq_some_iff, valueIn?_eq_some, targetIn?_eq_some, symrefWord]
    constructor
    · rintro ⟨value, rfl, hcolon, rfl⟩
      exact ⟨hcolon, rfl⟩
    · rintro ⟨hcolon, rfl⟩
      exact ⟨_, rfl, hcolon, rfl⟩
  rw [lastTarget?, values, ← List.filterMap_reverse, ← List.head?_filterMap,
    List.filterMap_filterMap, List.head?_filterMap, List.findSome?_eq_some_iff]
  constructor
  · rintro ⟨after, w, before, hwords, hw, hlast⟩
    obtain ⟨hcolon, rfl⟩ := (hword w target).mp hw
    refine ⟨hcolon, before.reverse, after.reverse, ?_, fun other hother => ?_⟩
    · rw [← List.reverse_reverse c.words, hwords]
      simp
    · have hnone := hlast _ (List.mem_reverse.mp hother)
      rw [(hword _ other).mpr ⟨hcolon, rfl⟩] at hnone
      cases hnone
  · rintro ⟨hcolon, before, after, hwords, hlast⟩
    refine ⟨after.reverse, _, before.reverse, ?_, (hword _ target).mpr ⟨hcolon, rfl⟩, ?_⟩
    · rw [hwords]
      simp
    · intro w hw
      refine Option.eq_none_iff_forall_ne_some.mpr fun other hother => ?_
      obtain ⟨-, rfl⟩ := (hword w other).mp hother
      exact hlast other (List.mem_reverse.mp hw)

end Capabilities

namespace Advertisement

open Capabilities (targetIn? lastTarget? lastTarget?_cons)

/-- A value gives its target to the first ref of the name in it. -/
theorem getElem?_attachSymref (refs : List Ref) (value : String) (i : Nat) :
    (attachSymref refs value)[i]? = refs[i]?.map fun r =>
      if findRef refs r.name = some i then
        { r with symref := (targetIn? r.name value).or r.symref }
      else r := by
  have hkept (r : Ref) (h : targetIn? r.name value = none) :
      (if findRef refs r.name = some i then
        { r with symref := (targetIn? r.name value).or r.symref } else r) = r := by
    rw [h]
    exact ite_self r
  cases hcut : Text.cutAt? ':' value with
  | none =>
    have hnone (name : String) : targetIn? name value = none := by rw [targetIn?, hcut]; rfl
    rw [attachSymref, hcut]
    simp [hnone]
  | some parts =>
    obtain ⟨name, target⟩ := parts
    have htarget (n : String) : targetIn? n value = if name = n then some target else none := by
      rw [targetIn?, hcut]
      rfl
    rw [attachSymref, hcut]
    cases hfind : findRef refs name with
    | none =>
      simp only [hfind]
      cases hr : refs[i]? with
      | none => rfl
      | some r =>
        have hname : name ≠ r.name := by
          rintro rfl
          rw [findRef_eq, List.findIdx?_eq_none_iff] at hfind
          exact absurd (hfind _ (List.mem_map_of_mem (List.mem_of_getElem? hr))) (by simp)
        rw [Option.map_some, hkept r (by rw [htarget, if_neg hname])]
    | some j =>
      simp only [hfind, List.getElem?_modify]
      cases hr : refs[i]? with
      | none => rfl
      | some r =>
        simp only [Option.map_eq_map, Option.map_some]
        by_cases hname : name = r.name
        · subst hname
          simp only [hfind, htarget, Option.some.injEq, ite_true, Option.some_or]
        · have hij : j ≠ i := by
            rintro rfl
            obtain ⟨q, hq, hqname⟩ := exists_of_findRef hfind
            rw [hr, Option.some.injEq] at hq
            exact hname (hq ▸ hqname.symm)
          rw [if_neg hij, hkept r (by rw [htarget, if_neg hname])]

/-- Values change nothing but targets. -/
theorem map_foldl_attachSymref {α : Type} {f : Ref → α}
    (hf : ∀ r target, f { r with symref := target } = f r) (refs : List Ref) (values : List String) :
    (values.foldl attachSymref refs).map f = refs.map f := by
  induction values generalizing refs with
  | nil => rfl
  | cons value values ih =>
    rw [List.foldl_cons, ih]
    apply List.ext_getElem?
    intro i
    rw [List.getElem?_map, List.getElem?_map, getElem?_attachSymref, Option.map_map]
    congr 1
    funext r
    simp only [Function.comp_apply]
    split_ifs
    · exact hf r _
    · rfl

/-- Attaching targets leaves every ref at its place. -/
theorem findRef_foldl_attachSymref (refs : List Ref) (values : List String) (name : String) :
    findRef (values.foldl attachSymref refs) name = findRef refs name := by
  rw [findRef_eq, findRef_eq, map_foldl_attachSymref fun _ _ => rfl]

/-- The values together give every first ref of a name the last target. -/
theorem getElem?_foldl_attachSymref (refs : List Ref) (values : List String) (i : Nat) :
    (values.foldl attachSymref refs)[i]? = refs[i]?.map fun r =>
      if findRef refs r.name = some i then
        { r with symref := (lastTarget? values r.name).or r.symref }
      else r := by
  induction values generalizing refs with
  | nil =>
    show refs[i]? = _
    cases refs[i]? with
    | none => rfl
    | some r => simp [lastTarget?]
  | cons value values ih =>
    have hnames (name : String) : findRef (attachSymref refs value) name = findRef refs name :=
      findRef_foldl_attachSymref refs [value] name
    rw [List.foldl_cons, ih, getElem?_attachSymref, Option.map_map]
    congr 1
    funext r
    simp only [Function.comp_apply, hnames]
    split_ifs with hfirst
    · simp only [lastTarget?_cons, Option.or_assoc]
    · rfl

/-- Refs that have no target yet get the one that the capabilities give them if they are the first of
their name. -/
theorem targets_foldl_attachSymref {c : Capabilities} {refs : List Ref}
    (h : ∀ r ∈ refs, r.symref = none) {i : Nat} {r : Ref}
    (hr : ((c.values "symref").foldl attachSymref refs)[i]? = some r) (target : String) :
    r.symref = some target ↔ findRef refs r.name = some i ∧ c.Targets r.name target := by
  rw [getElem?_foldl_attachSymref] at hr
  obtain ⟨q, hq, rfl⟩ := Option.map_eq_some_iff.mp hr
  have hnone := h q (List.mem_of_getElem? hq)
  by_cases hfirst : findRef refs q.name = some i
  · simp only [hfirst, ite_true, hnone, Option.or_none, Capabilities.lastTarget?_values, true_and]
  · simp only [hfirst, ite_false, hnone, reduceCtorEq, false_and]

end Advertisement

end GitRemote
