import GitRemote.Proofs.Diff.Limited
import Mathlib.Data.List.Flatten

/-!
# Limiting against filtering

A comparison that is limited to a pathspec yields the wanted changes of the whole comparison just if
the sides agree about every directory and leaf of one name that it comes to. A name's changes are
known by their paths, so the names of a directory agree one by one.
-/

namespace GitRemote

variable {source : ObjectSource} {spec : Pathspec} {f : Frame} {o n : Cursor} {name : Bytes}
  {old new : Option ObjectId} {levels : Nat}

section Names

variable {α β : Type} [BEq α] [LawfulBEq α] {names part : List α} {out out' : α → List β}
  {key : β → α} {a : α}

/-- What a part of the names yields, seen from all names. -/
theorem flatMap_of_sublist (h : part.Sublist names) (hn : names.Nodup) (out : α → List β) :
    part.flatMap out = names.flatMap fun a => if a ∈ part then out a else [] := by
  induction h with
  | slnil => rfl
  | @cons part names a h ih =>
    obtain ⟨ha, hn⟩ := List.nodup_cons.mp hn
    have hnot : a ∉ part := fun hmem => ha (h.subset hmem)
    rw [List.flatMap_cons, if_neg hnot, List.nil_append]
    exact ih hn
  | @cons_cons part names a h ih =>
    obtain ⟨ha, hn⟩ := List.nodup_cons.mp hn
    rw [List.flatMap_cons, List.flatMap_cons, if_pos (List.mem_cons_self ..), ih hn]
    refine congrArg _ (List.flatMap_congr fun b hb => ?_)
    have hne : b ≠ a := fun he => ha (he ▸ hb)
    simp only [List.mem_cons, hne, false_or]

/-- The part of a name is found by its key. -/
theorem filter_flatMap_key (hn : names.Nodup) (hk : ∀ a ∈ names, ∀ b ∈ out a, key b = a)
    (ha : a ∈ names) : (names.flatMap out).filter (key · == a) = out a := by
  have hone : [a].flatMap out = names.flatMap fun b => if b ∈ [a] then out b else [] :=
    flatMap_of_sublist (List.singleton_sublist.mpr ha) hn out
  rw [List.flatMap_singleton] at hone
  rw [List.filter_flatMap, hone]
  refine List.flatMap_congr fun b hb => ?_
  by_cases he : b = a
  · rw [if_pos (List.mem_singleton.mpr he), List.filter_eq_self]
    intro c hc
    rw [hk b hb c hc, he, beq_self_eq_true]
  · rw [if_neg fun hmem => he (List.mem_singleton.mp hmem), List.filter_eq_nil_iff]
    intro c hc
    rwa [hk b hb c hc, beq_iff_eq]

/-- All names yield the same if each of them does. -/
theorem flatMap_eq_flatMap_iff (hn : names.Nodup) (hk : ∀ a ∈ names, ∀ b ∈ out a, key b = a)
    (hk' : ∀ a ∈ names, ∀ b ∈ out' a, key b = a) :
    names.flatMap out = names.flatMap out' ↔ ∀ a ∈ names, out a = out' a := by
  refine ⟨fun h a ha => ?_, fun h => List.flatMap_congr h⟩
  rw [← filter_flatMap_key hn hk ha, h, filter_flatMap_key hn hk' ha]

/-- A part of what the names yield is what is kept of it all if that holds of each name. -/
theorem flatMap_eq_filter_iff {keep : β → Bool} (hpart : part.Sublist names) (hn : names.Nodup)
    (hk : ∀ a ∈ names, ∀ b ∈ out a, key b = a)
    (hsub : ∀ a ∈ names, (out' a).Sublist (out a)) :
    part.flatMap out' = (names.flatMap out).filter keep ↔
      ∀ a ∈ names, (if a ∈ part then out' a else []) = (out a).filter keep := by
  have hk' : ∀ a ∈ names, ∀ b ∈ (if a ∈ part then out' a else []), key b = a := by
    intro a ha b hb
    split at hb
    · exact hk a ha b ((hsub a ha).subset hb)
    · cases hb
  rw [flatMap_of_sublist hpart hn, List.filter_flatMap]
  exact flatMap_eq_flatMap_iff hn hk' fun a ha b hb => hk a ha b (List.mem_filter.mp hb).1

end Names

/-- A name of a whole comparison without a failure can be limited. -/
theorem roundCommutes (h : Sides source old new o n) (hf : f.Whole) (hb : DirBase f.base)
    (hspec : spec.recursive = true ∨ spec.hasWildcard = false) (hmem : name ∈ pairNames o n)
    (ih : Commutes source spec levels) {used : Nat}
    (hok : (diffRound source levels f (pairRound o n name)).1 = .ok used) :
    RoundCommutes source spec levels f o n name := by
  cases hs : unchanged (o.entryOf name) (n.entryOf name) with
  | true => exact roundCommutes_of_unchanged hs
  | false =>
    cases hd : entered? (o.entryOf name) (n.entryOf name) with
    | none => exact roundCommutes_of_not_entered h hb hmem hs hd
    | some dir => exact roundCommutes_of_entered h hf hb hspec hmem hs hd ih hok

/-- By induction over the levels, limiting a comparison and filtering its changes come to the same
wherever the sides agree. -/
theorem commutes (source : ObjectSource) (hspec : spec.recursive = true ∨ spec.hasWildcard = false)
    (levels : Nat) : Commutes source spec levels := by
  induction levels with
  | zero =>
    intro f old new o n changes _ _ _ hrun
    cases hrun
  | succ levels ih =>
    intro f old new o n changes hf hb h hrun
    obtain ⟨hdeep, hok, rfl⟩ := (diffBelow_eq_ok_iff h.wellFormedOld h.wellFormedNew
      hf.strict).mp hrun
    rw [comparedRounds_of_pathspec_none hf.pathspec] at hok ⊢
    have hused : ∀ name ∈ pairNames o n, ∃ used,
        (diffRound source levels f (pairRound o n name)).1 = .ok used := fun name hname =>
      hok _ (List.mem_map_of_mem hname)
    have hround : ∀ name ∈ pairNames o n, RoundCommutes source spec levels f o n name := by
      intro name hname
      obtain ⟨used, hu⟩ := hused name hname
      exact roundCommutes h hf hb hspec hname ih hu
    have hkey : ∀ name ∈ pairNames o n,
        ∀ change ∈ (diffRound source levels f (pairRound o n name)).2,
          nameAt f.base change.path = name := by
      intro name hname change hmem
      obtain ⟨used, hu⟩ := hused name hname
      exact nameAt_of_differs h (((exact_round h hf (listsDifferences source levels) hu).mem_iff
        change).mp hmem)
    have hlimit : comparedRounds (f.limit spec) o n =
        (passedNames spec f.base o n).map (pairRound o n) :=
      comparedRounds_of_pathspec rfl h.wellFormedOld h.wellFormedNew
    have hstrict : (f.limit spec).options.showAllErrors = false := hf.strict
    refine ⟨_, (diffBelow_eq_ok_iff h.wellFormedOld h.wellFormedNew hstrict).mpr
      ⟨hdeep, ?_, rfl⟩, ?_, ?_⟩
    · rw [hlimit]
      intro r hr
      obtain ⟨name, hname, rfl⟩ := List.mem_map.mp hr
      exact (hround name (passedNames_sublist.subset hname)).ok
    · rw [hlimit, List.flatMap_map, List.flatMap_map]
      exact (passedNames_sublist.flatMap _).trans
        (List.Sublist.flatMap_right _ fun name hname => (hround name hname).sublist)
    · rw [hlimit, List.flatMap_map, List.flatMap_map, sidesAgree_iff h.opensOld h.opensNew,
        flatMap_eq_filter_iff passedNames_sublist (nodup_nameOrder [o.pending, n.pending]) hkey
          fun name hname => (hround name hname).sublist]
      exact forall₂_congr fun name hname => (hround name hname).agrees

/-- A limited difference lists a part of the changes of the whole one, in the same order. It is what
filtering leaves of them just if the sides agree about every name that the comparison comes to. -/
theorem limited_diff_is_filtered_iff_sides_agree {changes : List Change} (hso : source.Sound old)
    (hsn : source.Sound new) (hspec : spec.recursive = true ∨ spec.hasWildcard = false)
    (h : diff source old new none = .ok changes) :
    ∃ limited, diff source old new (some spec) = .ok limited ∧ limited.Sublist changes ∧
      (limited = changes.filter (·.wanted spec) ↔ SidesAgree source spec [] old new) := by
  obtain ⟨o, ho, _⟩ := hso.opens
  obtain ⟨n, hn, _⟩ := hsn.opens
  have hf : ({} : Frame).Whole := ⟨rfl, rfl, by simp⟩
  have hsides : Sides source old new o n := ⟨ho, hn, hso, hsn⟩
  have hload := loadSides_eq_ok.mpr ⟨ho, hn⟩
  rw [diff, hload] at h
  simp only at h
  split at h
  · cases h
  · next found hrun =>
    obtain rfl := Except.ok.inj h
    obtain ⟨limited, hlimited, hsub, hagree⟩ := commutes source hspec _ {} old new o n found hf
      .nil hsides hrun
    refine ⟨limited, ?_, hsub, hagree⟩
    rw [diff, hload]
    simp only
    rw [show ({ pathspec := some spec } : Frame) = Frame.limit {} spec from rfl, hlimited]

/-- The file `x` in the directory `p`. -/
def innerPathspec : Pathspec := .ofItems [.ofPattern [0x70, 0x2F, 0x78] {}]

/-- The comparison of a directory with the file that it turned into, limited to what was in it. -/
theorem limited_diff_is_filtered_iff_sides_agree_turned :
    ∃ limited,
      diff turnedSource (some (plainId 1)) (some (plainId 2)) (some innerPathspec) = .ok limited ∧
        limited.Sublist [.deleted [0x70, 0x2F, 0x78] modeFile (plainId 5),
          .added [0x70] modeFile (plainId 4)] ∧
        (limited = [Change.deleted [0x70, 0x2F, 0x78] modeFile (plainId 5),
            .added [0x70] modeFile (plainId 4)].filter (·.wanted innerPathspec) ↔
          SidesAgree turnedSource innerPathspec [] (some (plainId 1)) (some (plainId 2))) :=
  limited_diff_is_filtered_iff_sides_agree sound_turnedSource_old sound_turnedSource_new
    (Or.inr rfl) (by decide +kernel)

/-- There the limited comparison loses the one deletion that is wanted. -/
theorem limited_diff_loses_wanted_deletion :
    turnedSource.Sound (some (plainId 1)) ∧ turnedSource.Sound (some (plainId 2)) ∧
      innerPathspec.hasWildcard = false ∧
      diff turnedSource (some (plainId 1)) (some (plainId 2)) none =
        .ok [.deleted [0x70, 0x2F, 0x78] modeFile (plainId 5),
          .added [0x70] modeFile (plainId 4)] ∧
      [Change.deleted [0x70, 0x2F, 0x78] modeFile (plainId 5),
          .added [0x70] modeFile (plainId 4)].filter (·.wanted innerPathspec) =
        [.deleted [0x70, 0x2F, 0x78] modeFile (plainId 5)] ∧
      diff turnedSource (some (plainId 1)) (some (plainId 2)) (some innerPathspec) = .ok [] :=
  ⟨sound_turnedSource_old, sound_turnedSource_new, rfl, by decide +kernel, by decide +kernel,
    by decide +kernel⟩

/-- The other way round, the file is listed, which is not wanted. -/
example :
    diff turnedSource (some (plainId 2)) (some (plainId 1)) (some innerPathspec) =
        .ok [.added [0x70, 0x2F, 0x78] modeFile (plainId 5),
          .deleted [0x70] modeFile (plainId 4)] ∧
      (Change.deleted [0x70] modeFile (plainId 4)).wanted innerPathspec = false := by
  decide +kernel

end GitRemote
