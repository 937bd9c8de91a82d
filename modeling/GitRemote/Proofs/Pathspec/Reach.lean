import GitRemote.Proofs.Pathspec.Exclusion

/-!
# Directories above a match

An item that picks an entry somewhere below a directory picks the directory as well, and one that is
silent about the entry does not turn the directory down. So a directory with an interesting file
below it is interesting, unless wildcards are not followed into directories.
-/

namespace GitRemote

variable {base inner : Bytes} {d x : Entry} {recursive : Bool} {limit : Option Nat}

/-- The base of a directory below `d`, which is an entry of `base`. -/
def baseBelow (base : Bytes) (d : Entry) (inner : Bytes) : Bytes :=
  base ++ (d.name ++ 0x2F :: inner)

/-- A directory and what is between it and an entry below it, as paths have them. -/
structure Leads (base : Bytes) (d : Entry) (inner : Bytes) : Prop where
  isDir : d.isDir = true
  plain : PlainName d.name
  nonempty : d.name ≠ []
  base_free : 0 ∉ base
  inner_free : 0 ∉ inner

/-- Only paths with a slash can be too deep. -/
theorem withinDepth_iff {limit depth : Nat} {path : Bytes} :
    withinDepth limit depth path = true ↔
      path.count 0x2F = 0 ∨ depth + path.count 0x2F ≤ limit := by
  induction path generalizing depth with
  | nil => simp [withinDepth]
  | cons b path ih =>
    by_cases hb : b = 0x2F
    · subst hb
      rw [withinDepth, if_pos rfl, Bool.and_eq_true, decide_eq_true_eq, ih, List.count_cons_self]
      omega
    · rw [withinDepth, if_neg hb, ih, List.count_cons_of_ne hb]

/-- A directory is no deeper than what is below it. -/
theorem withinDepth_directory {limit : Nat} (h : withinDepth limit 0 (baseBelow base d inner) = true) :
    withinDepth limit 1 base = true := by
  rw [withinDepth_iff] at h ⊢
  simp only [baseBelow, List.count_append, List.count_cons_self] at h
  omega

/-- What is not too deep inside a directory does not make the directory too deep. -/
theorem withinDepth_drop_directory {limit k : Nat}
    (h : withinDepth limit 0 ((baseBelow base d inner).drop k) = true) :
    withinDepth limit 1 (base.drop k) = true := by
  rcases Nat.lt_or_ge base.length k with hlt | hle
  · rw [List.drop_eq_nil_of_le (Nat.le_of_lt hlt)]
    rfl
  · rw [baseBelow, List.drop_append_of_le_length hle] at h
    exact withinDepth_directory h

theorem Leads.free (h : Leads base d inner) : 0 ∉ baseBelow base d inner := by
  simp [baseBelow, h.base_free, h.plain.1, h.inner_free]

/-- Behind its base, a path goes on with a byte of the directory's name. -/
theorem Leads.getElem?_ne_slash (h : Leads base d inner) {i : Nat} (hi : i < d.name.length) :
    (baseBelow base d inner)[base.length + i]? ≠ some 0x2F := by
  rw [baseBelow, List.getElem?_append_right (Nat.le_add_right _ _), Nat.add_sub_cancel_left,
    List.getElem?_append_left hi]
  exact fun he => h.plain.2 (List.mem_of_getElem? he)

namespace PathspecItem

variable {item : PathspecItem}

/-- A pattern that reaches no further than a directory's base names the base, if it names anything
above an entry below the directory. -/
theorem inside_of_inside_below (hl : Leads base d inner)
    (h : item.inside (baseBelow base d inner) = true) (hlen : item.pattern.length ≤ base.length) :
    item.inside base = true := by
  simp only [inside, matchesDirectory, Bool.and_eq_true, decide_eq_true_eq, Bool.or_eq_true,
    beq_iff_eq] at h ⊢
  obtain ⟨_, hagree, hend⟩ := h
  rw [baseBelow, agreeUpTo_append hlen] at hagree
  refine ⟨hlen, hagree, hend.imp (Or.imp id fun hslash => ?_) id⟩
  rcases Nat.lt_or_ge item.pattern.length base.length with hlt | hge
  · rwa [baseBelow, List.getElem?_append_left hlt] at hslash
  · have hat : item.pattern.length = base.length + 0 := by omega
    rw [hat] at hslash
    exact absurd hslash (hl.getElem?_ne_slash (List.length_pos_iff.mpr hl.nonempty))

/-- A pattern that agrees with a path names the directory that the path leads through, if it reaches
to the end of the name and either ends or goes on there. -/
theorem names_of_agree (hl : Leads base d inner) {m : Nat}
    (h : agreeUpTo item.magic.icase m (baseBelow base d inner) item.pattern = true)
    (hm : m ≤ (baseBelow base d inner).length) (hname : base.length + d.name.length ≤ m)
    (hend : item.pattern.length ≤ base.length + d.name.length ∨ base.length + d.name.length < m) :
    item.names (item.below base) d = true := by
  obtain ⟨hlen, hfold⟩ := (agreeUpTo_of_not_mem hl.free hm).mp h
  have hcut (l : Bytes) : ((l.take m).drop base.length).take d.name.length =
      (l.drop base.length).take d.name.length := by
    rw [List.drop_take, List.take_take, Nat.min_eq_left (by omega)]
  have htake : ((item.below base).take d.name.length).map (foldByte item.magic.icase) =
      d.name.map (foldByte item.magic.icase) := by
    have hpart := congrArg (fun l => (l.drop base.length).take d.name.length) hfold
    simp only [← List.map_drop, ← List.map_take, hcut] at hpart
    rwa [baseBelow, List.drop_left, List.take_left] at hpart
  have hbelow : (item.below base).length = item.pattern.length - base.length := List.length_drop
  have hagree :
      agreeUpTo item.magic.icase d.name.length (item.below base) d.name = true := by
    rw [agreeUpTo_comm, agreeUpTo_of_not_mem hl.plain.1 (Nat.le_refl _), List.take_length]
    exact ⟨by omega, htake⟩
  simp only [names, hagree, Bool.and_true, Bool.and_eq_true, decide_eq_true_eq, Bool.or_eq_true,
    beq_iff_eq]
  refine ⟨by omega, hend.imp (fun hle => by omega) fun hlt => ⟨?_, Or.inl hl.isDir⟩⟩
  have hat := congrArg (fun l : Bytes => l[base.length + d.name.length]?) hfold
  simp only [List.getElem?_map, List.getElem?_take_of_lt hlt] at hat
  rw [baseBelow, List.getElem?_append_right (Nat.le_add_right _ _), Nat.add_sub_cancel_left,
    List.getElem?_append_right (Nat.le_refl _), Nat.sub_self, List.getElem?_cons_zero,
    Option.map_some, Option.map_eq_some_iff] at hat
  obtain ⟨b, hb, hslash⟩ := hat
  rw [below, List.getElem?_drop, hb, foldByte_eq_slash.mp (hslash.trans (foldByte_eq_slash.mpr rfl))]

/-- A pattern that leads below a directory's directories leads below its base, through it. -/
theorem names_of_leadsBelow (hl : Leads base d inner)
    (h : item.leadsBelow (baseBelow base d inner) = true) :
    item.leadsBelow base = true ∧ item.names (item.below base) d = true := by
  simp only [leadsBelow, Bool.and_eq_true, decide_eq_true_eq] at h ⊢
  obtain ⟨hlen, hagree⟩ := h
  have hlong : (baseBelow base d inner).length = base.length + d.name.length + 1 + inner.length := by
    simp only [baseBelow, List.length_append, List.length_cons]
    omega
  refine ⟨⟨by omega, ?_⟩, names_of_agree hl hagree (Nat.le_refl _) (by omega) (by omega)⟩
  have hbase := agreeUpTo_of_le hagree (show base.length ≤ _ by omega)
  rwa [baseBelow, agreeUpTo_append (Nat.le_refl _)] at hbase

/-- A pattern that ends behind a directory's base and names something above an entry below the
directory leads through the directory. -/
theorem names_of_inside_below (hl : Leads base d inner)
    (h : item.inside (baseBelow base d inner) = true) (hlen : base.length < item.pattern.length) :
    item.leadsBelow base = true ∧ item.names (item.below base) d = true := by
  simp only [inside, matchesDirectory, Bool.and_eq_true, decide_eq_true_eq, Bool.or_eq_true,
    beq_iff_eq] at h
  obtain ⟨hle, hagree, hend⟩ := h
  have hbase := agreeUpTo_of_le hagree (show base.length ≤ _ by omega)
  rw [baseBelow, agreeUpTo_append (Nat.le_refl _)] at hbase
  have hleads : item.leadsBelow base = true := by
    simp only [leadsBelow, Bool.and_eq_true, decide_eq_true_eq]
    exact ⟨hlen, hbase⟩
  -- The pattern does not end within the name: a slash stands at its end or behind it.
  have hname : base.length + d.name.length ≤ item.pattern.length := by
    by_contra hshort
    have hin : item.pattern.length = base.length + (item.pattern.length - base.length) := by omega
    rcases hend with (hzero | hslash) | hlast
    · omega
    · rw [hin] at hslash
      exact hl.getElem?_ne_slash (by omega) hslash
    · obtain ⟨_, hfold⟩ := (agreeUpTo_of_not_mem hl.free hle).mp hagree
      have hat := congrArg (fun l : Bytes => l[item.pattern.length - 1]?) hfold
      simp only [List.getElem?_map, List.take_length] at hat
      rw [← List.getLast?_eq_getElem?, hlast, List.getElem?_take_of_lt (by omega), Option.map_some,
        eq_comm, Option.map_eq_some_iff] at hat
      obtain ⟨b, hb, hslash⟩ := hat
      rw [foldByte_eq_slash.mpr rfl, foldByte_eq_slash] at hslash
      have hidx : item.pattern.length - 1 =
          base.length + (item.pattern.length - 1 - base.length) := by omega
      rw [hslash, hidx] at hb
      exact hl.getElem?_ne_slash (by omega) hb
  exact ⟨hleads, names_of_agree hl hagree hle hname (by omega)⟩

/-- The plain part of a wildcard that agrees with a path agrees with the bases above. -/
theorem matchesWildcardBase_of_below
    (h : item.matchesWildcardBase (baseBelow base d inner) = true) :
    item.matchesWildcardBase base = true := by
  rw [matchesWildcardBase] at h ⊢
  have hlong : base.length ≤ (baseBelow base d inner).length := by
    simp only [baseBelow, List.length_append]
    omega
  have hless := agreeUpTo_of_le h (show min base.length item.plainLength ≤ _ by omega)
  rwa [baseBelow, agreeUpTo_append (Nat.min_le_left _ _)] at hless

/-- An item that picks an entry somewhere below a directory picks the directory. -/
theorem picks_directory (hl : Leads base d inner)
    (hw : recursive = true ∨ item.hasWildcard = false)
    (h : item.picks recursive x (baseBelow base d inner) = true) :
    item.picks recursive d base = true := by
  rw [picks] at h
  split at h
  · next hbelow =>
    obtain ⟨hleads, hnames⟩ := names_of_leadsBelow hl hbelow
    rw [picks, if_pos hleads, hnames, Bool.true_or]
  · simp only [Bool.and_eq_true, Bool.or_eq_true, beq_iff_eq] at h
    obtain ⟨⟨hwild, hbase⟩, _⟩ := h
    have hrec : recursive = true := hw.resolve_right (by simp [hwild])
    have hstart : (item.plainLength == 0 || item.matchesWildcardBase base) = true := by
      rw [Bool.or_eq_true, beq_iff_eq]
      exact hbase.imp id matchesWildcardBase_of_below
    rw [picks, hwild, hrec, hl.isDir, hstart]
    simp only [Bool.and_self, Bool.or_true, ite_self]

/-- Inside a matched directory, what is not too deep is of interest. -/
theorem answerInside_isInteresting {limit : Nat} :
    (item.answerInside (some limit) x base).isInteresting =
      withinDepth limit x.isDir.toNat (base.drop (item.pattern.length + 1)) := by
  simp only [answerInside]
  split
  · next h => rw [h]; rfl
  · next h => rw [Bool.not_eq_true] at h; rw [h]; rfl

/-- An item that finds an entry below a directory interesting finds the directory interesting. -/
theorem answer?_directory (hl : Leads base d inner) (hx : x.isDir = false)
    (hw : recursive = true ∨ item.hasWildcard = false) {i : Interest}
    (h : item.answer? recursive limit x (baseBelow base d inner) = some i)
    (hi : i.isInteresting = true) :
    ∃ j, item.answer? recursive limit d base = some j ∧ j.isInteresting = true := by
  have hpicked (hin : item.inside base = false) (hp : item.picks recursive d base = true) :
      ∃ j, item.answer? recursive limit d base = some j ∧ j.isInteresting = true := by
    rw [answer?_of_not_inside hin, if_pos hp]
    exact ⟨.interesting, rfl, rfl⟩
  cases hdeep : item.inside (baseBelow base d inner) with
  | false =>
    have hin : item.inside base = false := by
      cases hin : item.inside base with
      | false => rfl
      | true =>
        rw [baseBelow, inside_append hin] at hdeep
        cases hdeep
    rw [answer?_of_not_inside hdeep] at h
    split at h
    · next hp => exact hpicked hin (picks_directory hl hw hp)
    · cases h
  | true =>
    rcases Nat.lt_or_ge base.length item.pattern.length with hlt | hle
    · obtain ⟨hleads, hnames⟩ := names_of_inside_below hl hdeep hlt
      have hin : item.inside base = false := by simp [inside, Nat.not_le.mpr hlt]
      exact hpicked hin (by rw [picks, if_pos hleads, hnames, Bool.true_or])
    · have hin := inside_of_inside_below hl hdeep hle
      rw [answer?_of_inside hdeep] at h
      rw [answer?_of_inside hin]
      refine ⟨_, rfl, ?_⟩
      cases limit with
      | none => rfl
      | some limit =>
        rw [← Option.some.inj h, answerInside_isInteresting, hx] at hi
        rw [answerInside_isInteresting, hl.isDir]
        exact withinDepth_drop_directory hi

/-- An item that is silent about an entry below a directory does not turn the directory down. -/
theorem isInteresting_of_silent_below
    (h : item.answer? recursive limit x (baseBelow base d inner) = none) {j : Interest}
    (hj : item.answer? recursive limit d base = some j) : j.isInteresting = true := by
  cases hin : item.inside base with
  | true =>
    rw [baseBelow, answer?_of_inside (inside_append hin _)] at h
    cases h
  | false =>
    rw [answer?_of_not_inside hin] at hj
    split at hj
    · cases hj
      rfl
    · cases hj

end PathspecItem

/-- A first answer that is interesting, where those before it are as well. -/
theorem exists_findSome?_append {α : Type} {ask : α → Option Interest} {before after : List α}
    {a : α} {i : Interest} (hb : ∀ b ∈ before, ∀ j, ask b = some j → j.isInteresting = true)
    (ha : ask a = some i) (hi : i.isInteresting = true) :
    ∃ j, (before ++ a :: after).findSome? ask = some j ∧ j.isInteresting = true := by
  cases hbefore : before.findSome? ask with
  | none =>
    refine ⟨i, ?_, hi⟩
    rw [List.findSome?_append, hbefore, Option.none_or, List.findSome?_cons, ha]
  | some j =>
    obtain ⟨b, hmem, hj⟩ := List.exists_of_findSome?_eq_some hbefore
    refine ⟨j, ?_, hb b hmem j hj⟩
    rw [List.findSome?_append, hbefore, Option.some_or]

namespace Pathspec

variable {spec : Pathspec} {exclude : Bool}

/-- Where no item of a pathspec has a wildcard, none of a side has. -/
theorem hasWildcard_of_mem_side {item : PathspecItem}
    (hw : spec.recursive = true ∨ spec.hasWildcard = false) (h : item ∈ spec.side exclude) :
    spec.recursive = true ∨ item.hasWildcard = false := by
  refine hw.imp id fun hnone => ?_
  have hmem : item ∈ spec.items := List.mem_reverse.mp (List.mem_of_mem_filter h)
  simpa using List.any_eq_false.mp hnone item hmem

/-- A side that finds an entry below a directory interesting finds the directory interesting. -/
theorem sideInterest_directory (hl : Leads base d inner) (hx : x.isDir = false)
    (hw : spec.recursive = true ∨ spec.hasWildcard = false)
    (h : (spec.sideInterest exclude x (baseBelow base d inner)).isInteresting = true) :
    (spec.sideInterest exclude d base).isInteresting = true := by
  by_cases hnil : spec.items = []
  · rw [sideInterest_of_nil hnil] at h ⊢
    cases hlimit : spec.depthLimit with
    | none => rfl
    | some limit =>
      rw [hlimit] at h
      simp only [hx, hl.isDir] at h ⊢
      split at h
      · next hdeep => simp only [withinDepth_directory hdeep, Bool.toNat_true, ite_true]; rfl
      · cases h
  · obtain ⟨i, ha, hi⟩ := (sideInterest_isInteresting hnil).mp h
    obtain ⟨before, item, after, hside, hitem, hsilent⟩ := List.findSome?_eq_some_iff.mp ha
    have hmem : item ∈ spec.side exclude := by
      rw [hside]
      exact List.mem_append_right before (List.mem_cons_self ..)
    obtain ⟨j, hj, hji⟩ :=
      PathspecItem.answer?_directory hl hx (hasWildcard_of_mem_side hw hmem) hitem hi
    rw [sideInterest_isInteresting hnil, sideAnswer?, hside]
    exact exists_findSome?_append (fun b hb j hbj =>
      PathspecItem.isInteresting_of_silent_below (hsilent b hb) hbj) hj hji

/-- A directory with an interesting file below it is interesting. -/
theorem interest_directory (hl : Leads base d inner) (hx : x.isDir = false)
    (hw : spec.recursive = true ∨ spec.hasWildcard = false)
    (h : (spec.interest x (baseBelow base d inner)).isInteresting = true) :
    (spec.interest d base).isInteresting = true := by
  cases hex : spec.hasExclude with
  | false =>
    rw [interest_of_not_hasExclude hex] at h ⊢
    exact sideInterest_directory hl hx hw h
  | true =>
    rw [interest_of_hasExclude hex] at h ⊢
    have hpos := sideInterest_directory hl hx hw (isInteresting_of_remove h)
    rw [hl.isDir]
    refine isInteresting_remove_directory hpos fun hall => ?_
    have hneg : (spec.sideInterest true x (baseBelow base d inner)).isInteresting = true :=
      sideInterest_append_of_allInteresting hall _ x
    rw [hx, not_isInteresting_of_remove hneg] at h
    cases h

/-- Behind an entry that ends its directory, no file below a directory is interesting. -/
theorem interest_below_later {e : Entry} (hl : Leads base d inner) (hx : x.isDir = false)
    (hw : spec.recursive = true ∨ spec.hasWildcard = false)
    (h : spec.interest e base = .allNotInteresting) (hd : Later e.name d.name) :
    (spec.interest x (baseBelow base d inner)).isInteresting = false := by
  have hgone (hpos : spec.sideInterest false e base = .allNotInteresting) :
      (spec.sideInterest false x (baseBelow base d inner)).isInteresting = false := by
    have hdir := sideInterest_of_later hpos hl.plain hd
    by_contra hin
    rw [Bool.not_eq_false] at hin
    rw [sideInterest_directory hl hx hw hin] at hdir
    cases hdir
  cases hex : spec.hasExclude with
  | false =>
    rw [interest_of_not_hasExclude hex] at h ⊢
    exact hgone h
  | true =>
    rw [interest_of_hasExclude hex] at h ⊢
    rcases remove_eq_allNotInteresting h with hpos | ⟨_, hneg⟩
    · by_contra hin
      rw [Bool.not_eq_false] at hin
      have hin' := isInteresting_of_remove hin
      rw [hgone hpos] at hin'
      cases hin'
    · rw [hx]
      exact not_isInteresting_of_remove (sideInterest_append_of_allInteresting hneg _ x)

end Pathspec

end GitRemote
