import GitRemote.Proofs.Pathspec.Ancestors
import GitRemote.Proofs.Pathspec.Union

/-!
# Items without wildcards

A pattern without wildcards names a path: what is at the path, everything below it if it is a directory,
and the directories above it. A depth limit counts the slashes of an entry's base behind the directory
that the pattern names.
-/

namespace GitRemote

variable {icase : Bool} {text start more pattern base : Bytes} {names : List Bytes} {e : Entry}

/-! ### Beginnings of texts -/

/-- One text starts with another, as they are compared. -/
def StartsWith (icase : Bool) (text start : Bytes) : Prop :=
  start.map (foldByte icase) <+: text.map (foldByte icase)

/-- A pattern with a slash at its end. -/
def asDirectory (pattern : Bytes) : Bytes :=
  if pattern.getLast? = some 0x2F then pattern else pattern ++ [0x2F]

instance (icase : Bool) (text start : Bytes) : Decidable (StartsWith icase text start) :=
  inferInstanceAs (Decidable (_ <+: _))

/-- A text starts with another if its first bytes fold to the same. -/
theorem startsWith_iff_take :
    StartsWith icase text start ↔ start.length ≤ text.length ∧
      (text.take start.length).map (foldByte icase) = start.map (foldByte icase) := by
  rw [StartsWith, List.prefix_iff_eq_take, List.length_map, ← List.map_take]
  constructor
  · intro h
    have hlength := congrArg List.length h
    simp only [List.length_map, List.length_take] at hlength
    exact ⟨by omega, h.symm⟩
  · exact fun h => h.2.symm

theorem StartsWith.length_le (h : StartsWith icase text start) : start.length ≤ text.length :=
  (startsWith_iff_take.mp h).1

/-- A text goes on behind a shorter one by the rest of it. -/
theorem startsWith_append :
    StartsWith icase text (start ++ more) ↔
      StartsWith icase text start ∧ StartsWith icase (text.drop start.length) more := by
  simp only [startsWith_iff_take, List.length_append, List.take_add, List.map_append,
    List.length_drop]
  constructor
  · rintro ⟨hle, hmap⟩
    have hfirst : ((text.take start.length).map (foldByte icase)).length =
        (start.map (foldByte icase)).length := by
      simp only [List.length_map, List.length_take]
      omega
    obtain ⟨hstart, hmore⟩ := List.append_inj hmap hfirst
    exact ⟨⟨by omega, hstart⟩, by omega, hmore⟩
  · rintro ⟨⟨hle, hstart⟩, hle', hmore⟩
    exact ⟨by omega, by rw [hstart, hmore]⟩

/-- A text starts with a slash only if its first byte is one. -/
theorem startsWith_slash : StartsWith icase text [0x2F] ↔ text.head? = some 0x2F := by
  cases text with
  | nil => simp [StartsWith]
  | cons b text =>
    have hslash : foldByte icase 0x2F = 0x2F := foldByte_eq_slash.mpr rfl
    simp only [StartsWith, List.map_cons, List.map_nil, List.cons_prefix_cons, List.nil_prefix,
      and_true, List.head?_cons, Option.some.injEq, hslash]
    rw [eq_comm, foldByte_eq_slash]

/-- A text starts with a directory if it starts with the path and a slash follows. -/
theorem startsWith_append_slash :
    StartsWith icase text (start ++ [0x2F]) ↔
      StartsWith icase text start ∧ text[start.length]? = some 0x2F := by
  rw [startsWith_append, startsWith_slash, List.head?_drop]

theorem startsWith_of_same (h : start.map (foldByte icase) = text.map (foldByte icase)) :
    StartsWith icase text start :=
  ⟨[], (List.append_nil _).trans h⟩

/-- A text that starts with another of at least its length is the same text. -/
theorem startsWith_and_length_le :
    StartsWith icase text start ∧ text.length ≤ start.length ↔
      start.map (foldByte icase) = text.map (foldByte icase) := by
  constructor
  · rintro ⟨h, hle⟩
    exact h.eq_of_length_le (by simpa using hle)
  · intro h
    have hlength := congrArg List.length h
    simp only [List.length_map] at hlength
    exact ⟨startsWith_of_same h, by omega⟩

/-- A pattern that asks for a directory ends in a slash. -/
theorem exists_asDirectory_eq (pattern : Bytes) : ∃ path, asDirectory pattern = path ++ [0x2F] := by
  rw [asDirectory]
  split
  · next h =>
    obtain ⟨path, hpath⟩ := List.getLast?_eq_some_iff.mp h
    exact ⟨path, hpath⟩
  · exact ⟨pattern, rfl⟩

/-- A name without slash adds nothing to the directories that a path is in. -/
theorem startsWith_asDirectory_append {name : Bytes} (h : 0x2F ∉ name) :
    StartsWith icase (base ++ name) (asDirectory pattern) ↔
      StartsWith icase base (asDirectory pattern) := by
  obtain ⟨path, hpath⟩ := exists_asDirectory_eq pattern
  rw [hpath]
  constructor
  · intro hstart
    have hslash := (startsWith_append_slash.mp hstart).2
    have hlt : path.length < base.length := by
      by_contra hge
      rw [List.getElem?_append_right (Nat.not_lt.mp hge)] at hslash
      exact h (List.mem_of_getElem? hslash)
    rw [startsWith_iff_take] at hstart ⊢
    have hle : (path ++ [0x2F]).length ≤ base.length := by
      rw [List.length_append]
      exact hlt
    rw [List.take_append_of_le_length hle] at hstart
    exact ⟨hle, hstart.2⟩
  · exact fun hstart => hstart.trans (by rw [List.map_append]; exact List.prefix_append ..)

/-! ### Bases -/

/-- Behind a slash of a base there is a base. -/
theorem exists_dirBase_of_slash (h : ∀ n ∈ names, PlainName n ∧ n ≠ []) {front behind : Bytes}
    (hsplit : dirBase names = front ++ 0x2F :: behind) :
    ∃ inner, behind = dirBase inner ∧ ∀ n ∈ inner, PlainName n ∧ n ≠ [] := by
  induction names generalizing front with
  | nil =>
    have hnil := congrArg List.length hsplit
    simp [dirBase] at hnil
  | cons name names ih =>
    obtain ⟨⟨hname, -⟩, hnames⟩ := List.forall_mem_cons.mp h
    rw [dirBase_cons] at hsplit
    rcases List.append_eq_append_iff.mp hsplit with ⟨t, rfl, ht⟩ | ⟨t, rfl, ht⟩
    · cases t with
      | nil => exact ⟨names, (List.cons.inj ht).2.symm, hnames⟩
      | cons b t => exact ih hnames (List.cons.inj ht).2
    · cases t with
      | nil => exact ⟨names, (List.cons.inj ht).2, hnames⟩
      | cons b t =>
        obtain ⟨rfl, -⟩ := List.cons.inj ht
        exact absurd (List.mem_append_right front List.mem_cons_self) hname.2

/-- The first byte of a base is no slash. -/
theorem count_drop_one_dirBase (h : ∀ n ∈ names, PlainName n ∧ n ≠ []) :
    ((dirBase names).drop 1).count 0x2F = (dirBase names).count 0x2F := by
  cases names with
  | nil => rfl
  | cons name names =>
    obtain ⟨⟨hname, hne⟩, -⟩ := List.forall_mem_cons.mp h
    obtain ⟨b, name, rfl⟩ := List.exists_cons_of_ne_nil hne
    have hb : b ≠ 0x2F := fun hb => hname.2 (hb ▸ List.mem_cons_self)
    rw [dirBase_cons, List.cons_append, List.drop_succ_cons, List.drop_zero,
      List.count_cons_of_ne hb]

/-- A base is empty or ends in a slash. -/
theorem getLast?_dirBase (hne : names ≠ []) : (dirBase names).getLast? = some 0x2F := by
  obtain ⟨outer, name, rfl⟩ := List.eq_nil_or_concat names |>.resolve_left hne
  simp [dirBase]

/-- A base is within the directory that its own path names. -/
theorem startsWith_asDirectory_of_same (hne : pattern ≠ [])
    (h : (dirBase names).map (foldByte icase) = pattern.map (foldByte icase)) :
    StartsWith icase (dirBase names) (asDirectory pattern) := by
  have hnames : names ≠ [] := by
    rintro rfl
    exact hne (List.map_eq_nil_iff.mp h.symm)
  have hlast := congrArg List.getLast? h
  rw [List.getLast?_map, List.getLast?_map, getLast?_dirBase hnames, Option.map_some,
    foldByte_eq_slash.mpr rfl, eq_comm, Option.map_eq_some_iff] at hlast
  obtain ⟨b, hb, hslash⟩ := hlast
  rw [foldByte_eq_slash.mp hslash] at hb
  rw [asDirectory, if_pos hb]
  exact startsWith_of_same h.symm

/-- The byte behind a directory in a base is no slash, so it does not matter if it is counted. -/
theorem count_drop_of_startsWith (h : ∀ n ∈ names, PlainName n ∧ n ≠ [])
    (hstart : StartsWith icase (dirBase names) (asDirectory pattern)) :
    ((dirBase names).drop (pattern.length + 1)).count 0x2F =
      ((dirBase names).drop (asDirectory pattern).length).count 0x2F := by
  by_cases hlast : pattern.getLast? = some 0x2F
  · have hdir : asDirectory pattern = pattern := if_pos hlast
    obtain ⟨path, rfl⟩ := List.getLast?_eq_some_iff.mp hlast
    rw [hdir] at hstart ⊢
    obtain ⟨hlt, hslash⟩ := List.getElem?_eq_some_iff.mp (startsWith_append_slash.mp hstart).2
    have hsplit : dirBase names =
        (dirBase names).take path.length ++ 0x2F :: (dirBase names).drop (path.length + 1) := by
      rw [← hslash, List.getElem_cons_drop, List.take_append_drop]
    obtain ⟨inner, hinner, hplain⟩ := exists_dirBase_of_slash h hsplit
    rw [List.length_append, List.length_singleton, ← List.drop_drop, hinner,
      count_drop_one_dirBase hplain]
  · have hdir : asDirectory pattern = pattern ++ [0x2F] := if_neg hlast
    rw [hdir, List.length_append, List.length_singleton]

namespace PathspecItem

variable {item : PathspecItem}

/-- A base is within what a pattern names if it starts with the pattern as a directory. -/
theorem inside_iff (hfree : 0 ∉ base) :
    item.inside base = true ↔
      item.pattern = [] ∨ StartsWith item.magic.icase base (asDirectory item.pattern) := by
  have hagree (hle : item.pattern.length ≤ base.length) :
      agreeUpTo item.magic.icase item.pattern.length base item.pattern = true ↔
        StartsWith item.magic.icase base item.pattern := by
    rw [agreeUpTo_of_not_mem hfree hle, startsWith_iff_take, List.take_length]
    exact ⟨fun h => ⟨hle, h.2.symm⟩, fun h => ⟨Nat.le_refl _, h.2.symm⟩⟩
  simp only [inside, matchesDirectory, Bool.and_eq_true, decide_eq_true_eq, Bool.or_eq_true,
    beq_iff_eq]
  by_cases hnil : item.pattern = []
  · simp [hnil, agreeUpTo, compareUpTo]
  · have hlength : item.pattern.length ≠ 0 := fun h => hnil (List.length_eq_zero_iff.mp h)
    simp only [hnil, hlength, false_or]
    by_cases hlast : item.pattern.getLast? = some 0x2F
    · have hdir : asDirectory item.pattern = item.pattern := if_pos hlast
      simp only [hlast, or_true, and_true, hdir]
      exact ⟨fun h => (hagree h.1).mp h.2, fun h => ⟨h.length_le, (hagree h.length_le).mpr h⟩⟩
    · have hdir : asDirectory item.pattern = item.pattern ++ [0x2F] := if_neg hlast
      simp only [hlast, or_false, hdir, startsWith_append_slash]
      exact ⟨fun h => ⟨(hagree h.1).mp h.2.1, h.2.2⟩,
        fun h => ⟨h.1.length_le, (hagree h.1.length_le).mpr h.1, h.2⟩⟩

/-- A pattern without wildcards picks what is at its path, and the directories above. -/
theorem picks_iff (hplain : item.hasWildcard = false) {recursive : Bool} (hfree : 0 ∉ base)
    (he : PlainName e.name) :
    item.picks recursive e base = true ↔ base.length < item.pattern.length ∧
      ((base ++ e.name).map (foldByte item.magic.icase) =
          item.pattern.map (foldByte item.magic.icase) ∨
        (e.isDir || e.isGitlink) = true ∧
          StartsWith item.magic.icase item.pattern (base ++ e.name ++ [0x2F])) := by
  have hleads : item.leadsBelow base = true ↔
      base.length < item.pattern.length ∧ StartsWith item.magic.icase item.pattern base := by
    rw [leadsBelow, Bool.and_eq_true, decide_eq_true_eq,
      agreeUpTo_of_not_mem hfree (Nat.le_refl _), startsWith_iff_take, List.take_length]
  have hagree : agreeUpTo item.magic.icase e.name.length (item.below base) e.name = true ↔
      StartsWith item.magic.icase (item.below base) e.name := by
    rw [agreeUpTo_comm, agreeUpTo_of_not_mem he.1 (Nat.le_refl _), startsWith_iff_take,
      List.take_length]
  have hend : item.pattern.length ≤ (base ++ e.name).length ↔
      (item.below base).length ≤ e.name.length := by
    rw [below, List.length_drop, List.length_append]
    omega
  have hnext : item.pattern[(base ++ e.name).length]? = (item.below base)[e.name.length]? := by
    rw [below, List.getElem?_drop, List.length_append]
  have hpicks : item.picks recursive e base = true ↔
      item.leadsBelow base = true ∧ item.names (item.below base) e = true := by
    rw [picks, hplain]
    cases item.leadsBelow base <;> simp
  rw [hpicks, hleads, ← startsWith_and_length_le, startsWith_append_slash, startsWith_append, hend,
    hnext, names, Bool.and_eq_true, hagree, Bool.and_eq_true, decide_eq_true_eq, Bool.or_eq_true,
    decide_eq_true_eq, Bool.and_eq_true, beq_iff_eq]
  constructor
  · rintro ⟨⟨hlt, hbase⟩, ⟨-, hgap⟩, hname⟩
    refine ⟨hlt, hgap.imp (fun hle => ⟨⟨hbase, hname⟩, hle⟩) fun hslash => ?_⟩
    exact ⟨hslash.2, ⟨hbase, hname⟩, hslash.1⟩
  · rintro ⟨hlt, ⟨⟨hbase, hname⟩, hle⟩ | ⟨hdir, ⟨hbase, hname⟩, hslash⟩⟩
    · exact ⟨⟨hlt, hbase⟩, ⟨hname.length_le, .inl hle⟩, hname⟩
    · exact ⟨⟨hlt, hbase⟩, ⟨hname.length_le, .inr ⟨hslash, hdir⟩⟩, hname⟩

/-- An entry is no deeper than the pattern where its base is no longer. -/
theorem answerInside_of_length_le {limit : Option Nat} (h : base.length ≤ item.pattern.length) :
    (item.answerInside limit e base).isInteresting = true := by
  cases limit with
  | none => rfl
  | some limit =>
    rw [answerInside_isInteresting, List.drop_eq_nil_of_le (Nat.le_succ_of_le h)]
    rfl

/-- What an item without wildcards matches: what is at its path, the directories above it, and what is
below it as far as the depth limit reaches. -/
theorem answer?_isInteresting_iff (hplain : item.hasWildcard = false)
    (h : ∀ n ∈ names, PlainName n ∧ n ≠ []) (he : PlainName e.name) {recursive : Bool}
    {limit : Option Nat} :
    (∃ i, item.answer? recursive limit e (dirBase names) = some i ∧ i.isInteresting = true) ↔
      item.pattern = [] ∧
          (item.answerInside limit e (dirBase names)).isInteresting = true ∨
        (dirBase names ++ e.name).map (foldByte item.magic.icase) =
          item.pattern.map (foldByte item.magic.icase) ∨
        StartsWith item.magic.icase (dirBase names) (asDirectory item.pattern) ∧
          (item.answerInside limit e (dirBase names)).isInteresting = true ∨
        (e.isDir || e.isGitlink) = true ∧
          StartsWith item.magic.icase item.pattern (dirBase names ++ e.name ++ [0x2F]) := by
  have hfree : 0 ∉ dirBase names := dirBase_free fun n hn => (h n hn).1.1
  have hinside : item.inside (dirBase names) = true ↔ _ := inside_iff hfree
  cases hin : item.inside (dirBase names) with
  | true =>
    have hle : item.pattern.length ≤ (dirBase names).length := by
      simp only [inside, Bool.and_eq_true, decide_eq_true_eq] at hin
      exact hin.1
    simp only [answer?_of_inside hin, Option.some.injEq, exists_eq_left']
    rw [hin, eq_self_iff_true, true_iff] at hinside
    constructor
    · exact fun hreach => hinside.imp (⟨·, hreach⟩) fun hstart => .inr (.inl ⟨hstart, hreach⟩)
    · rintro (⟨-, hreach⟩ | hsame | ⟨-, hreach⟩ | ⟨-, habove⟩)
      · exact hreach
      · have hlength := congrArg List.length hsame
        simp only [List.length_map, List.length_append] at hlength
        exact answerInside_of_length_le (by omega)
      · exact hreach
      · have hlength := habove.length_le
        simp only [List.length_append, List.length_singleton] at hlength
        omega
  | false =>
    rw [hin, eq_false Bool.false_ne_true, false_iff, not_or] at hinside
    obtain ⟨hne, hstart⟩ := hinside
    simp only [hne, hstart, false_and, false_or, answer?_of_not_inside hin,
      Option.ite_none_right_eq_some, Option.some.injEq, picks_iff hplain hfree he]
    constructor
    · rintro ⟨_, ⟨⟨-, hpick⟩, -⟩, -⟩
      exact hpick
    · intro hpick
      refine ⟨.interesting, ⟨⟨?_, hpick⟩, rfl⟩, rfl⟩
      rcases hpick with hsame | ⟨-, habove⟩
      · by_contra hge
        have hlength := congrArg List.length hsame
        simp only [List.length_map, List.length_append] at hlength
        have hnil : e.name = [] := List.length_eq_zero_iff.mp (by omega)
        rw [hnil, List.append_nil] at hsame
        exact hstart (startsWith_asDirectory_of_same hne hsame)
      · have hlength := habove.length_le
        simp only [List.length_append, List.length_singleton] at hlength
        omega

end PathspecItem

/-- The answer of a pathspec of one item is that of the item. -/
theorem Pathspec.interest_single_iff {spec : Pathspec} {item : PathspecItem}
    (hitems : spec.items = [item]) (hpositive : item.magic.exclude = false) :
    (spec.interest e base).isInteresting = true ↔
      ∃ i, item.answer? spec.recursive spec.depthLimit e base = some i ∧
        i.isInteresting = true := by
  have hexclude : spec.hasExclude = false := by simp [hasExclude, hitems, hpositive]
  have halone : spec.alone item = spec := by rw [alone, ← hitems]
  rw [← matchedAlone_iff, MatchedAlone, halone, hpositive, interest_of_not_hasExclude hexclude]

/-- A pathspec of one item without wildcards that is not an exclusion matches what is at the path of its
pattern, what is below that, and the directories above. A depth limit counts the slashes of the base
behind the pattern. -/
theorem plain_item_matches_path {spec : Pathspec} {item : PathspecItem} (hitems : spec.items = [item])
    (hpositive : item.magic.exclude = false) (hplain : item.hasWildcard = false)
    (hnames : ∀ n ∈ names, PlainName n ∧ n ≠ []) (he : PlainName e.name) :
    (spec.depthLimit = none →
      ((spec.interest e (dirBase names)).isInteresting = true ↔
        item.pattern = [] ∨
        (dirBase names ++ e.name).map (foldByte item.magic.icase) =
          item.pattern.map (foldByte item.magic.icase) ∨
        StartsWith item.magic.icase (dirBase names ++ e.name) (asDirectory item.pattern) ∨
        (e.isDir || e.isGitlink) = true ∧
          StartsWith item.magic.icase item.pattern (dirBase names ++ e.name ++ [0x2F]))) ∧
    ∀ m, spec.recursive = true → spec.maxDepth = some m → e.isDir = false →
      ((spec.interest e (dirBase names)).isInteresting = true ↔
        item.pattern = [] ∧ (dirBase names).count 0x2F ≤ m ∨
        (dirBase names ++ e.name).map (foldByte item.magic.icase) =
          item.pattern.map (foldByte item.magic.icase) ∨
        StartsWith item.magic.icase (dirBase names ++ e.name) (asDirectory item.pattern) ∧
          ((dirBase names).drop (asDirectory item.pattern).length).count 0x2F ≤ m ∨
        (e.isDir || e.isGitlink) = true ∧
          StartsWith item.magic.icase item.pattern (dirBase names ++ e.name ++ [0x2F])) := by
  have hanswer : (spec.interest e (dirBase names)).isInteresting = true ↔ _ :=
    Pathspec.interest_single_iff hitems hpositive
  rw [PathspecItem.answer?_isInteresting_iff hplain hnames he] at hanswer
  rw [hanswer, startsWith_asDirectory_append he.2]
  constructor
  · intro hlimit
    rw [hlimit]
    simp only [PathspecItem.answerInside, Interest.isInteresting, and_true]
  · intro m hrecursive hmax hfile
    have hlimit : spec.depthLimit = some m := by rw [Pathspec.depthLimit, if_pos hrecursive, hmax]
    have hcount (path : Bytes) : withinDepth m e.isDir.toNat path = true ↔ path.count 0x2F ≤ m := by
      rw [withinDepth_iff, hfile, Bool.toNat_false]
      omega
    rw [hlimit, PathspecItem.answerInside_isInteresting, hcount]
    refine or_congr (and_congr_right fun hnil => ?_) (or_congr_right
      (or_congr_left (and_congr_right fun hstart => ?_)))
    · rw [hnil, List.length_nil, Nat.zero_add, count_drop_one_dirBase hnames]
    · rw [count_drop_of_startsWith hnames hstart]

/-- The pattern `A/b` in either case, with one level of directories below. -/
def foldedItem : PathspecItem := .ofPattern [0x41, 0x2F, 0x62] { icase := true }

/-- The pathspec of this item alone. -/
def foldedDirectory : Pathspec := { items := [foldedItem], recursive := true, maxDepth := some 1 }

/-- The file `f` in `a/B/c` is matched, and in `a/B/c/d` it is too deep. -/
theorem plain_item_matches_path_folded :
    foldedDirectory.items = [foldedItem] ∧ foldedItem.magic.exclude = false ∧
      foldedItem.hasWildcard = false ∧ foldedDirectory.recursive = true ∧
      foldedDirectory.maxDepth = some 1 ∧ plainFile.isDir = false ∧ PlainName plainFile.name ∧
      (foldedDirectory.interest plainFile (dirBase [[0x61], [0x42], [0x63]])).isInteresting = true ∧
      (foldedDirectory.interest plainFile
        (dirBase [[0x61], [0x42], [0x63], [0x64]])).isInteresting ≠ true := by
  have hmatches (names : List Bytes) (hnames : ∀ n ∈ names, PlainName n ∧ n ≠ []) :
      (foldedDirectory.interest plainFile (dirBase names)).isInteresting = true ↔ _ :=
    (plain_item_matches_path rfl rfl (by decide) hnames (by decide)).2 1 rfl rfl rfl
  refine ⟨rfl, rfl, by decide, rfl, rfl, rfl, by decide, ?_, ?_⟩
  · exact (hmatches [[0x61], [0x42], [0x63]] (by decide)).mpr (by decide)
  · exact fun h => absurd
      ((hmatches [[0x61], [0x42], [0x63], [0x64]] (by decide)).mp h) (by decide)

end GitRemote
