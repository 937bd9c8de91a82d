import GitRemote.Proofs.Pathspec.Compare

/-!
# What one item answers

Whether an item answers, and what, does not depend on what the items asked before it left: `answer?`
is that answer. What they leave matters only for entries that no item answers. The directory is
given up there only if the pattern of every item that leads below it sorts before the entry.
-/

namespace GitRemote

namespace PathspecItem

variable {item : PathspecItem} {recursive : Bool} {limit : Option Nat} {e x : Entry} {base : Bytes}

/-- Whether the directory `base` lies within what the pattern names. -/
def inside (item : PathspecItem) (base : Bytes) : Bool :=
  item.pattern.length ≤ base.length && item.matchesDirectory base

/-- Whether the pattern leads below the directory `base`. -/
def leadsBelow (item : PathspecItem) (base : Bytes) : Bool :=
  base.length < item.pattern.length && agreeUpTo item.magic.icase base.length base item.pattern

/-- What the pattern has below the directory `base`. -/
def below (item : PathspecItem) (base : Bytes) : Bytes := item.pattern.drop base.length

/-- Whether a pattern is the entry's name, or leads below the entry. -/
def names (item : PathspecItem) (pattern : Bytes) (e : Entry) : Bool :=
  e.name.length ≤ pattern.length &&
    (pattern.length ≤ e.name.length ||
      pattern[e.name.length]? == some 0x2F && (e.isDir || e.isGitlink)) &&
    agreeUpTo item.magic.icase e.name.length pattern e.name

/-- Whether the pattern picks an entry of a directory that is not within what it names. -/
def picks (item : PathspecItem) (recursive : Bool) (e : Entry) (base : Bytes) : Bool :=
  if item.leadsBelow base then
    item.names (item.below base) e ||
      item.hasWildcard &&
        (item.matchesWildcard (item.below base) e.name (item.plainLength - base.length) ||
          (recursive && e.isDir))
  else
    item.hasWildcard && (item.plainLength == 0 || item.matchesWildcardBase base) &&
      (item.matchesWildcard item.pattern (base ++ e.name) item.plainLength ||
        (recursive && e.isDir))

/-- The answer about an entry within what the pattern names. -/
def answerInside (item : PathspecItem) (limit : Option Nat) (e : Entry) (base : Bytes) : Interest :=
  match limit with
  | none => .allInteresting
  | some limit =>
    if withinDepth limit e.isDir.toNat (base.drop (item.pattern.length + 1)) then .interesting
    else .notInteresting

/-- The answer of one item, if it has one. -/
def answer? (item : PathspecItem) (recursive : Bool) (limit : Option Nat) (e : Entry)
    (base : Bytes) : Option Interest :=
  if item.inside base then some (item.answerInside limit e base)
  else if item.picks recursive e base then some .interesting
  else none

/-- The pattern leads below the directory to a place before the entry. -/
structure Before (item : PathspecItem) (base : Bytes) (e : Entry) : Prop where
  exact : item.magic.icase = false
  lt : compareUpTo false (min (item.below base).length e.name.length) (item.below base) e.name = .lt

/-- The items asked before make no difference to whether a pattern names an entry. -/
theorem matchEntry_fst (item : PathspecItem) (e : Entry) (pattern : Bytes) (otherwise : Interest) :
    (item.matchEntry e pattern otherwise).1 = item.names pattern e := by
  simp only [matchEntry, names]
  by_cases hshort : pattern.length < e.name.length
  · have hlong : ¬ e.name.length ≤ pattern.length := by omega
    simp only [hshort, hlong, if_true, decide_false, Bool.false_and]
    split <;> rfl
  · have hlong : e.name.length ≤ pattern.length := by omega
    have hmin : min pattern.length e.name.length = e.name.length := by omega
    simp only [hshort, hlong, hmin, if_false, decide_true, Bool.true_and]
    have hgap : (decide (pattern.length ≤ e.name.length) ||
        pattern[e.name.length]? == some 0x2F && (e.isDir || e.isGitlink)) =
          !(decide (e.name.length < pattern.length) &&
            (pattern[e.name.length]? != some 0x2F || !(e.isDir || e.isGitlink))) := by
      by_cases hlt : e.name.length < pattern.length
      · simp only [hlt, Nat.not_le.mpr hlt, decide_true, decide_false, Bool.false_or,
          Bool.true_and, bne, Bool.not_or, Bool.not_not, Bool.not_and]
      · simp only [hlt, Nat.not_lt.mp hlt, decide_true, decide_false, Bool.true_or,
          Bool.false_and, Bool.not_false]
    rw [hgap, agreeUpTo]
    cases item.magic.icase <;> cases compareUpTo _ e.name.length pattern e.name <;>
      cases (decide (e.name.length < pattern.length) &&
        (pattern[e.name.length]? != some 0x2F || !(e.isDir || e.isGitlink))) <;>
      cases otherwise <;> rfl

/-- What an item leaves rules out later entries only if it was left so and the pattern sorts before
the entry. -/
theorem matchEntry_snd (item : PathspecItem) (e : Entry) (base : Bytes) (otherwise : Interest) :
    (item.matchEntry e (item.below base) otherwise).2 = .notInteresting ∨
      ((item.matchEntry e (item.below base) otherwise).2 = otherwise ∧ item.Before base e) := by
  simp only [matchEntry]
  split
  · next h =>
    simp only [Bool.and_eq_true, Bool.not_eq_true', bne_iff_ne, beq_iff_eq] at h
    exact Or.inr ⟨rfl, h.1.1, h.2⟩
  · split
    · exact Or.inl rfl
    · split
      · exact Or.inl rfl
      · split <;> exact Or.inl rfl

/-- What an item says: its answer, or what it leaves of the one before. -/
theorem ask_eq (item : PathspecItem) (recursive : Bool) (limit : Option Nat) (e : Entry)
    (base : Bytes) (otherwise : Interest) :
    item.ask recursive limit e base otherwise =
      match item.answer? recursive limit e base with
      | some i => .answer i
      | none =>
        .pass (if item.leadsBelow base then (item.matchEntry e (item.below base) otherwise).2
          else otherwise) := by
  rw [answer?]
  by_cases hin : item.inside base = true
  · rw [if_pos hin]
    rw [inside] at hin
    unfold ask
    rw [if_pos hin]
    unfold answerInside
    cases limit with
    | none => rfl
    | some limit =>
      simp only
      split <;> rfl
  · rw [if_neg hin]
    rw [inside] at hin
    unfold ask
    rw [if_neg hin, picks]
    by_cases hl : item.leadsBelow base = true
    · have hfst := item.matchEntry_fst e (item.below base) otherwise
      rw [if_pos hl, if_pos hl]
      rw [leadsBelow] at hl
      rw [if_pos hl]
      simp only [below] at hfst ⊢
      by_cases hn : item.names (item.pattern.drop base.length) e = true
      · rw [hn] at hfst
        simp only [hfst, hn, ite_true, Bool.true_or]
      · rw [Bool.not_eq_true] at hn
        rw [hn] at hfst
        simp only [hfst, hn, Bool.false_eq_true, ite_false, Bool.false_or]
        split <;> rfl
    · rw [if_neg hl, if_neg hl]
      rw [leadsBelow] at hl
      rw [if_neg hl]
      split <;> rfl

/-- An item that has an answer gives it whatever was left before. -/
theorem ask_of_answer?_some {i : Interest} (h : item.answer? recursive limit e base = some i)
    (otherwise : Interest) : item.ask recursive limit e base otherwise = .answer i := by
  rw [ask_eq, h]

/-- An item without an answer leaves one that does not match. It leaves the directory to be given up
only if it was left so, and the pattern leads to a place before the entry if it leads below the
directory. -/
theorem ask_of_answer?_none (h : item.answer? recursive limit e base = none)
    (otherwise : Interest) : ∃ left, item.ask recursive limit e base otherwise = .pass left ∧
      (left = .notInteresting ∨
        left = otherwise ∧ (item.leadsBelow base = true → item.Before base e)) := by
  refine ⟨_, by rw [ask_eq, h], ?_⟩
  by_cases hl : item.leadsBelow base = true
  · rw [if_pos hl]
    exact (item.matchEntry_snd e base otherwise).imp id fun hb => ⟨hb.1, fun _ => hb.2⟩
  · rw [if_neg hl]
    exact Or.inr ⟨rfl, fun h => absurd h hl⟩

/-- A pattern that leads to a place before an entry names no entry that comes later. -/
theorem not_names_of_before (hb : item.Before base e) (hx : PlainName x.name)
    (hl : Later e.name x.name) : item.names (item.below base) x = false := by
  obtain ⟨c, u, v, s, t, hp, he, huv⟩ := lt_of_compareUpTo hb.lt (Nat.min_le_left _ _)
    (Nat.min_le_right _ _)
  rw [names, hb.exact, Bool.eq_false_iff]
  simp only [ne_eq, Bool.and_eq_true, decide_eq_true_eq, Bool.or_eq_true, beq_iff_eq]
  rintro ⟨⟨hlen, hgap⟩, hagree⟩
  rw [agreeUpTo_comm, agreeUpTo_of_not_mem hx.1 (Nat.le_refl _), List.take_length] at hagree
  -- The pattern is the later name, or goes on behind it with a slash.
  have hlead : item.below base = x.name ++ (item.below base).drop x.name.length := by
    have htake : (item.below base).take x.name.length = x.name := by
      simpa only [show foldByte false = id from rfl, List.map_id] using hagree.2
    conv_lhs => rw [← List.take_append_drop x.name.length (item.below base), htake]
  have hlt : item.below base < e.name := by
    rw [hp, he]
    exact append_cons_lt s t huv
  rcases hl with hex | ⟨b, r, hb', hslash⟩
  · have hle : x.name ≤ item.below base := by
      rw [hlead]
      exact le_append _ _
    exact Std.not_lt.mpr hle (List.lt_trans hlt hex)
  · rcases hgap with hend | ⟨hnext, _⟩
    · have hnil : (item.below base).drop x.name.length = [] := List.drop_eq_nil_of_le hend
      rw [hnil, List.append_nil] at hlead
      rw [hb', ← hlead, hp, List.append_assoc, List.cons_append] at he
      have huv' := (List.cons.inj (List.append_cancel_left he)).1
      exact Std.lt_irrefl (huv' ▸ huv)
    · have hdrop : (item.below base).drop x.name.length =
          0x2F :: (item.below base).drop (x.name.length + 1) := by
        rw [List.drop_eq_getElem?_toList_append, hnext]
        rfl
      rw [hlead, hdrop, hb'] at hlt
      exact List.lt_asymm hlt (append_cons_lt _ _ hslash)

end PathspecItem

end GitRemote
