import GitRemote.Proofs.Pathspec.Side

/-!
# Exclusions

What the exclusions leave of an answer, and what the answer about one entry says about those that a
walk meets later in the same directory.
-/

namespace GitRemote

namespace Pathspec

variable {spec : Pathspec} {e x : Entry} {base : Bytes}

/-- Without exclusions the other items decide alone. -/
theorem interest_of_not_hasExclude (h : spec.hasExclude = false) (e : Entry) (base : Bytes) :
    spec.interest e base = spec.sideInterest false e base := by
  simp only [interest, h, Bool.false_eq_true, ite_false]

/-- With exclusions, what they match is removed from what the other items match. -/
theorem interest_of_hasExclude (h : spec.hasExclude = true) (e : Entry) (base : Bytes) :
    spec.interest e base =
      remove e.isDir (spec.sideInterest false e base) (spec.sideInterest true e base) := by
  simp only [interest, h, ite_true]

/-- What the exclusions leave was interesting before. -/
theorem isInteresting_of_remove {isDir : Bool} {positive negative : Interest}
    (h : (remove isDir positive negative).isInteresting = true) : positive.isInteresting = true := by
  revert h
  cases isDir <;> cases positive <;> cases negative <;> decide

/-- Nothing is left of a file that an exclusion matches. -/
theorem not_isInteresting_of_remove {positive negative : Interest}
    (h : negative.isInteresting = true) : (remove false positive negative).isInteresting = false := by
  revert h
  cases positive <;> cases negative <;> decide

/-- An exclusion that does not match leaves what was interesting. -/
theorem isInteresting_remove {isDir : Bool} {positive negative : Interest}
    (hp : positive.isInteresting = true) (hn : negative.isInteresting = false) :
    (remove isDir positive negative).isInteresting = true := by
  revert hp hn
  cases isDir <;> cases positive <;> cases negative <;> decide

/-- A directory stays interesting unless all of it is excluded. -/
theorem isInteresting_remove_directory {positive negative : Interest}
    (hp : positive.isInteresting = true) (hn : negative ≠ .allInteresting) :
    (remove true positive negative).isInteresting = true := by
  revert hp hn
  cases positive <;> cases negative <;> decide

/-- An answer ends the directory because nothing matches there, or because all of it is excluded. -/
theorem remove_eq_allNotInteresting {isDir : Bool} {positive negative : Interest}
    (h : remove isDir positive negative = .allNotInteresting) :
    positive = .allNotInteresting ∨
      positive = .allInteresting ∧ negative = .allInteresting := by
  revert h
  cases isDir <;> cases positive <;> cases negative <;> decide

/-- All of a directory is interesting only if the exclusions have given it up. -/
theorem remove_eq_allInteresting {isDir : Bool} {positive negative : Interest}
    (h : remove isDir positive negative = .allInteresting) :
    positive = .allInteresting ∧ negative = .allNotInteresting := by
  revert h
  cases isDir <;> cases positive <;> cases negative <;> decide

/-- Behind an entry that ends its directory, only directories can be interesting, and these only
under exclusions. -/
theorem interest_of_later (h : spec.interest e base = .allNotInteresting) (hx : PlainName x.name)
    (hl : Later e.name x.name) (hd : spec.hasExclude = false ∨ x.isDir = false) :
    (spec.interest x base).isInteresting = false := by
  cases hex : spec.hasExclude with
  | false =>
    rw [interest_of_not_hasExclude hex] at h ⊢
    exact sideInterest_of_later h hx hl
  | true =>
    have hfile : x.isDir = false := hd.resolve_left (by simp [hex])
    rw [interest_of_hasExclude hex] at h ⊢
    rcases remove_eq_allNotInteresting h with hpos | ⟨_, hneg⟩
    · have hnot := sideInterest_of_later hpos hx hl
      cases hr : (remove x.isDir (spec.sideInterest false x base)
        (spec.sideInterest true x base)).isInteresting with
      | false => rfl
      | true => rw [isInteresting_of_remove hr] at hnot; cases hnot
    · rw [hfile]
      exact not_isInteresting_of_remove (sideInterest_of_allInteresting hneg x)

/-- Behind an entry that makes all of its directory interesting, every entry is. -/
theorem interest_of_allInteresting (h : spec.interest e base = .allInteresting)
    (hx : PlainName x.name) (hl : Later e.name x.name) :
    (spec.interest x base).isInteresting = true := by
  cases hex : spec.hasExclude with
  | false =>
    rw [interest_of_not_hasExclude hex] at h ⊢
    exact sideInterest_of_allInteresting h x
  | true =>
    rw [interest_of_hasExclude hex] at h ⊢
    obtain ⟨hpos, hneg⟩ := remove_eq_allInteresting h
    exact isInteresting_remove (sideInterest_of_allInteresting hpos x)
      (sideInterest_of_later hneg hx hl)

end Pathspec

end GitRemote
