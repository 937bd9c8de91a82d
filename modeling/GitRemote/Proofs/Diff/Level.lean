import GitRemote.Proofs.Walk.Log
import GitRemote.Tree.Diff

/-!
# One directory of a difference

A difference only adds to the changes found before, whatever else it does. So over well-formed
trees, a directory without a failure yields what its rounds yield one by one, in the order in which
they are offered.
-/

namespace GitRemote

/-- The entry that a round has of a tree. -/
def Round.side (r : Round) (i : Nat) : Option Entry := (r.entries[i]?).join

/-- Whether both sides have the same entry. -/
def unchanged (old new : Option Entry) : Bool :=
  match old, new with
  | some o, some n => o.id == n.id && o.mode == n.mode
  | _, _ => false

/-- The directory that is entered on account of a round. -/
def entered? (old new : Option Entry) : Option Entry := old.filter (·.isDir) <|> new.filter (·.isDir)

/-- The tree of a side, if it is a directory. -/
def dirId (side : Option Entry) : Option ObjectId := (side.filter (·.isDir)).map Entry.id

theorem dirId_some (e : Entry) : dirId (some e) = if e.isDir then some e.id else none := by
  rw [dirId, Option.filter_some]
  split <;> rfl

/-- A run that adds to the changes found before, and does so whatever these are. -/
def Appending {α : Type} (run : List Change → Except TreeError α × List Change) : Prop :=
  ∀ changes, run changes = ((run []).1, changes ++ (run []).2)

variable {source : ObjectSource}
  {below : Frame → Cursor → Cursor → List Change → Except TreeError Unit × List Change}
  {f : Frame} {r : Round}

theorem diffVisit_of_unchanged (h : unchanged (r.side 0) (r.side 1) = true)
    (changes : List Change) : diffVisit source below f r changes = (.ok r.mask, changes) :=
  if_pos h

/-- Where no directory is entered, the change of the entry itself is all that is added. -/
theorem diffVisit_of_not_entered (h : unchanged (r.side 0) (r.side 1) = false)
    (hd : entered? (r.side 0) (r.side 1) = none) (changes : List Change) :
    diffVisit source below f r changes =
      (.ok r.mask, changes ++ (Change.between? f (r.side 0) (r.side 1)).toList) := by
  rw [entered?] at hd
  refine (if_neg (show ¬ unchanged (r.side 0) (r.side 1) = true by simp [h])).trans ?_
  simp only [Round.side] at hd ⊢
  rw [hd]

/-- Where a directory is entered, the changes below it come behind that of the entry itself. -/
theorem diffVisit_of_entered {dir : Entry} (h : unchanged (r.side 0) (r.side 1) = false)
    (hd : entered? (r.side 0) (r.side 1) = some dir) (changes : List Change) :
    diffVisit source below f r changes =
      match loadSides source (dirId (r.side 0)) (dirId (r.side 1)) with
      | .error e => (.error e, changes)
      | .ok (o, n) =>
        match below (f.child dir.name) o n changes with
        | (.error e, changes) => (.error e, changes)
        | (.ok (), changes) =>
          (.ok r.mask, changes ++ (Change.between? f (r.side 0) (r.side 1)).toList) := by
  rw [entered?] at hd
  refine (if_neg (show ¬ unchanged (r.side 0) (r.side 1) = true by simp [h])).trans ?_
  simp only [Round.side, dirId] at hd ⊢
  rw [hd]
  simp only
  cases loadSides source (((r.entries[0]?).join.filter (·.isDir)).map Entry.id)
      (((r.entries[1]?).join.filter (·.isDir)).map Entry.id) with
  | error e => rfl
  | ok sides => rfl

/-- A visit only adds to the changes if comparing the directories below does. -/
theorem diffVisit_appending (hb : ∀ f o n, Appending (below f o n)) :
    Appending (diffVisit source below f r) := by
  intro changes
  cases hs : unchanged (r.side 0) (r.side 1) with
  | true => simp only [diffVisit_of_unchanged hs, List.append_nil]
  | false =>
    cases hd : entered? (r.side 0) (r.side 1) with
    | none => simp only [diffVisit_of_not_entered hs hd, List.nil_append]
    | some dir =>
      simp only [diffVisit_of_entered hs hd]
      cases loadSides source (dirId (r.side 0)) (dirId (r.side 1)) with
      | error e => simp only [List.append_nil]
      | ok sides =>
        obtain ⟨o, n⟩ := sides
        simp only
        rw [hb (f.child dir.name) o n changes]
        cases below (f.child dir.name) o n [] with
        | mk answer out =>
          cases answer with
          | error e => rfl
          | ok _ => simp only [List.append_assoc]

/-- A walk only adds to the changes if its visitor does. -/
theorem walk_appending {visit : Visitor (List Change) TreeError}
    (hv : ∀ r, Appending (visit f r)) (cursors : List Cursor) :
    Appending (walk id f cursors visit) := by
  intro before
  have hrel : visit.Related (fun s t => s = before ++ t) f visit := by
    rintro r _ t rfl
    rw [hv r (before ++ t), hv r t, List.append_assoc]
    exact ⟨rfl, rfl⟩
  obtain ⟨hanswer, hleft⟩ := walk_related hrel id cursors 0 (t := [])
    (List.append_nil before).symm
  exact Prod.ext hanswer hleft

/-- A comparison adds changes behind those found before, which do not matter to it. -/
theorem diffBelow_appending (source : ObjectSource) (levels : Nat) (f : Frame) (o n : Cursor) :
    Appending (diffBelow source levels f o n) := by
  induction levels generalizing f o n with
  | zero =>
    intro changes
    simp only [diffBelow, List.append_nil]
  | succ levels ih => exact walk_appending (fun r => diffVisit_appending ih) [o, n]

/-- A visitor that only adds to the changes yields what it yields of the rounds one by one. -/
theorem play_eq_ok_iff {visit : Visitor (List Change) TreeError}
    (hv : ∀ r, Appending (visit f r)) (hf : f.options.showAllErrors = false) {rs : List Round}
    {before after : List Change} :
    play f visit rs none before = (.ok (), after) ↔
      (∀ r ∈ rs, ∃ used, (visit f r []).1 = .ok used) ∧
        after = before ++ rs.flatMap fun r => (visit f r []).2 := by
  induction rs generalizing before with
  | nil => simp [play, finish, eq_comm]
  | cons r rs ih =>
    rw [play, hv r before]
    cases hr : (visit f r []).1 with
    | error e => simp [hf, hr]
    | ok used =>
      simp only [ih, List.forall_mem_cons, hr, Except.ok.injEq, exists_eq', true_and,
        List.flatMap_cons, List.append_assoc]

/-- What a round of a difference does on its own. -/
def diffRound (source : ObjectSource) (levels : Nat) (f : Frame) (r : Round) :
    Except TreeError Nat × List Change :=
  diffVisit source (diffBelow source levels) f r []

/-- The rounds of a directory that are compared. -/
def comparedRounds (f : Frame) (o n : Cursor) : List Round :=
  offered f .interesting (levelRounds [o.pending, n.pending])

/-- A comparison consumes all of each round that it answers. -/
theorem diffVisit_consumes (f : Frame) (n : Nat) :
    (diffVisit source below).Consumes f n := by
  intro r changes used _ hused
  have hmask : used = r.mask := by
    cases hs : unchanged (r.side 0) (r.side 1) with
    | true =>
      rw [diffVisit_of_unchanged hs] at hused
      exact (Except.ok.inj hused).symm
    | false =>
      cases hd : entered? (r.side 0) (r.side 1) with
      | none =>
        rw [diffVisit_of_not_entered hs hd] at hused
        exact (Except.ok.inj hused).symm
      | some dir =>
        rw [diffVisit_of_entered hs hd] at hused
        cases hl : loadSides source (dirId (r.side 0)) (dirId (r.side 1)) with
        | error e => rw [hl] at hused; cases hused
        | ok sides =>
          rw [hl] at hused
          simp only at hused
          split at hused
          · cases hused
          · exact (Except.ok.inj hused).symm
  rw [hmask, Nat.and_self]

/-- A directory is compared without a failure if it is not too deep and each of its rounds is. It
yields what these yield. -/
theorem diffBelow_eq_ok_iff {levels : Nat} {o n : Cursor} (ho : o.WellFormed) (hn : n.WellFormed)
    (hf : f.options.showAllErrors = false) {changes : List Change} :
    diffBelow source (levels + 1) f o n [] = (.ok (), changes) ↔
      f.depth ≤ f.options.maxDepth ∧
        (∀ r ∈ comparedRounds f o n, ∃ used, (diffRound source levels f r).1 = .ok used) ∧
          changes = (comparedRounds f o n).flatMap fun r => (diffRound source levels f r).2 := by
  by_cases hd : f.depth ≤ f.options.maxDepth
  · have hw : ∀ c ∈ [o, n], c.WellFormed := by simp [ho, hn]
    rw [diffBelow, walk_eq_play hw (show 2 ≤ maxTrees by decide) hd (diffVisit_consumes f _),
      play_eq_ok_iff (fun r => diffVisit_appending (diffBelow_appending source levels)) hf]
    simp only [hd, true_and, List.nil_append]
    rfl
  · have hdeep : f.options.maxDepth < f.depth := Nat.not_le.mp hd
    simp [diffBelow, walk, maxTrees, hdeep, hd]

end GitRemote
