import GitRemote.Proofs.Fetch.Complete
import GitRemote.Proofs.Http.Client
import Mathlib.Data.List.Chain

/-!
# How deep trees are nested

A fetch visits every object once, on a chain of as few links as possible, and looks then at how many
trees it is nested in. So after a fetch that ends well every tree is nested less deep than the limit on
such a chain, and a fetch that the limit ends has found a tree that is not. On longer chains a tree may
be nested as deep as one likes.
-/

namespace GitRemote

/-! ### Chains of links -/

/-- How many trees the targets of an object are nested in if it is nested in `depth` trees itself. -/
def Object.depthBelow (o : Object) (depth : Nat) : Nat := if o.kind = .tree then depth + 1 else 0

namespace LooseDir

/-- The ids that some ids reach over a number of links, at the end of which are `depth` entries of
trees. -/
inductive ReachesOver (dir : LooseDir) (roots : List ObjectId) : Nat → Nat → ObjectId → Prop
  | root {id : ObjectId} (h : id ∈ roots) : ReachesOver dir roots 0 0 id
  | link {links depth : Nat} {id id' : ObjectId} {o : Object}
      (h : ReachesOver dir roots links depth id) (hread : dir.read id = .ok (some o))
      (hlink : o.LinksTo id') : ReachesOver dir roots (links + 1) (o.depthBelow depth) id'

/-- An id is reached over this number of links, nested in `depth` trees, and over no fewer links. -/
def Nearest (dir : LooseDir) (roots : List ObjectId) (links depth : Nat) (id : ObjectId) : Prop :=
  dir.ReachesOver roots links depth id ∧
    ∀ links' depth', dir.ReachesOver roots links' depth' id → links ≤ links'

/-- An id that is read as a tree. -/
def HoldsTree (dir : LooseDir) (id : ObjectId) : Prop :=
  ∃ o, dir.read id = .ok (some o) ∧ o.kind = .tree

/-- A tree has an entry with an id, which names no commit. -/
def HasEntry (dir : LooseDir) (id id' : ObjectId) : Prop :=
  ∃ o, dir.read id = .ok (some o) ∧ o.kind = .tree ∧ o.LinksTo id'

/-- An id that some ids reach without being an entry: one of them, or one that a commit or a tag links
to that they reach. -/
def Starts (dir : LooseDir) (roots : List ObjectId) (id : ObjectId) : Prop :=
  id ∈ roots ∨ ∃ holder o, dir.Reaches roots holder ∧ dir.read holder = .ok (some o) ∧
    (o.kind = .commit ∨ o.kind = .tag) ∧ o.LinksTo id

/-- Trees inside one another: the first is no entry of another one on the way, and each further one is
an entry of the one before. -/
structure TreeChain (dir : LooseDir) (roots : List ObjectId) (first : ObjectId)
    (inner : List ObjectId) : Prop where
  starts : dir.Starts roots first
  trees : ∀ id ∈ first :: inner, dir.HoldsTree id
  entries : (first :: inner).IsChain dir.HasEntry

variable {dir : LooseDir} {roots inner : List ObjectId} {links depth : Nat} {id first : ObjectId}

/-- What is reached over some links is still so when files are added. -/
theorem ReachesOver.append (h : dir.ReachesOver roots links depth id)
    (new : List (ObjectId × Bytes)) :
    (⟨dir.files ++ new⟩ : LooseDir).ReachesOver roots links depth id := by
  induction h with
  | root h => exact .root h
  | link _ hread hlink ih => exact .link ih (read_append hread new) hlink

/-- What is reached over some links is reached. -/
theorem ReachesOver.reaches (h : dir.ReachesOver roots links depth id) : dir.Reaches roots id := by
  induction h with
  | root h => exact .root h
  | link _ hread hlink ih => exact .link ih hread hlink

/-- What is reached is reached over some number of links. -/
theorem Reaches.over (h : dir.Reaches roots id) :
    ∃ links depth, dir.ReachesOver roots links depth id := by
  induction h with
  | root h => exact ⟨0, 0, .root h⟩
  | link _ hread hlink ih =>
    obtain ⟨links, depth, hover⟩ := ih
    exact ⟨_, _, .link hover hread hlink⟩

/-- What is reached is reached over a least number of links. -/
theorem Reaches.exists_least (h : dir.Reaches roots id) :
    ∃ links, (∃ depth, dir.ReachesOver roots links depth id) ∧
      ∀ links' depth', dir.ReachesOver roots links' depth' id → links ≤ links' := by
  classical
  have hsome : ∃ links depth, dir.ReachesOver roots links depth id := h.over
  exact ⟨Nat.find hsome, Nat.find_spec hsome, fun links' depth' h' => Nat.find_min' hsome ⟨depth', h'⟩⟩

/-- What is no entry of a tree on the way is reached at no depth. -/
theorem Starts.over (h : dir.Starts roots id) : ∃ links, dir.ReachesOver roots links 0 id := by
  rcases h with hroot | ⟨holder, o, hreaches, hread, hkind, hlink⟩
  · exact ⟨0, .root hroot⟩
  · obtain ⟨links, depth, hover⟩ := hreaches.over
    have hzero : o.depthBelow depth = 0 := by
      rcases hkind with hkind | hkind <;> simp [Object.depthBelow, hkind]
    exact ⟨links + 1, hzero ▸ .link hover hread hlink⟩

/-- From entry to entry one is nested in one more tree each time. -/
theorem ReachesOver.along (h : dir.ReachesOver roots links depth first)
    (hentries : (first :: inner).IsChain dir.HasEntry) :
    ∃ links, dir.ReachesOver roots links (depth + inner.length)
      ((first :: inner).getLast (by simp)) := by
  induction inner generalizing depth first links with
  | nil => exact ⟨links, h⟩
  | cons next inner ih =>
    rw [List.isChain_cons_cons] at hentries
    obtain ⟨⟨o, hread, hkind, hlink⟩, hrest⟩ := hentries
    have hnext := h.link hread hlink
    rw [Object.depthBelow, if_pos hkind] at hnext
    obtain ⟨links', hlast⟩ := ih hnext hrest
    refine ⟨links', ?_⟩
    rw [List.getLast_cons (by simp), List.length_cons, ← Nat.add_assoc, Nat.add_right_comm]
    exact hlast

/-- The last tree of a chain is nested in all that come before it. -/
theorem TreeChain.over (h : dir.TreeChain roots first inner) :
    ∃ links, dir.ReachesOver roots links inner.length ((first :: inner).getLast (by simp)) := by
  obtain ⟨links, hstart⟩ := h.starts.over
  simpa only [Nat.zero_add] using hstart.along h.entries

/-- The front of a chain is a chain. -/
theorem TreeChain.take (h : dir.TreeChain roots first inner) (n : Nat) :
    dir.TreeChain roots first (inner.take n) := by
  refine ⟨h.starts, fun id hid => h.trees id ?_, ?_⟩
  · exact List.cons_subset_cons first (List.take_subset n inner) hid
  · have hfront := h.entries.take (n + 1)
    rwa [List.take_succ_cons] at hfront

/-- A tree that is nested in some trees is the last of a chain of them. -/
theorem ReachesOver.exists_treeChain (h : dir.ReachesOver roots links depth id)
    (htree : dir.HoldsTree id) :
    ∃ first inner, dir.TreeChain roots first inner ∧ inner.length = depth ∧
      (first :: inner).getLast (by simp) = id := by
  induction h with
  | @root id h =>
    exact ⟨id, [], ⟨.inl h, by simpa using htree, .singleton _⟩, rfl, rfl⟩
  | @link links depth id id' o h hread hlink ih =>
    by_cases hkind : o.kind = .tree
    · obtain ⟨first, inner, hchain, hlength, hlast⟩ := ih ⟨o, hread, hkind⟩
      refine ⟨first, inner ++ [id'], ⟨hchain.starts, ?_, ?_⟩, ?_, ?_⟩
      · intro x hx
        rw [← List.cons_append, List.mem_append] at hx
        rcases hx with hx | hx
        · exact hchain.trees x hx
        · rw [List.mem_singleton.mp hx]
          exact htree
      · rw [← List.cons_append, List.isChain_append]
        refine ⟨hchain.entries, .singleton _, fun x hx y hy => ?_⟩
        rw [List.getLast?_eq_some_getLast (by simp), hlast] at hx
        cases hx
        cases hy
        exact ⟨o, hread, hkind, hlink⟩
      · rw [List.length_append, hlength, Object.depthBelow, if_pos hkind, List.length_singleton]
      · simp
    · refine ⟨id', [], ⟨.inr ?_, by simpa using htree, .singleton _⟩, ?_, rfl⟩
      · refine ⟨id, o, h.reaches, hread, ?_, hlink⟩
        cases hk : o.kind with
        | commit => exact .inl rfl
        | tag => exact .inr rfl
        | tree => exact absurd hk hkind
        | blob =>
          rw [Object.LinksTo, hk] at hlink
          exact hlink.elim
      · rw [Object.depthBelow, if_neg hkind, List.length_nil]

end LooseDir

/-! ### What can end a fetch -/

/-- The depth of an object is looked at only if it is a tree, and then its targets are nested in one tree
more. -/
theorem Object.depth_of_mem_targets {o : Object} {limit depth : Nat} {links : List Target}
    (h : o.targets limit depth = .ok links) :
    (o.kind = .tree → depth < limit) ∧ ∀ t ∈ links, t.depth = o.depthBelow depth := by
  have hheader {r : Except StorageError (List ObjectId)}
      (h : (liftStorage r).map (·.map (⟨·, 0⟩ : ObjectId → Target)) = .ok links) :
      ∀ t ∈ links, t.depth = 0 := by
    cases r with
    | error e => cases h
    | ok ids =>
      cases h
      intro t ht
      obtain ⟨id, -, rfl⟩ := List.mem_map.mp ht
      rfl
  rw [targets] at h
  rw [depthBelow]
  cases hkind : o.kind with
  | commit | tag =>
    rw [hkind] at h
    exact ⟨by rintro ⟨⟩, hheader h⟩
  | blob =>
    rw [hkind] at h
    cases h
    exact ⟨by rintro ⟨⟩, by simp⟩
  | tree =>
    rw [hkind] at h
    dsimp only at h
    split at h
    · cases h
    · next hdepth =>
      split at h
      · cases h
      · cases h
        refine ⟨fun _ => Nat.lt_of_not_le hdepth, fun t ht => ?_⟩
        obtain ⟨e, -, rfl⟩ := List.mem_map.mp ht
        rfl

/-- Only a tree that is nested too deep is refused for that. -/
theorem Object.targets_eq_tooDeep {o : Object} {limit depth : Nat}
    (h : o.targets limit depth = .error (.failed .treeTooDeep)) :
    o.kind = .tree ∧ limit ≤ depth := by
  have hheader {r : Except StorageError (List ObjectId)} :
      (liftStorage r).map (·.map (⟨·, 0⟩ : ObjectId → Target)) ≠ .error (.failed .treeTooDeep) := by
    cases r <;> nofun
  rw [targets] at h
  cases hkind : o.kind with
  | commit | tag =>
    rw [hkind] at h
    exact absurd h hheader
  | blob =>
    rw [hkind] at h
    cases h
  | tree =>
    rw [hkind] at h
    dsimp only at h
    split at h
    · next hdepth => exact ⟨rfl, hdepth⟩
    · split at h <;> cases h

namespace Fetch

/-- Getting an object does not fail for how deep trees are nested. -/
theorem object_ne_tooDeep {base : String} {f f' : Fetch} {id : ObjectId} :
    f.object base id ≠ (.error (.failed .treeTooDeep), f') := by
  intro h
  rw [object] at h
  split at h
  · cases h
  · cases h
  · rw [download] at h
    dsimp only at h
    split at h
    · next hsend =>
      cases h
      exact Http.Client.send_ne_failed hsend _ rfl
    next response client hsend =>
      split at h
      · split at h
        · cases h
        · cases hdecode : Object.ofLoose response.body <;> rw [hdecode] at h <;> cases h
      · split at h <;> cases h

/-! ### Visits in the order of links -/

variable {base : String} {limit links depth : Nat} {start f : Fetch} {dir : LooseDir}
  {roots : List ObjectId} {visits waiting rest : List (Nat × Target)} {p : Nat × Target}
  {new : List (ObjectId × Bytes)} {id : ObjectId} {o : Object} {found : List Target}

/-- The ids of some targets. -/
def idsOf (targets : List (Nat × Target)) : List ObjectId := targets.map (·.2.id)

/-- An id was visited or waits for it, over no more than this number of links. -/
def Within (visits waiting : List (Nat × Target)) (links : Nat) (id : ObjectId) : Prop :=
  ∃ p ∈ visits ++ waiting, p.2.id = id ∧ p.1 ≤ links

/-- The state between two visits, where each target is marked with the number of links that it was found
over. Those that wait are in the order of their marks, which are no less than those of the visits and
differ by one at most. -/
structure Ranked (limit : Nat) (dir : LooseDir) (roots : List ObjectId)
    (visits waiting : List (Nat × Target)) : Prop where
  sorted : waiting.Pairwise (·.1 ≤ ·.1)
  span : ∀ p ∈ waiting, ∀ q ∈ waiting, q.1 ≤ p.1 + 1
  behind : ∀ p ∈ visits, ∀ q ∈ waiting, p.1 ≤ q.1
  reached : ∀ p ∈ visits ++ waiting, dir.ReachesOver roots p.1 p.2.depth p.2.id
  shallow : ∀ p ∈ waiting, p.2.depth ≤ limit
  wanted : ∀ id ∈ roots, Within visits waiting 0 id
  closed : ∀ p ∈ visits, ∃ o, dir.read p.2.id = .ok (some o) ∧
    (o.kind = .tree → p.2.depth < limit) ∧ ∀ id, o.LinksTo id → Within visits waiting (p.1 + 1) id

/-- What was come to over few links was come to over more, and stays so later on. -/
theorem Within.mono {visits' waiting' : List (Nat × Target)} {links' : Nat}
    (h : Within visits waiting links id) (hle : links ≤ links')
    (hsub : visits ++ waiting ⊆ visits' ++ waiting') : Within visits' waiting' links' id := by
  obtain ⟨p, hp, hid, hlinks⟩ := h
  exact ⟨p, hsub hp, hid, Nat.le_trans hlinks hle⟩

/-- The ids that are wanted wait over no links at no depth. -/
theorem ranked_start (limit : Nat) (dir : LooseDir) (roots : List ObjectId) :
    Ranked limit dir roots [] (roots.map fun id => (0, ⟨id, 0⟩)) := by
  have hwaiting : ∀ p ∈ roots.map fun id => ((0, ⟨id, 0⟩) : Nat × Target),
      ∃ id ∈ roots, p = (0, ⟨id, 0⟩) := by
    intro p hp
    obtain ⟨id, hid, rfl⟩ := List.mem_map.mp hp
    exact ⟨id, hid, rfl⟩
  refine ⟨?_, ?_, by simp, ?_, ?_, ?_, by simp⟩
  · rw [List.pairwise_map]
    exact List.pairwise_of_forall fun _ _ => Nat.le_refl 0
  · intro p hp q hq
    obtain ⟨id, -, rfl⟩ := hwaiting q hq
    exact Nat.zero_le _
  · intro p hp
    obtain ⟨id, hid, rfl⟩ := hwaiting p hp
    exact .root hid
  · intro p hp
    obtain ⟨id, hid, rfl⟩ := hwaiting p hp
    exact Nat.zero_le _
  · intro id hid
    exact ⟨(0, ⟨id, 0⟩), List.mem_map_of_mem hid, rfl, Nat.le_refl 0⟩

namespace Ranked

/-- What is within reach was visited there, or waits there and was not visited. -/
theorem visited_or_waits (h : Ranked limit dir roots visits waiting)
    (hwithin : Within visits waiting links id) :
    (∃ p ∈ visits, p.2.id = id ∧ p.1 ≤ links) ∨
      ∃ q ∈ waiting, q.2.id ∉ idsOf visits ∧ q.1 ≤ links := by
  obtain ⟨p, hp, rfl, hlinks⟩ := hwithin
  rcases List.mem_append.mp hp with hp | hp
  · exact .inl ⟨p, hp, rfl, hlinks⟩
  · by_cases hseen : p.2.id ∈ idsOf visits
    · obtain ⟨v, hv, hid⟩ := List.mem_map.mp hseen
      exact .inl ⟨v, hv, hid, Nat.le_trans (h.behind v hv p hp) hlinks⟩
    · exact .inr ⟨p, hp, hseen, hlinks⟩

/-- What is reached over some links was visited over no more, or a target waits that has no more. -/
theorem of_reachesOver (h : Ranked limit dir roots visits waiting)
    (hover : dir.ReachesOver roots links depth id) :
    (∃ p ∈ visits, p.2.id = id ∧ p.1 ≤ links) ∨
      ∃ q ∈ waiting, q.2.id ∉ idsOf visits ∧ q.1 ≤ links := by
  induction hover with
  | root hroot => exact h.visited_or_waits (h.wanted _ hroot)
  | @link links depth id id' o _ hread hlink ih =>
    rcases ih with ⟨p, hp, rfl, hle⟩ | ⟨q, hq, hseen, hle⟩
    · obtain ⟨o', hread', -, hclosed⟩ := h.closed p hp
      rw [hread] at hread'
      cases hread'
      exact h.visited_or_waits
        ((hclosed id' hlink).mono (Nat.succ_le_succ hle) (List.Subset.refl _))
    · exact .inr ⟨q, hq, hseen, Nat.le_succ_of_le hle⟩

/-- A target that waits in front and was not visited yet is reached over no fewer links. -/
theorem nearest_front (h : Ranked limit dir roots visits (p :: rest))
    (hfresh : p.2.id ∉ idsOf visits) : dir.Nearest roots p.1 p.2.depth p.2.id := by
  refine ⟨h.reached p (by simp), fun links depth hover => ?_⟩
  rcases h.of_reachesOver hover with ⟨v, hv, hid, -⟩ | ⟨q, hq, -, hle⟩
  · exact absurd (List.mem_map.mpr ⟨v, hv, hid⟩) hfresh
  · rcases List.mem_cons.mp hq with rfl | hq
    · exact hle
    · exact Nat.le_trans ((List.pairwise_cons.mp h.sorted).1 q hq) hle

/-- Where nothing waits, whatever is reached was visited over the fewest links. -/
theorem exists_nearest (h : Ranked limit dir roots visits []) (hreaches : dir.Reaches roots id) :
    ∃ p ∈ visits, p.2.id = id ∧ dir.Nearest roots p.1 p.2.depth id := by
  obtain ⟨links, ⟨depth, hover⟩, hleast⟩ := hreaches.exists_least
  rcases h.of_reachesOver hover with ⟨p, hp, rfl, hle⟩ | ⟨q, hq, -⟩
  · refine ⟨p, hp, rfl, h.reached p (by simp [hp]), fun links' depth' h' => ?_⟩
    exact Nat.le_trans hle (hleast links' depth' h')
  · cases hq

/-- Targets in front that were visited can be skipped. -/
theorem dropWhile (h : Ranked limit dir roots visits waiting) :
    Ranked limit dir roots visits (waiting.dropWhile fun p => (idsOf visits).contains p.2.id) := by
  have hsub := List.dropWhile_sublist (l := waiting) fun p => (idsOf visits).contains p.2.id
  have hwithin {links : Nat} {id : ObjectId} (hid : Within visits waiting links id) :
      Within visits (waiting.dropWhile fun p => (idsOf visits).contains p.2.id) links id := by
    obtain ⟨p, hp, rfl, hlinks⟩ := hid
    rw [← List.takeWhile_append_dropWhile (p := fun p : Nat × Target =>
      (idsOf visits).contains p.2.id) (l := waiting), List.mem_append, List.mem_append] at hp
    rcases hp with hp | hp | hp
    · exact ⟨p, List.mem_append_left _ hp, rfl, hlinks⟩
    · have hseen : p.2.id ∈ idsOf visits := by simpa using List.mem_takeWhile_imp hp
      obtain ⟨v, hv, hid⟩ := List.mem_map.mp hseen
      refine ⟨v, List.mem_append_left _ hv, hid, Nat.le_trans (h.behind v hv p ?_) hlinks⟩
      exact (List.takeWhile_sublist _).subset hp
    · exact ⟨p, List.mem_append_right _ hp, rfl, hlinks⟩
  refine ⟨h.sorted.sublist hsub, fun p hp q hq => h.span p (hsub.subset hp) q (hsub.subset hq),
    fun p hp q hq => h.behind p hp q (hsub.subset hq), fun p hp => ?_,
    fun p hp => h.shallow p (hsub.subset hp), fun id hid => hwithin (h.wanted id hid),
    fun p hp => ?_⟩
  · rcases List.mem_append.mp hp with hp | hp
    · exact h.reached p (List.mem_append_left _ hp)
    · exact h.reached p (List.mem_append_right _ (hsub.subset hp))
  · obtain ⟨o, hread, htree, hclosed⟩ := h.closed p hp
    exact ⟨o, hread, htree, fun id hlink => hwithin (hclosed id hlink)⟩

/-- Files that are added change nothing. -/
theorem append (h : Ranked limit dir roots visits waiting) (new : List (ObjectId × Bytes)) :
    Ranked limit ⟨dir.files ++ new⟩ roots visits waiting := by
  refine { h with reached := fun p hp => (h.reached p hp).append new, closed := fun p hp => ?_ }
  obtain ⟨o, hread, hclosed⟩ := h.closed p hp
  exact ⟨o, LooseDir.read_append hread new, hclosed⟩

/-- One visit: what it finds waits behind all others. -/
theorem visit (h : Ranked limit dir roots visits (p :: rest))
    (hread : dir.read p.2.id = .ok (some o)) (hfound : o.targets limit p.2.depth = .ok found) :
    Ranked limit dir roots (p :: visits) (rest ++ found.map fun t => (p.1 + 1, t)) := by
  obtain ⟨hshallow, hdepth⟩ := Object.depth_of_mem_targets hfound
  obtain ⟨hfront, hsorted⟩ := List.pairwise_cons.mp h.sorted
  have hmark : ∀ q ∈ rest ++ found.map fun t => (p.1 + 1, t), p.1 ≤ q.1 ∧ q.1 ≤ p.1 + 1 := by
    intro q hq
    rcases List.mem_append.mp hq with hq | hq
    · exact ⟨hfront q hq, h.span p (by simp) q (by simp [hq])⟩
    · obtain ⟨t, -, rfl⟩ := List.mem_map.mp hq
      exact ⟨Nat.le_succ _, Nat.le_refl _⟩
  have hsub : visits ++ p :: rest ⊆ (p :: visits) ++ (rest ++ found.map fun t => (p.1 + 1, t)) := by
    intro q hq
    simp only [List.mem_append, List.mem_cons] at hq ⊢
    tauto
  refine ⟨?_, ?_, ?_, ?_, ?_, fun id hid => (h.wanted id hid).mono (Nat.le_refl 0) hsub, ?_⟩
  · rw [List.pairwise_append, List.pairwise_map]
    refine ⟨hsorted, List.pairwise_of_forall fun _ _ => Nat.le_refl _, fun q hq q' hq' => ?_⟩
    obtain ⟨t, -, rfl⟩ := List.mem_map.mp hq'
    exact h.span p (by simp) q (by simp [hq])
  · intro a ha b hb
    have hlow := (hmark a ha).1
    have hhigh := (hmark b hb).2
    omega
  · intro v hv q hq
    rcases List.mem_cons.mp hv with rfl | hv
    · exact (hmark q hq).1
    · exact Nat.le_trans (h.behind v hv p (by simp)) (hmark q hq).1
  · intro q hq
    have hold : q ∈ visits ++ p :: rest ∨ q ∈ found.map fun t => (p.1 + 1, t) := by
      simp only [List.mem_append, List.mem_cons] at hq ⊢
      tauto
    rcases hold with hold | hq
    · exact h.reached q hold
    · obtain ⟨t, ht, rfl⟩ := List.mem_map.mp hq
      have hlink := (Object.mem_targets hfound t.id).mp (List.mem_map_of_mem ht)
      have hover := (h.reached p (by simp)).link hread hlink
      rwa [← hdepth t ht] at hover
  · intro q hq
    rcases List.mem_append.mp hq with hq | hq
    · exact h.shallow q (by simp [hq])
    · obtain ⟨t, ht, rfl⟩ := List.mem_map.mp hq
      show t.depth ≤ limit
      rw [hdepth t ht, Object.depthBelow]
      split
      · next hkind => exact hshallow hkind
      · exact Nat.zero_le _
  · intro v hv
    rcases List.mem_cons.mp hv with rfl | hv
    · refine ⟨o, hread, hshallow, fun id hlink => ?_⟩
      obtain ⟨t, ht, rfl⟩ := List.mem_map.mp ((Object.mem_targets hfound id).mpr hlink)
      exact ⟨(v.1 + 1, t), by simp [ht], rfl, Nat.le_refl _⟩
    · obtain ⟨o', hread', hshallow', hclosed⟩ := h.closed v hv
      exact ⟨o', hread', hshallow', fun id hlink => (hclosed id hlink).mono (Nat.le_refl _) hsub⟩

end Ranked

/-- What a fetch has found when it ends: if it ends well, nothing waits; if the limit ends it, a tree waits in
front that is nested too deep. -/
structure Measured (limit : Nat) (roots : List ObjectId) (done : Except RemoteError Unit × Fetch) :
    Prop where
  complete : done.1 = .ok () → ∃ visits, Ranked limit done.2.dir roots visits []
  refused : done.1 = .error (.failed .treeTooDeep) →
    ∃ visits p rest, Ranked limit done.2.dir roots visits (p :: rest) ∧ p.2.id ∉ idsOf visits ∧
      done.2.dir.HoldsTree p.2.id ∧ limit ≤ p.2.depth

/-- Each visit keeps the order of the marks, so a run that ends has visited all, and one that is
refused stopped at a tree as deep as the limit. -/
theorem measured_visitAll {fuel : Nat}
    (h : Visiting base start roots (idsOf visits) (waiting.map Prod.snd) new f)
    (hranked : Ranked limit f.dir roots visits waiting)
    (hfuel : start.dir.files.length + start.client.server.responses.length <
      fuel + (idsOf visits).length) :
    Measured limit roots
      (visitAll base limit fuel (idsOf visits) (waiting.map Prod.snd) f) := by
  induction fuel generalizing visits waiting f new with
  | zero =>
    -- The fuel covers all that can be visited.
    have hle := h.length_seen_le
    omega
  | succ fuel ih =>
    have hdrop : (waiting.map Prod.snd).dropWhile (fun t => (idsOf visits).contains t.id) =
        (waiting.dropWhile fun p => (idsOf visits).contains p.2.id).map Prod.snd :=
      List.dropWhile_map ..
    have hleft := hranked.dropWhile
    have hfront := List.head?_dropWhile_not
      (fun p : Nat × Target => (idsOf visits).contains p.2.id) waiting
    rw [visitAll, hdrop]
    cases hnext : waiting.dropWhile fun p => (idsOf visits).contains p.2.id with
    | nil =>
      rw [hnext] at hleft
      exact ⟨fun _ => ⟨visits, hleft⟩, by rintro ⟨⟩⟩
    | cons p rest =>
      rw [hnext] at hleft hfront
      rw [hnext, List.map_cons] at hdrop
      have hfresh : p.2.id ∉ idsOf visits := by simpa using hfront
      simp only [List.map_cons]
      split
      · next e f' hobject =>
        refine ⟨by rintro ⟨⟩, fun he => ?_⟩
        cases he
        exact absurd hobject object_ne_tooDeep
      · next o f' hobject =>
        obtain ⟨more, -, hdir, hread, -⟩ := h.downloaded.object hobject
        have hgrown := hdir ▸ hleft.append more
        split
        · next e hfound =>
          refine ⟨by rintro ⟨⟩, fun he => ?_⟩
          cases he
          obtain ⟨hkind, hdeep⟩ := Object.targets_eq_tooDeep hfound
          exact ⟨visits, p, rest, hgrown, hfresh, ⟨o, hread, hkind⟩, hdeep⟩
        · next found hfound =>
          obtain ⟨more', hvisiting⟩ := h.visit hdrop hobject hfound
          have hqueue : rest.map Prod.snd ++ found =
              (rest ++ found.map fun t => (p.1 + 1, t)).map Prod.snd := by
            simp [Function.comp_def]
          have hseen : p.2.id :: idsOf visits = idsOf (p :: visits) := rfl
          rw [hqueue, hseen] at hvisiting ⊢
          refine ih hvisiting (hgrown.visit hread hfound) ?_
          rw [idsOf, List.map_cons, List.length_cons, ← idsOf]
          omega

/-- A whole run is measured, since it starts from the ids that are wanted. -/
theorem measured_run (base : String) (limit : Nat) (roots : List ObjectId) (f : Fetch) :
    Measured limit roots (f.run base limit roots) := by
  have hqueue : (roots.map fun id => ((0, ⟨id, 0⟩) : Nat × Target)).map Prod.snd =
      roots.map (⟨·, 0⟩) := by
    simp [Function.comp_def]
  have hvisiting := visiting_start base f roots
  have hseen : ([] : List ObjectId) = idsOf [] := rfl
  rw [← hqueue, hseen] at hvisiting
  have h := measured_visitAll hvisiting (ranked_start limit f.dir roots) (Nat.lt_succ_self _)
  rwa [hqueue] at h

/-- The limit is kept on chains of the fewest links only. After a fetch that ends well, each tree that is
reached is nested less deep than the limit on such a chain, and trees are inside one another as deep as
the limit or deeper exactly if there is a tree that is nested so deep on one chain and less deep on one
of the fewest links. A fetch that the limit ends has found trees that are nested as deep as the limit, on
a chain of the fewest links. -/
theorem nesting_is_limited_on_nearest_chains (base : String) (limit : Nat) (ids : List ObjectId)
    (f : Fetch) :
    ((f.run base limit ids).1 = .ok () →
      (∀ id, (f.run base limit ids).2.dir.Reaches ids id →
        (f.run base limit ids).2.dir.HoldsTree id →
          ∃ links depth, (f.run base limit ids).2.dir.Nearest ids links depth id ∧ depth < limit) ∧
      ((∃ first inner, (f.run base limit ids).2.dir.TreeChain ids first inner ∧
          limit ≤ inner.length) ↔
        ∃ id links links' depth, (f.run base limit ids).2.dir.HoldsTree id ∧
          (f.run base limit ids).2.dir.ReachesOver ids links limit id ∧
          (f.run base limit ids).2.dir.Nearest ids links' depth id ∧ depth < limit)) ∧
    ((f.run base limit ids).1 = .error (.failed .treeTooDeep) →
      ∃ first inner links, (f.run base limit ids).2.dir.TreeChain ids first inner ∧
        inner.length = limit ∧
        (f.run base limit ids).2.dir.Nearest ids links limit
          ((first :: inner).getLast (List.cons_ne_nil _ _))) := by
  have hmeasured := measured_run base limit ids f
  generalize f.run base limit ids = done at hmeasured ⊢
  refine ⟨fun hended => ?_, fun hended => ?_⟩
  · obtain ⟨visits, hranked⟩ := hmeasured.complete hended
    have hshallow (id : ObjectId) (hreaches : done.2.dir.Reaches ids id)
        (htree : done.2.dir.HoldsTree id) :
        ∃ links depth, done.2.dir.Nearest ids links depth id ∧ depth < limit := by
      obtain ⟨p, hp, rfl, hnearest⟩ := hranked.exists_nearest hreaches
      obtain ⟨o, hread, hkind, -⟩ := hranked.closed p hp
      obtain ⟨o', hread', hkind'⟩ := htree
      rw [hread] at hread'
      cases hread'
      exact ⟨p.1, p.2.depth, hnearest, hkind hkind'⟩
    refine ⟨hshallow, ?_, ?_⟩
    · rintro ⟨first, inner, hchain, hdeep⟩
      have hcut := hchain.take limit
      obtain ⟨links, hover⟩ := hcut.over
      rw [List.length_take, Nat.min_eq_left hdeep] at hover
      have htree := hcut.trees _ (List.getLast_mem (List.cons_ne_nil _ _))
      obtain ⟨links', depth, hnearest, hlt⟩ := hshallow _ hover.reaches htree
      exact ⟨_, links, links', depth, htree, hover, hnearest, hlt⟩
    · rintro ⟨id, links, -, -, htree, hover, -⟩
      obtain ⟨first, inner, hchain, hlength, -⟩ := hover.exists_treeChain htree
      exact ⟨first, inner, hchain, Nat.le_of_eq hlength.symm⟩
  · obtain ⟨visits, p, rest, hranked, hfresh, htree, hdeep⟩ := hmeasured.refused hended
    have hnearest := hranked.nearest_front hfresh
    obtain rfl := Nat.le_antisymm (hranked.shallow p (by simp)) hdeep
    obtain ⟨first, inner, hchain, hlength, hlast⟩ := hnearest.1.exists_treeChain htree
    exact ⟨first, inner, p.1, hchain, hlength, hlast ▸ hnearest⟩

end Fetch

/-- A tree without entries. -/
def innerTree : Object := .tree []

/-- A tree with that tree as its entry. -/
def outerTree : Object := .tree (Entry.encode ⟨modeTree, bytesOf "d", innerTree.id⟩)

/-- A tag of the tree without entries. -/
def innerTag : Object := ⟨.tag, Object.headerLine "object" innerTree.id.hexBytes⟩

/-- A directory with all three. -/
def sharedDir : LooseDir := ⟨[innerTree, outerTree, innerTag].map fun o => (o.id, o.toLoose Zlib.stored)⟩

/-- A fetch into that directory, which has nothing to download. -/
def sharedFetch : Fetch := { client := { server := {} }, dir := sharedDir }

theorem holdsTree_innerTree : sharedDir.HoldsTree innerTree.id :=
  ⟨innerTree, by decide +kernel, rfl⟩

/-- The two trees are inside one another wherever the outer one is wanted. -/
theorem treeChain_outerTree {roots : List ObjectId} (h : outerTree.id ∈ roots) :
    sharedDir.TreeChain roots outerTree.id [innerTree.id] := by
  have hread : sharedDir.read outerTree.id = .ok (some outerTree) := by decide +kernel
  have hfound : outerTree.targets 1 0 = .ok [⟨innerTree.id, 1⟩] := by decide +kernel
  have hlink := (Object.mem_targets hfound innerTree.id).mp List.mem_cons_self
  refine ⟨.inl h, ?_, ?_⟩
  · simp only [List.forall_mem_cons, List.not_mem_nil, false_implies, implies_true, and_true]
    exact ⟨⟨outerTree, hread, rfl⟩, holdsTree_innerTree⟩
  · rw [List.isChain_pair]
    exact ⟨outerTree, hread, rfl, hlink⟩

/-- Directories with the same files are the same. -/
theorem LooseDir.eq_of_files {dir dir' : LooseDir} (h : dir.files = dir'.files) : dir = dir' :=
  congrArg LooseDir.mk h

/-- Where the tag is wanted first, its tree is visited before it is looked at as an entry. -/
theorem run_tag_first :
    (sharedFetch.run "" 1 [innerTag.id, outerTree.id]).1 = .ok () ∧
      (sharedFetch.run "" 1 [innerTag.id, outerTree.id]).2.dir = sharedDir := by
  have hrun : (sharedFetch.run "" 1 [innerTag.id, outerTree.id]).1 = .ok () ∧
      (sharedFetch.run "" 1 [innerTag.id, outerTree.id]).2.dir.files = sharedDir.files := by
    decide +kernel
  exact ⟨hrun.1, LooseDir.eq_of_files hrun.2⟩

theorem run_tag_last :
    (sharedFetch.run "" 1 [outerTree.id, innerTag.id]).1 = .error (.failed .treeTooDeep) ∧
      (sharedFetch.run "" 1 [outerTree.id, innerTag.id]).2.dir = sharedDir := by
  have hrun : (sharedFetch.run "" 1 [outerTree.id, innerTag.id]).1 = .error (.failed .treeTooDeep) ∧
      (sharedFetch.run "" 1 [outerTree.id, innerTag.id]).2.dir.files = sharedDir.files := by
    decide +kernel
  exact ⟨hrun.1, LooseDir.eq_of_files hrun.2⟩

/-- With the tag first, the tree is found nested in none on one of the fewest links, and a chain as long as
the limit is let through; with the tag last, the fetch finds that chain. -/
theorem nesting_is_limited_on_nearest_chains_shared :
    (sharedFetch.run "" 1 [innerTag.id, outerTree.id]).1 = .ok () ∧
    (∃ links depth,
      sharedDir.Nearest [innerTag.id, outerTree.id] links depth innerTree.id ∧ depth < 1) ∧
    (∃ id links links' depth, sharedDir.HoldsTree id ∧
      sharedDir.ReachesOver [innerTag.id, outerTree.id] links 1 id ∧
      sharedDir.Nearest [innerTag.id, outerTree.id] links' depth id ∧ depth < 1) ∧
    (sharedFetch.run "" 1 [outerTree.id, innerTag.id]).1 = .error (.failed .treeTooDeep) ∧
    ∃ first inner links, sharedDir.TreeChain [outerTree.id, innerTag.id] first inner ∧
      inner.length = 1 ∧ sharedDir.Nearest [outerTree.id, innerTag.id] links 1
        ((first :: inner).getLast (List.cons_ne_nil _ _)) := by
  obtain ⟨hok, hdir⟩ := run_tag_first
  obtain ⟨hrefused, hdir'⟩ := run_tag_last
  have hfirst := (Fetch.nesting_is_limited_on_nearest_chains "" 1 [innerTag.id, outerTree.id]
    sharedFetch).1 hok
  have hlast := (Fetch.nesting_is_limited_on_nearest_chains "" 1 [outerTree.id, innerTag.id]
    sharedFetch).2 hrefused
  rw [hdir] at hfirst
  rw [hdir'] at hlast
  have hchain : sharedDir.TreeChain [innerTag.id, outerTree.id] outerTree.id [innerTree.id] :=
    treeChain_outerTree (by simp)
  obtain ⟨links, hover⟩ := hchain.over
  exact ⟨hok, hfirst.1 _ hover.reaches holdsTree_innerTree,
    hfirst.2.mp ⟨outerTree.id, [innerTree.id], hchain, Nat.le_refl 1⟩, hrefused, hlast⟩

/-- Whether the limit ends a fetch depends on the order in which objects are wanted. In one order it ends
well though there is a tree inside another one, which is as deep as the limit. -/
theorem nesting_limit_depends_on_order :
    (sharedFetch.run "" 1 [innerTag.id, outerTree.id]).1 = .ok () ∧
    (∃ first inner, (sharedFetch.run "" 1 [innerTag.id, outerTree.id]).2.dir.TreeChain
      [innerTag.id, outerTree.id] first inner ∧ 1 ≤ inner.length) ∧
    (sharedFetch.run "" 1 [outerTree.id, innerTag.id]).1 = .error (.failed .treeTooDeep) := by
  obtain ⟨hok, hdir⟩ := run_tag_first
  refine ⟨hok, ⟨outerTree.id, [innerTree.id], ?_, Nat.le_refl 1⟩, run_tag_last.1⟩
  rw [hdir]
  exact treeChain_outerTree (by simp)

end GitRemote
