import GitRemote.Proofs.Object.Header
import GitRemote.Push.Matching
import Mathlib.Data.Fintype.BigOperators
import Mathlib.Data.List.TakeWhile
import Mathlib.Logic.Relation

/-!
# Ancestry

The search for an ancestor ends with the right answer for any links between commits, those that run
in circles included. Between two steps, what was seen is reached from the descendant, its parents
were seen or are in the queue, and the ancestor is not among it; and no more can be seen than there
are ids.
-/

namespace GitRemote

namespace ObjectId

/-- The value of the octet at a position. -/
def octet (id : ObjectId) (i : Fin 20) : Fin 256 :=
  ⟨(id.octets.get (Fin.cast id.size_eq.symm i)).toNat, UInt8.toNat_lt _⟩

/-- Different numbers below 256 are different octets. -/
theorem octet_injective : Function.Injective octet := by
  rintro ⟨a, ha⟩ ⟨b, hb⟩ hab
  have hoctets : a = b := by
    refine List.ext_get (ha.trans hb.symm) fun i hia hib => ?_
    have hdigit := congrArg Fin.val (congrFun hab ⟨i, ha ▸ hia⟩)
    exact UInt8.toNat_inj.mp hdigit
  subst hoctets
  rfl

/-- There are no more different ids than `idCount`. -/
theorem length_le_idCount {ids : List ObjectId} (h : ids.Nodup) :
    ids.length ≤ ObjectSource.idCount := by
  have hcard := (h.map octet_injective).length_le_card
  rwa [List.length_map, Fintype.card_pi_const, Fintype.card_fin] at hcard

end ObjectId

namespace ObjectSource

variable {source : ObjectSource} {ancestor descendant id parent : ObjectId}
  {seen queue rest : List ObjectId}

/-- An object is a commit whose header names a parent. -/
def HasParent (source : ObjectSource) (id parent : ObjectId) : Prop :=
  ∃ o, source.read id = .ok (some o) ∧ o.kind = .commit ∧ HeaderGives ["parent"] o.data parent

/-- From commit to parent a chain leads to an id, which may be the one it starts from. -/
abbrev Descends (source : ObjectSource) : ObjectId → ObjectId → Prop :=
  Relation.ReflTransGen source.HasParent

/-- Reading an object does not fail, and if it is a commit then what its header has for parents are
ids. -/
def Legible (source : ObjectSource) (id : ObjectId) : Prop :=
  ∃ found, source.read id = .ok found ∧
    ∀ o ∈ found, o.kind = .commit → HeaderSound ["parent"] o.data

/-- The parents of a legible object are found. -/
theorem Legible.exists_parents (h : source.Legible id) :
    ∃ parents, source.parents id = .ok parents ∧
      ∀ parent, parent ∈ parents ↔ source.HasParent id parent := by
  have hkeys : ∀ key ∈ ["parent"].map Utf8.encode, (0x20 : UInt8) ∉ key := by decide
  obtain ⟨found, hread, hsound⟩ := h
  rw [ObjectSource.parents, hread]
  cases found with
  | none => exact ⟨[], rfl, fun parent => by simp [HasParent, hread]⟩
  | some o =>
    show ∃ parents, o.parents = .ok parents ∧ _
    rw [Object.parents]
    by_cases hkind : o.kind = .commit
    · obtain ⟨parents, hparents⟩ := (exists_linksIn_iff hkeys).mpr (hsound o rfl hkind)
      refine ⟨parents, (if_pos hkind).trans hparents, fun parent => ?_⟩
      have hgives : parent ∈ parents ↔ HeaderGives ["parent"] o.data parent :=
        mem_linksIn hkeys hparents parent
      simp [HasParent, hread, hkind, hgives]
    · exact ⟨[], if_neg hkind, fun parent => by simp [HasParent, hread, hkind]⟩

/-- The state between two steps of a search. -/
structure Searching (source : ObjectSource) (ancestor descendant : ObjectId)
    (seen queue : List ObjectId) : Prop where
  nodup : seen.Nodup
  missed : ancestor ∉ seen
  reached : ∀ id ∈ queue, source.Descends descendant id
  started : descendant ∈ seen ∨ descendant ∈ queue
  closed : ∀ id ∈ seen, ∀ parent, source.HasParent id parent → parent ∈ seen ∨ parent ∈ queue

/-- At the start nothing was visited, and the descendant waits. -/
theorem searching_start (source : ObjectSource) (ancestor descendant : ObjectId) :
    Searching source ancestor descendant [] [descendant] where
  nodup := List.nodup_nil
  missed := List.not_mem_nil
  reached id hid := by
    rw [List.mem_singleton.mp hid]
  started := .inr (List.mem_singleton_self descendant)
  closed id hid := absurd hid List.not_mem_nil

/-- What is skipped of the queue was seen. -/
theorem mem_dropWhile_seen (h : id ∈ seen ∨ id ∈ queue) :
    id ∈ seen ∨ id ∈ queue.dropWhile seen.contains := by
  refine h.elim .inl fun hqueue => ?_
  rw [← List.takeWhile_append_dropWhile (p := seen.contains) (l := queue),
    List.mem_append] at hqueue
  exact hqueue.imp_left fun hskipped => by simpa using List.mem_takeWhile_imp hskipped

namespace Searching

/-- Where nothing is left to look at, the ancestor is not reached. -/
theorem not_descends (h : Searching source ancestor descendant seen queue)
    (hnone : queue.dropWhile seen.contains = []) : ¬ source.Descends descendant ancestor := by
  have hseen {id : ObjectId} (hid : id ∈ seen ∨ id ∈ queue) : id ∈ seen := by
    have hdropped := mem_dropWhile_seen hid
    rw [hnone] at hdropped
    exact hdropped.resolve_right List.not_mem_nil
  have hall {id : ObjectId} (hid : source.Descends descendant id) : id ∈ seen := by
    induction hid with
    | refl => exact hseen h.started
    | tail _ hparent ih => exact hseen (h.closed _ ih _ hparent)
  exact fun hancestor => h.missed (hall hancestor)

/-- What is looked at next was not seen before, and it is reached from the descendant. -/
theorem next (h : Searching source ancestor descendant seen queue)
    (hnext : queue.dropWhile seen.contains = id :: rest) :
    id ∉ seen ∧ ∀ id' ∈ id :: rest, source.Descends descendant id' := by
  refine ⟨?_, fun id' hid' => ?_⟩
  · have hstop := List.head?_dropWhile_not seen.contains queue
    rw [hnext] at hstop
    simpa using hstop
  · rw [← hnext] at hid'
    exact h.reached id' ((List.dropWhile_sublist _).subset hid')

/-- One step, at an id other than the ancestor. -/
theorem step {parents : List ObjectId} (h : Searching source ancestor descendant seen queue)
    (hnext : queue.dropWhile seen.contains = id :: rest) (hne : id ≠ ancestor)
    (hparents : ∀ parent, parent ∈ parents ↔ source.HasParent id parent) :
    Searching source ancestor descendant (id :: seen) (rest ++ parents) := by
  obtain ⟨hfresh, hreached⟩ := h.next hnext
  have hkept {id' : ObjectId} (hid' : id' ∈ seen ∨ id' ∈ queue) :
      id' ∈ id :: seen ∨ id' ∈ rest ++ parents := by
    have hdropped := mem_dropWhile_seen hid'
    rw [hnext] at hdropped
    simp only [List.mem_cons, List.mem_append] at hdropped ⊢
    tauto
  refine ⟨List.nodup_cons.mpr ⟨hfresh, h.nodup⟩, ?_, ?_, hkept h.started, ?_⟩
  · rw [List.mem_cons, not_or]
    exact ⟨hne.symm, h.missed⟩
  · intro id' hid'
    rcases List.mem_append.mp hid' with hid' | hid'
    · exact hreached id' (List.mem_cons_of_mem id hid')
    · exact (hreached id List.mem_cons_self).tail ((hparents id').mp hid')
  · intro id' hid' parent hparent
    rcases List.mem_cons.mp hid' with rfl | hid'
    · exact .inr (List.mem_append_right rest ((hparents parent).mpr hparent))
    · exact hkept (h.closed id' hid' parent hparent)

end Searching

/-- A search ends, and it finds the ancestor just if that is reached. -/
theorem exists_searchAncestor (hlegible : ∀ id, source.Descends descendant id → source.Legible id)
    {fuel : Nat} (h : Searching source ancestor descendant seen queue)
    (hfuel : idCount < fuel + seen.length) :
    ∃ found, source.searchAncestor ancestor fuel seen queue = .ok found ∧
      (found = true ↔ source.Descends descendant ancestor) := by
  induction fuel generalizing seen queue with
  | zero =>
    -- The fuel covers all ids that can be seen.
    have hle := ObjectId.length_le_idCount h.nodup
    omega
  | succ fuel ih =>
    rw [searchAncestor]
    split
    · next hnone => exact ⟨false, rfl, by simp [h.not_descends hnone]⟩
    · next id rest hnext =>
      obtain ⟨-, hreached⟩ := h.next hnext
      have hid := hreached id List.mem_cons_self
      split
      · next heq => exact ⟨true, rfl, by simp [← heq, hid]⟩
      · next hne =>
        obtain ⟨parents, hok, hparents⟩ := (hlegible id hid).exists_parents
        rw [hok]
        refine ih (h.step hnext hne hparents) ?_
        rw [List.length_cons]
        omega

end ObjectSource

/-- Where all that is reached from a commit is legible, asking a repository that searches its
objects for an ancestor of the commit gets an answer. It is yes just if the ancestor is that commit
or a chain of commits, each with the next for a parent, leads to it. -/
theorem ancestor_found_iff_chain {source : ObjectSource} {descendant : ObjectId}
    (hlegible : ∀ id, source.Descends descendant id → source.Legible id)
    (resolve : String → Except RemoteError (Option ObjectId)) (ancestor : ObjectId) :
    ∃ found, ({ source, resolve } : LocalRepository).isAncestor ancestor descendant = .ok found ∧
      (found = true ↔ Relation.ReflTransGen source.HasParent descendant ancestor) := by
  have hfuel : ObjectSource.idCount < ObjectSource.idCount + 1 + ([] : List ObjectId).length :=
    Nat.lt_succ_self _
  obtain ⟨found, hok, hiff⟩ := ObjectSource.exists_searchAncestor hlegible
    (ObjectSource.searching_start source ancestor descendant) hfuel
  refine ⟨found, ?_, hiff⟩
  have hsource : source.isAncestor ancestor descendant = .ok found := hok
  show liftStorage (source.isAncestor ancestor descendant) = _
  rw [hsource]
  rfl

/-- Two commits that are parents of each other. The second has a missing parent as well, and its
message names the object that is no commit. -/
def circle : ObjectSource where
  read id :=
    match id.octets.head? with
    | some 1 => .ok (some (.commit (uniformId 9) [uniformId 2] "" "" ""))
    | some 2 => .ok (some (.commit (uniformId 9) [uniformId 1, uniformId 3] "" ""
        ("parent " ++ (uniformId 4).hex)))
    | some 4 => .ok (some (.blob []))
    | _ => .ok none

theorem legible_circle (id : ObjectId) : circle.Legible id := by
  have hcommit (parents : List ObjectId) (message : String) :
      HeaderSound ["parent"] (Object.commit (uniformId 9) parents "" "" message).data :=
    (exists_linksIn_iff (by decide)).mp
      ⟨_, headerLinks_commit (by decide) (by decide) (by decide) _ _ _⟩
  rw [ObjectSource.Legible, circle]
  dsimp only
  split
  · exact ⟨_, rfl, by rintro _ ⟨⟩ -; exact hcommit _ _⟩
  · exact ⟨_, rfl, by rintro _ ⟨⟩ -; exact hcommit _ _⟩
  · exact ⟨_, rfl, by rintro _ ⟨⟩ ⟨⟩⟩
  · exact ⟨_, rfl, by rintro _ ⟨⟩⟩

/-- A repository with these commits. -/
def circleRepository : LocalRepository := { source := circle, resolve := fun _ => .ok none }

/-- The circle is left for the missing parent, and not for what the message names. -/
theorem ancestor_found_iff_chain_circle :
    (∀ id, circle.Descends (uniformId 1) id → circle.Legible id) ∧
    (circleRepository.isAncestor (uniformId 3) (uniformId 1) = .ok true ∧
      Relation.ReflTransGen circle.HasParent (uniformId 1) (uniformId 3)) ∧
    circleRepository.isAncestor (uniformId 4) (uniformId 1) = .ok false ∧
      ¬ Relation.ReflTransGen circle.HasParent (uniformId 1) (uniformId 4) := by
  have hlegible : ∀ id, circle.Descends (uniformId 1) id → circle.Legible id :=
    fun id _ => legible_circle id
  have hthird : circleRepository.isAncestor (uniformId 3) (uniformId 1) = .ok true := by
    decide +kernel
  have hfourth : circleRepository.isAncestor (uniformId 4) (uniformId 1) = .ok false := by
    decide +kernel
  obtain ⟨found, hok, hiff⟩ :=
    ancestor_found_iff_chain hlegible (fun _ => .ok none) (uniformId 3)
  obtain ⟨lost, hok', hiff'⟩ :=
    ancestor_found_iff_chain hlegible (fun _ => .ok none) (uniformId 4)
  obtain rfl : true = found := Except.ok.inj (hthird.symm.trans hok)
  obtain rfl : false = lost := Except.ok.inj (hfourth.symm.trans hok')
  exact ⟨hlegible, ⟨hthird, hiff.mp rfl⟩, hfourth, fun h => by cases hiff'.mpr h⟩

end GitRemote
