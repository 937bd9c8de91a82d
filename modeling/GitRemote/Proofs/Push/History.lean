import GitRemote.Proofs.Object.Id
import GitRemote.Proofs.Push.Matching
import GitRemote.Proofs.Push.Request
import GitRemote.Push.Producer
import GitRemote.Push.Stateless

/-!
# Pushes keep history

Every command that reaches the server comes from one refspec and changes a ref from the value that was
advertised first. Unless that refspec is forced, the repository has the old value and finds it in the
history of the new one.
-/

namespace GitRemote

/-- A push without a connection makes no commands, or those of the refs that it sends; what comes
behind it makes none. -/
theorem commandsIn_sendPush {input behind : Bytes} {server : Advertisement} {refs : List Ref}
    {args : PushArgs} {source : ObjectSource} {produce : PackProducer}
    (hstateless : args.stateless = true) (hbehind : commandsIn behind = []) :
    commandsIn ((sendPush input server refs args source produce).written ++ behind) = [] ∨
      commandsIn ((sendPush input server refs args source produce).written ++ behind) =
        requestLines (.of server.capabilities args) false
          (sentRefs (.of server.capabilities args) args refs) := by
  have hout (written : Bytes) : commandsOut args written = commandsIn written := if_pos hstateless
  rw [← hout, commandsOut_sendPush_append ((hout behind).trans hbehind)]
  split
  · exact .inr rfl
  · exact .inl rfl

namespace StatelessPush

variable {p : StatelessPush} {repo : LocalRepository} {produce : PackProducer} {input : Bytes}

/-- What is written behind the requests makes no commands. -/
theorem commandsIn_ending (p : StatelessPush) (b : Bool) (refs : List Ref) :
    commandsIn (if b then p.ending refs else []) = [] := by
  cases b with
  | false => exact commandsIn_nil
  | true => exact commandsIn_flush _

/-- A push makes no commands, or those of the refs that it sends after they were matched. -/
theorem commandsIn_run (p : StatelessPush) (repo : LocalRepository) (produce : PackProducer)
    (input : Bytes) :
    commandsIn (p.run repo produce input).written = [] ∨
      ∃ server rest specs refs, Advertisement.read input = (.ok server, rest) ∧
        p.specs.mapM Refspec.parse = .ok specs ∧ repo.matchPush server.refs specs = .ok refs ∧
        commandsIn (p.run repo produce input).written =
          requestLines (.of server.capabilities p.args) false
            (sentRefs (.of server.capabilities p.args) p.args refs) := by
  rw [run]
  split
  · exact .inl commandsIn_nil
  · next specs hspecs =>
    split
    · exact .inl commandsIn_nil
    · next server rest hread =>
      split
      · exact .inl commandsIn_nil
      · next refs hmatch =>
        have hstateless : ({ p.args with stateless := true } : PushArgs).stateless = true := rfl
        rcases commandsIn_sendPush hstateless (p.commandsIn_ending _ _) with h | h
        · exact .inl h
        · exact .inr ⟨server, rest, specs, refs, hread, hspecs, hmatch, h⟩

/-- A push that does not mirror keeps history. The commands that it writes are those of some refs in
their written form. Each comes from exactly one refspec with its target; it starts at the value that
was advertised first, and leads to the value of that refspec. A command that is no deletion changes the
value; and where both values are objects and the refspec is not forced, the repository has the old one
and finds it behind the new one.

Two things are called a deletion here. A refspec deletes its ref if it has no source
(`Refspec.isDeletion`), and then it leads to the null id. A command deletes its ref if it leads to the
null id, which may also come of a refspec with a source that resolves to the null id, such as
`0000000000000000000000000000000000000000:refs/heads/a`. The value of a command goes by its refspec,
and what is said of changes and of history goes by the null id. -/
theorem push_keeps_history (hmirror : p.args.mirror = false) :
    commandsIn (p.run repo produce input).written = [] ∨
      ∃ server rest specs commands, Advertisement.read input = (.ok server, rest) ∧
        p.specs.mapM Refspec.parse = .ok specs ∧
        commandsIn (p.run repo produce input).written =
          requestLines (.of server.capabilities p.args) false commands ∧
        (∀ r ∈ commands, ∃ spec, specs.filter (·.target == r.name) = [spec] ∧
          r.oldId = advertisedValue server.refs r.name ∧
          (if spec.isDeletion then r.newId = .null
            else repo.resolve spec.source = .ok (some r.newId)) ∧
          (r.newId ≠ .null → r.oldId ≠ r.newId) ∧
          (r.oldId ≠ .null → r.newId ≠ .null → spec.force = false →
            repo.source.contains r.oldId = .ok true ∧
              repo.isAncestor r.oldId r.newId = .ok true)) ∧
        ∀ r ∈ commands, ∀ a ∈ server.refs, (∀ spec ∈ specs, spec.target ≠ a.name) →
          r.name ≠ a.name := by
  rcases commandsIn_run p repo produce input with
    hnone | ⟨server, rest, specs, refs, hread, hspecs, hmatch, hcommands⟩
  · exact .inl hnone
  have hmatched := LocalRepository.matched_of_matchPush hmatch
  have hgrants : ∀ r ∈ sentRefs (.of server.capabilities p.args) p.args refs,
      ∃ spec, repo.Grants server.refs specs spec r ∧
        r.status ≠ .upToDate ∧ r.status ≠ .nonFastForward := by
    intro r hr
    obtain ⟨-, hmem, heligible⟩ := mem_sentRefs.mp hr
    obtain ⟨htakes, -⟩ := Ref.eligibility_eq_eligible.mp heligible
    simp only [Ref.PassedOver, not_or, hmirror, and_true] at htakes
    obtain ⟨hup, hff, hpeer⟩ := htakes
    obtain ⟨spec, hspec⟩ := hmatched.granted r hmem (Option.isSome_iff_ne_none.mpr hpeer)
    exact ⟨spec, hspec, hup, hff⟩
  refine .inr ⟨server, rest, specs, _, hread, hspecs, hcommands, ?_, ?_⟩
  · intro r hr
    obtain ⟨spec, hspec, hup, hff⟩ := hgrants r hr
    have hkeeps := hspec.keeps hup hff
    exact ⟨spec, hspec.only, hspec.old, hspec.new, hkeeps.changes, fun hold hnew hforce =>
      ⟨hkeeps.present hold hnew hforce, hkeeps.behind hold hnew hforce⟩⟩
  · intro r hr a ha hno hname
    obtain ⟨spec, hspec, _⟩ := hgrants r hr
    have hmem : spec ∈ specs.filter (·.target == r.name) := by
      rw [hspec.only]
      exact List.mem_singleton_self _
    obtain ⟨hspecs', htarget⟩ := List.mem_filter.mp hmem
    rw [beq_iff_eq, hname] at htarget
    exact hno spec hspecs' htarget

end StatelessPush

/-- A server with the branches `a` and `b` that deletes refs. -/
def twoBranches : Bytes :=
  packets [(uniformId 1).hexBytes ++ bytesOf " refs/heads/a" ++ 0 :: bytesOf "delete-refs",
    (uniformId 2).hexBytes ++ bytesOf " refs/heads/b"] ++ flushPacket

/-- A repository in which every name stands for one object, with every other one in its history. -/
def oneHead : LocalRepository where
  source := { read := fun _ => .ok none, contains := fun _ => .ok true }
  resolve _ := .ok (some (uniformId 3))
  isAncestor _ _ := .ok true

/-- A push that moves `a` and deletes `b`. -/
def moveAndDelete : StatelessPush := { specs := ["main:refs/heads/a", ":refs/heads/b"] }

/-- The push of both branches keeps history. -/
theorem push_keeps_history_two :
    moveAndDelete.args.mirror = false ∧
    commandsIn (moveAndDelete.run oneHead (.ofPack [] (.ok ())) twoBranches).written =
      [(uniformId 1).hexBytes ++ bytesOf " " ++ (uniformId 3).hexBytes ++ bytesOf " refs/heads/a\n",
        (uniformId 2).hexBytes ++ bytesOf " " ++ ObjectId.null.hexBytes ++
          bytesOf " refs/heads/b\n"] ∧
    (commandsIn (moveAndDelete.run oneHead (.ofPack [] (.ok ())) twoBranches).written = [] ∨
      ∃ server rest specs commands, Advertisement.read twoBranches = (.ok server, rest) ∧
        moveAndDelete.specs.mapM Refspec.parse = .ok specs ∧
        commandsIn (moveAndDelete.run oneHead (.ofPack [] (.ok ())) twoBranches).written =
          requestLines (.of server.capabilities moveAndDelete.args) false commands ∧
        (∀ r ∈ commands, ∃ spec, specs.filter (·.target == r.name) = [spec] ∧
          r.oldId = advertisedValue server.refs r.name ∧
          (if spec.isDeletion then r.newId = .null
            else oneHead.resolve spec.source = .ok (some r.newId)) ∧
          (r.newId ≠ .null → r.oldId ≠ r.newId) ∧
          (r.oldId ≠ .null → r.newId ≠ .null → spec.force = false →
            oneHead.source.contains r.oldId = .ok true ∧
              oneHead.isAncestor r.oldId r.newId = .ok true)) ∧
        ∀ r ∈ commands, ∀ a ∈ server.refs, (∀ spec ∈ specs, spec.target ≠ a.name) →
          r.name ≠ a.name) :=
  ⟨rfl, by decide +kernel, StatelessPush.push_keeps_history rfl⟩

end GitRemote
