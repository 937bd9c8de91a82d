import GitRemote.Proofs.Http.Turn

/-!
# When the helper is told of a credential

Over a whole session, the helper is told that a credential works only behind a successful answer to a
request that carried it, and with success at most once; it is told that a credential was refused only
behind a refusal of a request that went out with it. Where the request can be sent again that credential
was complete. Where it cannot, the helper is told to reject whatever was known, be it complete or not.
-/

namespace GitRemote.Http

/-- Whether an event is an approval that the helper took. -/
def Event.isApproval : Event → Bool
  | .helped .approve _ ok => ok
  | _ => false

/-- What must have been done to send a request before an event of it may occur. -/
def Event.Licensed (repeatable : Bool) (before : List Event) : Event → Prop
  | .asked _ _ => before = [] ∨ ∃ k, before = [.asked k (some 401), .helped .fill k true]
  | .helped .fill k _ =>
    before = [.asked k (some 401)] ∧ repeatable = true ∧ k.isComplete = false
  | .helped .approve k _ => k.isComplete = true ∧
    ∃ earlier status, before = earlier ++ [.asked k (some status)] ∧ 200 ≤ status ∧ status < 300
  | .helped .reject k _ => (k.isComplete = true ∨ repeatable = false) ∧
    ∃ earlier, before = earlier ++ [.asked k (some 401)]

/-- Every event of some steps may occur behind those before it. -/
def AllLicensed (repeatable : Bool) : List Event → List Event → Prop
  | _, [] => True
  | before, e :: later =>
    e.Licensed repeatable before ∧ AllLicensed repeatable (before ++ [e]) later

/-- Each step is licensed by those before it. -/
theorem AllLicensed.licensed {repeatable : Bool} {first steps before after : List Event} {e : Event}
    (h : AllLicensed repeatable first steps) (hsteps : steps = before ++ e :: after) :
    e.Licensed repeatable (first ++ before) := by
  induction before generalizing first steps with
  | nil =>
    subst hsteps
    rw [List.append_nil]
    exact h.1
  | cons b before ih =>
    subst hsteps
    have hlater := ih h.2 rfl
    rwa [List.append_assoc, List.singleton_append] at hlater

section

variable {helped last : Prop} {repeatable approved approved' : Bool} {k k' : Credential}
variable {steps before : List Event} {status : Option Nat}

/-- The steps of an attempt that may occur behind the steps before it. -/
theorem Attempt.allLicensed (h : Attempt helped last k approved steps status approved')
    (hlast : last → helped → k.isComplete = true ∨ repeatable = false)
    (hbefore : ∀ answer, (Event.asked k answer).Licensed repeatable before) :
    AllLicensed repeatable before steps := by
  cases h with
  | unanswered => exact ⟨hbefore _, trivial⟩
  | refused => exact ⟨hbefore _, trivial⟩
  | rejected h hhelped =>
    exact ⟨hbefore _, ⟨hlast h hhelped, before, rfl⟩, trivial⟩
  | taken => exact ⟨hbefore _, trivial⟩
  | @approved status _ hsuccess hcomplete =>
    exact ⟨hbefore _, ⟨hcomplete, before, status, rfl, hsuccess⟩, trivial⟩
  | @unapproved status _ hsuccess hcomplete =>
    exact ⟨hbefore _, ⟨hcomplete, before, status, rfl, hsuccess⟩, trivial⟩

/-- In sending a request every event may occur where it does. -/
theorem Turn.allLicensed (h : Turn helped repeatable k approved steps status k' approved') :
    AllLicensed repeatable [] steps := by
  cases h with
  | once h =>
    refine h.allLicensed (fun hlast hhelped => ?_) fun _ => .inl rfl
    cases hrepeatable : repeatable with
    | false => exact .inr rfl
    | true => exact .inl (hlast hhelped hrepeatable)
  | unfilled hhelped hrepeatable hpartial =>
    exact ⟨.inl rfl, ⟨rfl, hrepeatable, hpartial⟩, trivial⟩
  | again hhelped hrepeatable hpartial hfilled h =>
    refine ⟨.inl rfl, ⟨rfl, hrepeatable, hpartial⟩, ?_⟩
    exact h.allLicensed (fun _ _ => .inl hfilled) fun _ => .inr ⟨k, rfl⟩

/-- An attempt is one. -/
theorem Attempt.countP_isAttempt (h : Attempt helped last k approved steps status approved') :
    steps.countP Event.isAttempt = 1 := by
  cases h <;> rfl

/-- A request is sent at most twice. -/
theorem Turn.countP_isAttempt_le
    (h : Turn helped repeatable k approved steps status k' approved') :
    steps.countP Event.isAttempt ≤ 2 := by
  cases h with
  | once h => rw [h.countP_isAttempt]; decide
  | unfilled => exact Nat.le_succ 1
  | again _ _ _ _ h =>
    have hone := h.countP_isAttempt
    rw [List.countP_cons_of_pos rfl, List.countP_cons_of_neg Bool.false_ne_true]
    omega

/-- An approval that the helper takes is the first one and is remembered. -/
theorem Attempt.countP_isApproval_add_le
    (h : Attempt helped last k approved steps status approved') :
    steps.countP Event.isApproval + approved.toNat ≤ approved'.toNat := by
  cases h with
  | unanswered | refused | rejected => exact Nat.le_of_eq (Nat.zero_add _)
  | taken _ hkeep =>
    cases approved with
    | false => exact Nat.zero_le _
    | true => exact Nat.le_of_eq (congrArg Bool.toNat (hkeep rfl).symm)
  | approved _ _ _ hnot =>
    subst hnot
    exact Nat.le_refl 1
  | unapproved _ _ _ hnot =>
    subst hnot
    exact Nat.le_refl 0

/-- A turn approves a credential at most once, and not again after it was approved. -/
theorem Turn.countP_isApproval_add_le
    (h : Turn helped repeatable k approved steps status k' approved') :
    steps.countP Event.isApproval + approved.toNat ≤ approved'.toNat := by
  cases h with
  | once h => exact h.countP_isApproval_add_le
  | unfilled => exact Nat.le_of_eq (Nat.zero_add _)
  | again _ _ _ _ h => exact h.countP_isApproval_add_le

/-- The helper is told of something only if there is one. -/
theorem Attempt.helped_of_mem (h : Attempt helped last k approved steps status approved')
    {action : CredentialAction} {j : Credential} {ok : Bool}
    (hmem : .helped action j ok ∈ steps) : helped := by
  cases h with
  | unanswered | refused | taken => simp at hmem
  | rejected _ hhelped | approved hhelped | unapproved hhelped => exact hhelped

/-- A helper is asked only if there is one. -/
theorem Turn.helped_of_mem (h : Turn helped repeatable k approved steps status k' approved')
    {action : CredentialAction} {j : Credential} {ok : Bool}
    (hmem : .helped action j ok ∈ steps) : helped := by
  cases h with
  | once h => exact h.helped_of_mem hmem
  | unfilled hhelped | again hhelped => exact hhelped

/-- Where a request that cannot be sent again is refused, the helper is told to reject the credential as
it is known. -/
theorem Turn.rejects_of_asked (h : Turn helped false k approved steps status k' approved')
    (hhelped : helped) {j : Credential} (hasked : .asked j (some 401) ∈ steps) :
    ∃ ok, .helped .reject j ok ∈ steps := by
  cases h with
  | unfilled _ hrepeatable | again _ hrepeatable => cases hrepeatable
  | once h =>
    cases h with
    | unanswered => simp at hasked
    | refused _ hnone => exact absurd hhelped hnone
    | rejected _ _ ok =>
      obtain rfl : j = k := by simpa using hasked
      exact ⟨ok, by simp⟩
    | taken hstatus => simp [hstatus.symm] at hasked
    | approved _ hsuccess | unapproved _ hsuccess =>
      obtain ⟨-, rfl⟩ : j = k ∧ 401 = _ := by simpa using hasked
      exact absurd hsuccess.2 (by decide)

end

namespace Client

/-- What sending a request came to. -/
structure Sending where
  request : Request
  /-- What was done, in order. -/
  steps : List Event
  /-- What reached the server. -/
  received : List Received

/-- What sending a request comes to. -/
def sending (c : Client) (r : Request) : Sending :=
  let sent := (c.send r).2
  { request := r
    steps := (sent.events.take (sent.events.length - c.events.length)).reverse
    received := sent.server.requests.drop c.server.requests.length }

/-- What sending some requests one after the other comes to. -/
def sendings (c : Client) : List Request → List Sending
  | [] => []
  | r :: rest => c.sending r :: (c.send r).2.sendings rest

variable {c : Client} {r : Request} {rs : List Request} {s : Sending}

/-- Sending a request goes as `Turn` says, and what reached the server are its attempts. -/
theorem sending_turn (c : Client) (r : Request) :
    (c.sending r).received = (c.sending r).steps.filterMap (Event.received? r) ∧
      ∃ status, Turn c.helper.isSome r.isRepeatable c.credential c.approved (c.sending r).steps status
        (c.send r).2.credential (c.send r).2.approved := by
  obtain ⟨steps, hadds, hturn⟩ := c.send_turn r
  have hsteps : (c.sending r).steps = steps := by
    rw [sending, hadds.events, List.length_append, Nat.add_sub_cancel, List.take_left,
      List.reverse_reverse]
  refine ⟨?_, _, by rw [hsteps]; exact hturn⟩
  rw [hsteps, sending, hadds.requests, List.drop_left]

/-- What was sent in a session was sent by a client with the helper of the session. -/
theorem exists_of_mem_sendings (h : s ∈ c.sendings rs) :
    ∃ d : Client, d.helper = c.helper ∧ s = d.sending s.request := by
  induction rs generalizing c with
  | nil => cases h
  | cons r rs ih =>
    rcases List.mem_cons.mp h with rfl | h
    · exact ⟨c, rfl, rfl⟩
    · obtain ⟨d, hd, hs⟩ := ih h
      obtain ⟨steps, hadds, -⟩ := c.send_turn r
      exact ⟨d, hd.trans hadds.helper, hs⟩

/-- In a session the helper takes at most one approval, and none if it has approved before. -/
theorem countP_isApproval_sendings (c : Client) (rs : List Request) :
    ((c.sendings rs).flatMap (·.steps)).countP Event.isApproval + c.approved.toNat ≤ 1 := by
  induction rs generalizing c with
  | nil => simpa [sendings] using c.approved.toNat_le
  | cons r rs ih =>
    obtain ⟨-, status, hturn⟩ := c.sending_turn r
    have hone := hturn.countP_isApproval_add_le
    have hrest := ih (c.send r).2
    rw [sendings, List.flatMap_cons, List.countP_append]
    omega

end Client

/-- What was done to send the requests of a session. Each is sent at most twice, the second time with a
credential that the helper has completed after a refusal; the server has just these attempts. The helper
is told to approve a credential only behind a success of an attempt with it, and takes that once at most,
and to reject one only behind a refusal of an attempt with it. It is told to reject one that is not
complete just where a request that cannot be sent again was refused with that. -/
theorem helper_told_of_answers (c : Client) (rs : List Request) :
    (∀ s ∈ c.sendings rs,
      s.received = s.steps.filterMap (Event.received? s.request) ∧
      s.steps.countP Event.isAttempt ≤ 2 ∧
      (∀ before e after, s.steps = before ++ e :: after →
        e.Licensed s.request.isRepeatable before) ∧
      ((∃ k ok, .helped .reject k ok ∈ s.steps ∧ k.isComplete = false) ↔
        c.helper.isSome = true ∧ s.request.isRepeatable = false ∧
          ∃ k, .asked k (some 401) ∈ s.steps ∧ k.isComplete = false)) ∧
    ((c.sendings rs).flatMap (·.steps)).countP Event.isApproval ≤ 1 := by
  refine ⟨fun s hs => ?_, ?_⟩
  · obtain ⟨d, hhelper, hsending⟩ := Client.exists_of_mem_sendings hs
    obtain ⟨hreceived, status, hturn⟩ := d.sending_turn s.request
    rw [← hsending, hhelper] at hturn
    rw [← hsending] at hreceived
    have hlicensed : ∀ before e after, s.steps = before ++ e :: after →
        e.Licensed s.request.isRepeatable before := fun before e after hsteps =>
      hturn.allLicensed.licensed hsteps
    refine ⟨hreceived, hturn.countP_isAttempt_le, hlicensed, ?_, ?_⟩
    · rintro ⟨k, ok, hmem, hpartial⟩
      obtain ⟨before, after, hsteps⟩ := List.append_of_mem hmem
      obtain ⟨hcomplete | hrepeatable, earlier, rfl⟩ := hlicensed _ _ _ hsteps
      · rw [hpartial] at hcomplete
        cases hcomplete
      · exact ⟨hturn.helped_of_mem hmem, hrepeatable, k, by simp [hsteps], hpartial⟩
    · rintro ⟨hhelped, hrepeatable, k, hmem, hpartial⟩
      rw [hrepeatable] at hturn
      obtain ⟨ok, hrejected⟩ := hturn.rejects_of_asked hhelped hmem
      exact ⟨k, ok, hrejected, hpartial⟩
  · exact Nat.le_trans (Nat.le_add_right _ _) (c.countP_isApproval_sendings rs)

/-! ### Two sessions -/

/-- A helper, and a program for it that says the same on every action and ends well. -/
def clientOfHelper (answer : Bytes) (responses : List Response) : Client where
  server := { responses }
  credential := { protocol := "https", host := "h" }
  helper := some ⟨["helper"]⟩
  host := { load := fun _ _ => some fun _ => ⟨[.output answer], .exited 0, 0⟩ }

/-- The credential that the helper completes. -/
def knownUser : Credential :=
  { protocol := "https", host := "h", username := some "u", password := some "p" }

/-- A request that is refused is sent again with the credential of the helper, which is approved behind
that; another request goes out with it at once, and it is not approved again. -/
theorem helper_told_of_answers_filled :
    let c := clientOfHelper (bytesOf "username=u\npassword=p\n")
      [⟨401, none, []⟩, ⟨200, none, []⟩, ⟨200, none, []⟩]
    let first := c.sending (.get "https://h/a")
    first ∈ c.sendings [.get "https://h/a", .get "https://h/b"] ∧
    first.steps = [.asked c.credential (some 401), .helped .fill c.credential true,
      .asked knownUser (some 200)] ++ [.helped .approve knownUser true] ∧
    (Event.helped .approve knownUser true).Licensed true [.asked c.credential (some 401),
      .helped .fill c.credential true, .asked knownUser (some 200)] ∧
    ((c.send (.get "https://h/a")).2.sending (.get "https://h/b")).steps =
      [.asked knownUser (some 200)] := by
  intro c first
  have hmem : first ∈ c.sendings [.get "https://h/a", .get "https://h/b"] := List.mem_cons_self
  have hsteps : first.steps = [.asked c.credential (some 401), .helped .fill c.credential true,
      .asked knownUser (some 200)] ++ [.helped .approve knownUser true] := by
    decide +kernel
  obtain ⟨-, -, hlicensed, -⟩ := (helper_told_of_answers c _).1 first hmem
  exact ⟨hmem, hsteps, hlicensed _ _ _ hsteps, by decide +kernel⟩

/-- Where a body that is read while it is sent is refused, the helper is told to reject what is known,
though no user is, and the request went out without one. -/
theorem streamed_refusal_rejects_unknown_user :
    let c := clientOfHelper [] [⟨401, none, []⟩]
    let refused := c.sending (.post "https://h/a" (.streamed (.ok [])))
    refused.steps = [.asked c.credential (some 401), .helped .reject c.credential true] ∧
    refused.received.map (·.auth) = [none] ∧ c.credential.username = none ∧
    ¬ ∀ k ok, .helped .reject k ok ∈ refused.steps → k.isComplete = true := by
  intro c refused
  have hsteps : refused.steps = [.asked c.credential (some 401), .helped .reject c.credential true] := by
    decide +kernel
  refine ⟨hsteps, by decide +kernel, rfl, fun h => ?_⟩
  have hcomplete : c.credential.isComplete = true := h _ true (by rw [hsteps]; simp)
  cases hcomplete

end GitRemote.Http
