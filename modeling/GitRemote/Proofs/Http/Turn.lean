import GitRemote.Http.Client

/-!
# What is done to send a request

A request is sent in one attempt, or in two with the helper completing the credential between them, and
an attempt ends in few ways. `Turn` lists them. A client keeps to it on every request, and the requests
that the server has are those of the attempts.
-/

namespace GitRemote

/-- A helper that is asked to complete a credential and does not fail completes it. -/
theorem CredentialHelper.isComplete_of_fill {helper : CredentialHelper} {k k' : Credential}
    {host host' : Host} (h : helper.fill k host = (.ok (), k', host')) : k'.isComplete = true := by
  rw [fill] at h
  split at h
  · cases h
  · next text host₁ hrun =>
    by_cases hcomplete : (k.updateAll text).isComplete = true
    · simp only [hcomplete, ite_true, Prod.mk.injEq] at h
      rw [← h.2.1]
      exact hcomplete
    · simp only [hcomplete, Bool.false_eq_true, ite_false, Prod.mk.injEq] at h
      cases h.1

namespace Http

/-- The request as it goes out with a credential. -/
def Request.carrying (r : Request) (k : Credential) : Request :=
  match k.username with
  | some username => { r with auth := some { username, password := k.password } }
  | none => r

theorem Request.url_carrying (r : Request) (k : Credential) : (r.carrying k).url = r.url := by
  rw [carrying]
  split <;> rfl

theorem Request.method_carrying (r : Request) (k : Credential) :
    (r.carrying k).method = r.method := by
  rw [carrying]
  split <;> rfl

theorem Request.body_carrying (r : Request) (k : Credential) : (r.carrying k).body = r.body := by
  rw [carrying]
  split <;> rfl

/-- What the server has of an event in sending a request. -/
def Event.received? (r : Request) : Event → Option Received
  | .asked k _ => r.body.content.toOption.map (r.carrying k).received
  | .helped .. => none

/-- Whether an event is an attempt to send a request. -/
def Event.isAttempt : Event → Bool
  | .asked .. => true
  | .helped .. => false

/-- Whether an event is an attempt that the server answered. -/
def Event.isAnswered : Event → Bool
  | .asked _ status => status.isSome
  | .helped .. => false

/-- How an attempt with the credential `k` ends: what is done, the status of the response that is handed
on, and whether the helper has approved a credential by then. A refusal stands where the attempt is the
last one. -/
inductive Attempt (helped last : Prop) (k : Credential) (approved : Bool) :
    List Event → Option Nat → Bool → Prop
  | unanswered : Attempt helped last k approved [.asked k none] none approved
  | refused (hlast : last) (hnone : ¬ helped) :
      Attempt helped last k approved [.asked k (some 401)] none approved
  | rejected (hlast : last) (hhelped : helped) (ok : Bool) :
      Attempt helped last k approved [.asked k (some 401), .helped .reject k ok] none approved
  | taken {status : Nat} {approved' : Bool} (hstatus : status ≠ 401)
      (hkeep : approved = true → approved' = true) :
      Attempt helped last k approved [.asked k (some status)] (some status) approved'
  | approved {status : Nat} (hhelped : helped) (hsuccess : 200 ≤ status ∧ status < 300)
      (hcomplete : k.isComplete = true) (hnot : approved = false) :
      Attempt helped last k approved [.asked k (some status), .helped .approve k true] (some status)
        true
  | unapproved {status : Nat} (hhelped : helped) (hsuccess : 200 ≤ status ∧ status < 300)
      (hcomplete : k.isComplete = true) (hnot : approved = false) :
      Attempt helped last k approved [.asked k (some status), .helped .approve k false] none false

/-- How sending a request goes with the credential `k`, and the credential behind it. There is a second
attempt only if the first one was refused, the request can be sent again, and the helper has completed
the credential. -/
inductive Turn (helped : Prop) (repeatable : Bool) (k : Credential) (approved : Bool) :
    List Event → Option Nat → Credential → Bool → Prop
  | once {events : List Event} {status : Option Nat} {approved' : Bool}
      (h : Attempt helped (helped → repeatable = true → k.isComplete = true) k approved events status
        approved') :
      Turn helped repeatable k approved events status k approved'
  | unfilled (hhelped : helped) (hrepeatable : repeatable = true) (hpartial : k.isComplete = false)
      (k' : Credential) :
      Turn helped repeatable k approved [.asked k (some 401), .helped .fill k false] none k' approved
  | again {k' : Credential} {events : List Event} {status : Option Nat} {approved' : Bool}
      (hhelped : helped) (hrepeatable : repeatable = true) (hpartial : k.isComplete = false)
      (hfilled : k'.isComplete = true) (h : Attempt helped True k' approved events status approved') :
      Turn helped repeatable k approved (.asked k (some 401) :: .helped .fill k true :: events) status
        k' approved'

/-! ### Responses that are handed on -/

section

variable {helped last : Prop} {k k' : Credential} {approved approved' repeatable : Bool}
  {steps : List Event} {status : Nat} {r : Request} {content : Bytes × Bool}

/-- A request that is asked with a credential is received with it. -/
theorem Event.received?_asked (k : Credential) (answer : Option Nat)
    (hcontent : r.body.content = .ok content) :
    received? r (.asked k answer) = some ((r.carrying k).received content) := by
  rw [received?, hcontent]
  rfl

/-- An attempt whose response is handed on is one request and one response. -/
theorem Attempt.received_eq (h : Attempt helped last k approved steps (some status) approved')
    (hcontent : r.body.content = .ok content) :
    steps.filterMap (Event.received? r) = [(r.carrying k).received content] ∧
      steps.countP Event.isAnswered = 1 := by
  cases h with
  | taken =>
    refine ⟨?_, rfl⟩
    rw [List.filterMap_cons_some (Event.received?_asked _ _ hcontent), List.filterMap_nil]
  | approved =>
    refine ⟨?_, rfl⟩
    rw [List.filterMap_cons_some (Event.received?_asked _ _ hcontent), List.filterMap_cons_none rfl,
      List.filterMap_nil]

/-- A turn whose response is handed on is one request or two, each with a response. -/
theorem Turn.received_eq (h : Turn helped repeatable k approved steps (some status) k' approved')
    (hcontent : r.body.content = .ok content) :
    ∃ ks : List Credential, 0 < ks.length ∧ ks.length ≤ 2 ∧
      steps.filterMap (Event.received? r) = ks.map (fun k => (r.carrying k).received content) ∧
      steps.countP Event.isAnswered = ks.length := by
  cases h with
  | once h =>
    obtain ⟨hreceived, hcount⟩ := h.received_eq hcontent
    exact ⟨[k], by simp, by simp, hreceived, hcount⟩
  | again _ _ _ _ h =>
    obtain ⟨hreceived, hcount⟩ := h.received_eq hcontent
    refine ⟨[k, k'], by simp, by simp, ?_, ?_⟩
    · rw [List.filterMap_cons_some (Event.received?_asked _ _ hcontent), List.filterMap_cons_none rfl,
        hreceived]
      rfl
    · rw [List.countP_cons_of_pos rfl, List.countP_cons_of_neg (by simp [Event.isAnswered]), hcount]
      rfl

end

/-! ### Clients -/

namespace Client

/-- A client has taken some more steps to send a request. -/
structure Adds (r : Request) (c : Client) (steps : List Event) (c' : Client) : Prop where
  events : c'.events = steps.reverse ++ c.events
  helper : c'.helper = c.helper
  requests : c'.server.requests = c.server.requests ++ steps.filterMap (Event.received? r)
  responses : c'.server.responses.length + steps.countP Event.isAnswered =
    c.server.responses.length

variable {r : Request} {c c₁ c₂ : Client} {s₁ s₂ : List Event}

/-- The steps of two runs one after the other are those of the whole. -/
theorem Adds.trans (h₁ : c.Adds r s₁ c₁) (h₂ : c₁.Adds r s₂ c₂) : c.Adds r (s₁ ++ s₂) c₂ where
  events := by rw [h₂.events, h₁.events, List.reverse_append, List.append_assoc]
  helper := h₂.helper.trans h₁.helper
  requests := by rw [h₂.requests, h₁.requests, List.filterMap_append, List.append_assoc]
  responses := by
    rw [← h₁.responses, ← h₂.responses, List.countP_append]
    omega

/-- An attempt leaves the credential as it is, and takes a response if it is answered. -/
theorem adds_execute (c : Client) (r : Request) :
    c.Adds r [.asked c.credential ((c.execute r).1.toOption.map (·.status))] (c.execute r).2 ∧
      (c.execute r).2.credential = c.credential ∧ (c.execute r).2.approved = c.approved := by
  have hauthorize : c.authorize r = r.carrying c.credential := rfl
  rw [execute, hauthorize, Server.answer, r.body_carrying]
  refine ⟨?_, rfl, rfl⟩
  cases hcontent : r.body.content with
  | error e => exact ⟨rfl, rfl, by simp [record, Event.received?, hcontent, Except.toOption], rfl⟩
  | ok content =>
    cases hresponses : c.server.responses with
    | nil =>
      exact ⟨rfl, rfl, by simp [record, Event.received?, hcontent, Except.toOption],
        by simp [record, hresponses, Event.isAnswered, Except.toOption]⟩
    | cons response responses =>
      exact ⟨rfl, rfl, by simp [record, Event.received?, hcontent, Except.toOption],
        by simp [record, hresponses, Event.isAnswered, Except.toOption]⟩

/-- Without a helper there is nobody to tell. -/
theorem tell_of_none {action : CredentialAction} (h : c.helper = none) :
    c.tell action = (.ok (), c) := by
  rw [tell, h]

/-- Telling the helper is one event and leaves the credential as it is. -/
theorem adds_tell {helper : CredentialHelper} (r : Request) (action : CredentialAction)
    (h : c.helper = some helper) :
    c.Adds r [.helped action c.credential (c.tell action).1.isOk] (c.tell action).2 ∧
      (c.tell action).2.credential = c.credential ∧
      (c.tell action).2.approved = c.approved := by
  simp only [tell, h]
  exact ⟨⟨rfl, h.symm, by simp [record, Event.received?], rfl⟩, rfl, rfl⟩

/-- Completing the credential is one event; if it does not fail the credential is complete. -/
theorem adds_fill (c : Client) (r : Request) (helper : CredentialHelper) :
    c.Adds r [.helped .fill c.credential (c.fill helper).1.isOk] (c.fill helper).2 ∧
      (c.fill helper).2.approved = c.approved ∧
      ((c.fill helper).1.isOk = true → (c.fill helper).2.credential.isComplete = true) := by
  rw [fill]
  refine ⟨⟨rfl, rfl, by simp [record, Event.received?], rfl⟩, rfl, fun hok => ?_⟩
  cases hfill : helper.fill c.credential c.host with
  | mk result rest =>
    obtain ⟨k', host'⟩ := rest
    rw [hfill] at hok
    cases result with
    | error e => cases hok
    | ok u => exact CredentialHelper.isComplete_of_fill hfill

/-- An attempt to send a request after which there is no other. -/
def attempt (c : Client) (r : Request) : Except RemoteError Response × Client :=
  match c.execute r with
  | (.error e, c) => (.error e, c)
  | (.ok response, c) => if response.status = 401 then c.refused r.url else c.settle response

/-- Whether the helper is to complete the credential if a request is refused. -/
def fills (c : Client) (r : Request) : Bool :=
  c.helper.isSome && (r.isRepeatable && !c.credential.isComplete)

/-- Giving up on a request tells the helper, if there is one. -/
theorem refused_steps (c : Client) (r : Request) :
    ∃ steps, c.Adds r steps (c.refused r.url).2 ∧
      (c.refused r.url).2.credential = c.credential ∧
      ∀ last : Prop, last → Attempt c.helper.isSome last c.credential c.approved
        (.asked c.credential (some 401) :: steps) none (c.refused r.url).2.approved := by
  cases hhelper : c.helper with
  | none =>
    rw [refused, tell_of_none hhelper]
    exact ⟨[], ⟨rfl, rfl, by simp, rfl⟩, rfl, fun last hlast => .refused hlast (by simp)⟩
  | some helper =>
    obtain ⟨hadds, hcredential, happroved⟩ := adds_tell r .reject hhelper
    refine ⟨_, hadds, hcredential, fun last hlast => ?_⟩
    rw [refused, happroved]
    exact .rejected hlast rfl _

/-- Taking a response in tells the helper if it has yet to approve the credential. -/
theorem settle_steps (c : Client) (r : Request) {response : Response}
    (hstatus : response.status ≠ 401) :
    ∃ steps, c.Adds r steps (c.settle response).2 ∧
      (c.settle response).2.credential = c.credential ∧
      ∀ last : Prop, Attempt c.helper.isSome last c.credential c.approved
        (.asked c.credential (some response.status) :: steps)
        ((c.settle response).1.toOption.map (·.status)) (c.settle response).2.approved := by
  rw [settle]
  split
  · next hdue =>
    simp only [Bool.and_eq_true, Bool.not_eq_true', Response.isSuccess, decide_eq_true_eq] at hdue
    obtain ⟨⟨hsuccess, hcomplete⟩, hnot⟩ := hdue
    cases hhelper : c.helper with
    | none =>
      rw [tell_of_none hhelper]
      exact ⟨[], ⟨rfl, rfl, by simp, rfl⟩, rfl, fun last => .taken hstatus fun _ => rfl⟩
    | some helper =>
      obtain ⟨hadds, hcredential, happroved⟩ := adds_tell r .approve hhelper
      cases htell : c.tell .approve with
      | mk result told =>
        rw [htell] at hadds hcredential happroved
        cases result with
        | error e =>
          refine ⟨_, hadds, hcredential, fun last => ?_⟩
          rw [happroved, hnot]
          exact .unapproved rfl hsuccess hcomplete rfl
        | ok u =>
          refine ⟨_, ⟨hadds.events, hadds.helper, hadds.requests, hadds.responses⟩, hcredential,
            fun last => .approved rfl hsuccess hcomplete hnot⟩
  · exact ⟨[], ⟨rfl, rfl, by simp, rfl⟩, rfl, fun last => .taken hstatus id⟩

/-- An attempt ends in one of the ways that `Attempt` lists. -/
theorem attempt_steps (c : Client) (r : Request) {last : Prop}
    (hlast : ∀ response, (c.execute r).1 = .ok response → response.status = 401 → last) :
    ∃ steps, c.Adds r steps (c.attempt r).2 ∧ (c.attempt r).2.credential = c.credential ∧
      Attempt c.helper.isSome last c.credential c.approved steps
        ((c.attempt r).1.toOption.map (·.status)) (c.attempt r).2.approved := by
  obtain ⟨hasked, hcredential, happroved⟩ := adds_execute c r
  rw [attempt]
  cases hexecute : c.execute r with
  | mk answer asked =>
    rw [hexecute] at hasked hcredential happroved hlast
    cases answer with
    | error e =>
      refine ⟨_, hasked, hcredential, ?_⟩
      show Attempt _ _ _ _ _ none asked.approved
      rw [happroved]
      exact .unanswered
    | ok response =>
      dsimp only
      by_cases hstatus : response.status = 401
      · replace hasked : c.Adds r [.asked c.credential (some 401)] asked := hstatus ▸ hasked
        obtain ⟨steps, hadds, hkept, hattempt⟩ := asked.refused_steps r
        rw [if_pos hstatus]
        refine ⟨_, hasked.trans hadds, hkept.trans hcredential, ?_⟩
        have h := hattempt last (hlast response rfl hstatus)
        rw [hasked.helper, hcredential, happroved] at h
        exact h
      · obtain ⟨steps, hadds, hkept, hattempt⟩ := asked.settle_steps r hstatus
        rw [if_neg hstatus]
        refine ⟨_, hasked.trans hadds, hkept.trans hcredential, ?_⟩
        have h := hattempt last
        rw [hasked.helper, hcredential, happroved] at h
        exact h

/-- Sending a request is one attempt unless it is refused and the helper is to complete the
credential. -/
theorem send_eq_attempt (h : ∀ response, (c.execute r).1 = .ok response → response.status = 401 →
    c.fills r = false) : c.send r = c.attempt r := by
  have hhelper := (adds_execute c r).1.helper
  have hcredential := (adds_execute c r).2.1
  rw [send, attempt]
  cases hexecute : c.execute r with
  | mk answer asked =>
    rw [hexecute] at h hhelper hcredential
    cases answer with
    | error e => rfl
    | ok response =>
      dsimp only at hhelper hcredential ⊢
      by_cases hstatus : response.status = 401
      · have hno := h response rfl hstatus
        rw [fills, ← hhelper, ← hcredential] at hno
        rw [if_pos hstatus, if_pos hstatus]
        cases hasked : asked.helper with
        | none => rfl
        | some helper =>
          rw [hasked, Option.isSome_some, Bool.true_and] at hno
          simp only [hno, Bool.false_eq_true, ite_false]
      · rw [if_neg hstatus, if_neg hstatus]

/-- A request that is refused is sent again once the helper has completed the credential. -/
theorem send_turn_of_fills {response : Response} (hanswer : (c.execute r).1 = .ok response)
    (hstatus : response.status = 401) (hfills : c.fills r = true) :
    ∃ steps, c.Adds r steps (c.send r).2 ∧
      Turn c.helper.isSome r.isRepeatable c.credential c.approved steps
        ((c.send r).1.toOption.map (·.status)) (c.send r).2.credential (c.send r).2.approved := by
  obtain ⟨hasked, hcredential, happroved⟩ := adds_execute c r
  rw [fills, Bool.and_eq_true, Bool.and_eq_true, Bool.not_eq_true'] at hfills
  obtain ⟨hhelped, hrepeatable, hpartial⟩ := hfills
  obtain ⟨helper, hhelper⟩ := Option.isSome_iff_exists.mp hhelped
  rw [send]
  cases hexecute : c.execute r with
  | mk answer asked =>
    rw [hexecute] at hanswer hasked hcredential happroved
    obtain rfl : answer = .ok response := hanswer
    replace hasked : c.Adds r [.asked c.credential (some 401)] asked := hstatus ▸ hasked
    have hdue : (r.isRepeatable && !asked.credential.isComplete) = true := by
      rw [hcredential, hrepeatable, hpartial]
      rfl
    simp only [if_pos hstatus, hasked.helper.trans hhelper, if_pos hdue, retry]
    obtain ⟨hfilled, hkept, hcomplete⟩ := asked.adds_fill r helper
    cases hfill : asked.fill helper with
    | mk result filled =>
      rw [hfill] at hfilled hkept hcomplete
      rw [hcredential] at hfilled
      have hadds := hasked.trans hfilled
      have happroved' : filled.approved = c.approved := hkept.trans happroved
      cases result with
      | error e =>
        refine ⟨_, hadds, ?_⟩
        show Turn _ _ _ _ _ none filled.credential filled.approved
        rw [happroved']
        exact .unfilled hhelped hrepeatable hpartial _
      | ok u =>
        -- What follows is an attempt like the first one, after which there is no other.
        have hlast (response : Response) (_ : (filled.execute r).1 = .ok response)
            (_ : response.status = 401) : True := trivial
        obtain ⟨steps, hagain, hkept', hattempt⟩ := filled.attempt_steps r hlast
        rw [hadds.helper, happroved'] at hattempt
        refine ⟨_, hadds.trans hagain, ?_⟩
        show Turn _ _ _ _ _ ((filled.attempt r).1.toOption.map (·.status))
          (filled.attempt r).2.credential (filled.attempt r).2.approved
        rw [hkept']
        exact .again hhelped hrepeatable hpartial (hcomplete rfl) hattempt

/-- Sending a request goes as `Turn` says. -/
theorem send_turn (c : Client) (r : Request) :
    ∃ steps, c.Adds r steps (c.send r).2 ∧
      Turn c.helper.isSome r.isRepeatable c.credential c.approved steps
        ((c.send r).1.toOption.map (·.status)) (c.send r).2.credential (c.send r).2.approved := by
  by_cases hretry : ∃ response, (c.execute r).1 = .ok response ∧ response.status = 401 ∧
      c.fills r = true
  · obtain ⟨response, hanswer, hstatus, hfills⟩ := hretry
    exact send_turn_of_fills hanswer hstatus hfills
  · have honce : ∀ response, (c.execute r).1 = .ok response → response.status = 401 →
        c.fills r = false := by
      intro response hanswer hstatus
      exact Bool.eq_false_iff.mpr fun hfills => hretry ⟨response, hanswer, hstatus, hfills⟩
    have hlast : ∀ response, (c.execute r).1 = .ok response → response.status = 401 →
        (c.helper.isSome = true → r.isRepeatable = true → c.credential.isComplete = true) := by
      intro response hanswer hstatus hhelped hrepeatable
      have hno := honce response hanswer hstatus
      rw [fills, hhelped, hrepeatable] at hno
      simpa using hno
    obtain ⟨steps, hadds, hcredential, hattempt⟩ := attempt_steps c r hlast
    rw [send_eq_attempt honce]
    refine ⟨steps, hadds, ?_⟩
    rw [hcredential]
    exact .once hattempt

end Client

end Http

end GitRemote
