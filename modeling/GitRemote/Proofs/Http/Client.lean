import GitRemote.Http.Client
import Mathlib.Logic.Basic

/-!
# Clients and successful responses

A client takes a successful response as it is: the request reaches the server with the credential of
the session, and neither the credential nor the helper changes. Only a helper that has yet to approve
the credential can spoil it. And no request fails for what its caller makes of a response.
-/

namespace GitRemote

/-- Running a program changes only files. -/
theorem Host.load_run (h : Host) (command : Command) (input : Bytes) :
    (h.run command input).2.load = h.load := by
  rw [run]
  cases h.start command <;> rfl

/-- A credential helper changes files, but not which programs a host can run. -/
theorem CredentialHelper.load_run (helper : CredentialHelper) (action : CredentialAction)
    (credential : Credential) (host : Host) :
    (helper.run action credential host).2.load = host.load := by
  rw [run]
  split
  · rfl
  · next command _ =>
    have hload := host.load_run command (Utf8.encode credential.text)
    split
    · next e after hr => rw [hr] at hload; exact hload
    · next output verdict after hr => rw [hr] at hload; exact hload

theorem CredentialHelper.load_tell (helper : CredentialHelper) (action : CredentialAction)
    (credential : Credential) (host : Host) :
    (helper.tell action credential host).2.load = host.load := by
  have hload := helper.load_run action credential host
  rw [tell]
  split
  · next e after hr => rw [hr] at hload; exact hload
  · next text after hr => rw [hr] at hload; exact hload

namespace Http.Client

/-- The user that requests are sent for. -/
def auth? (c : Client) : Option BasicAuth :=
  c.credential.username.map fun username => { username, password := c.credential.password }

/-- If the helper has yet to approve the credential, it will, whatever files there are. -/
def Settles (c : Client) : Prop :=
  c.credential.isComplete = true → c.approved = false → ∀ helper ∈ c.helper, ∀ files,
    (helper.tell .approve c.credential { c.host with files }).1 = .ok ()

/-- If the helper has yet to approve the credential, it will do so now. -/
def Accepts (c : Client) : Prop :=
  c.credential.isComplete = true → c.approved = false → ∀ helper ∈ c.helper,
    (helper.tell .approve c.credential c.host).1 = .ok ()

theorem Settles.accepts {c : Client} (h : c.Settles) : c.Accepts :=
  fun hcomplete hnot helper hhelper => h hcomplete hnot helper hhelper c.host.files

/-- The client later in its session, with the same credential. -/
structure Continues (c later : Client) : Prop where
  credential : later.credential = c.credential
  helper : later.helper = c.helper
  load : later.host.load = c.host.load
  approved : c.approved = true → later.approved = true

namespace Continues

variable {a b c : Client}

protected theorem refl (c : Client) : c.Continues c := ⟨rfl, rfl, rfl, id⟩

protected theorem trans (hab : a.Continues b) (hbc : b.Continues c) : a.Continues c where
  credential := hbc.credential.trans hab.credential
  helper := hbc.helper.trans hab.helper
  load := hbc.load.trans hab.load
  approved h := hbc.approved (hab.approved h)

theorem auth?_eq (h : a.Continues b) : b.auth? = a.auth? := by
  rw [auth?, auth?, h.credential]

/-- A client that settles still does later on. -/
theorem settles (h : a.Continues b) (ha : a.Settles) : b.Settles := by
  intro hcomplete hnot helper hhelper files
  have hnot' : a.approved = false := by
    cases happroved : a.approved with
    | false => rfl
    | true =>
      rw [h.approved happroved] at hnot
      cases hnot
  rw [h.credential] at hcomplete ⊢
  rw [h.helper] at hhelper
  have hhost : (⟨files, b.host.load⟩ : Host) = ⟨files, a.host.load⟩ := by rw [h.load]
  have htell := ha hcomplete hnot' helper hhelper files
  rwa [← hhost] at htell

end Continues

/-- A request without a credential gets that of the client. -/
theorem authorize_of_none {c : Client} {r : Request} (h : r.auth = none) :
    c.authorize r = { r with auth := c.auth? } := by
  rw [authorize, auth?]
  cases c.credential.username with
  | none => rw [Option.map_none, ← h]
  | some username => rfl

/-- A request with a body that can be read is answered by the next response. -/
theorem execute_eq {c : Client} {r : Request} {content : Bytes × Bool} {response : Response}
    {later : List Response} (hauth : r.auth = none) (hbody : r.body.content = .ok content)
    (hserver : c.server.responses = response :: later) :
    c.execute r = (.ok response,
      ({ c with server := ⟨later,
        c.server.requests ++ [{ r with auth := c.auth? }.received content]⟩ } : Client).record
          (.asked c.credential (some response.status))) := by
  rw [execute, authorize_of_none hauth, Server.answer]
  simp only [hbody, hserver]
  rfl

/-- A helper that is to approve the credential does so. -/
theorem tell_approve_eq {c : Client} (h : c.Accepts) (hcomplete : c.credential.isComplete = true)
    (hnot : c.approved = false) :
    ∃ c', c.tell .approve = (.ok (), c') ∧ c.Continues c' ∧ c'.server = c.server := by
  rw [tell]
  split
  · exact ⟨c, rfl, .refl c, rfl⟩
  · next helper hhelper =>
    have htell := h hcomplete hnot helper hhelper
    have hload := helper.load_tell .approve c.credential c.host
    split
    next r host hr =>
    rw [hr] at hload htell
    cases htell
    refine ⟨_, rfl, ⟨rfl, rfl, hload, id⟩, rfl⟩

/-- A response is taken, and the helper need not be asked again. -/
theorem settle_eq {c : Client} (h : c.Accepts) (response : Response) :
    ∃ c', c.settle response = (.ok response, c') ∧ c.Continues c' ∧ c'.Accepts ∧
      c'.server = c.server := by
  rw [settle]
  split
  · next hcond =>
    simp only [Bool.and_eq_true, Bool.not_eq_true'] at hcond
    obtain ⟨⟨-, hcomplete⟩, hnot⟩ := hcond
    obtain ⟨told, htell, hcontinues, hserver⟩ := tell_approve_eq h hcomplete hnot
    refine ⟨{ told with approved := true }, by rw [htell], ?_, nofun, hserver⟩
    exact hcontinues.trans ⟨rfl, rfl, rfl, fun _ => rfl⟩
  · exact ⟨c, rfl, .refl c, h, rfl⟩

/-- A helper that should approve the credential and does not spoils a successful response. -/
theorem settle_of_not_accepts {c : Client} (h : ¬ c.Accepts) {response : Response}
    (hok : response.isSuccess = true) : ∃ e, (c.settle response).1 = .error e := by
  simp only [Accepts, not_forall] at h
  obtain ⟨hcomplete, hnot, helper, hhelper, htell⟩ := h
  have hcond : (response.isSuccess && c.credential.isComplete && !c.approved) = true := by
    rw [hok, hcomplete, hnot]
    rfl
  have htold : ∃ e c', c.tell .approve = (.error e, c') := by
    rw [tell, Option.mem_def.mp hhelper]
    rcases hr : helper.tell .approve c.credential c.host with ⟨e | ok, host⟩
    · exact ⟨e, _, by simp only [hr]; rfl⟩
    · rw [hr] at htell
      exact absurd rfl htell
  obtain ⟨e, c', htold⟩ := htold
  exact ⟨e, by rw [settle, if_pos hcond, htold]⟩

section

variable {c : Client} {r : Request} {content : Bytes × Bool} {response : Response}
  {later : List Response}

/-- A request that is answered with success reaches the server, and whether its response is taken
is up to the helper. -/
theorem send_eq_settle (hauth : r.auth = none) (hbody : r.body.content = .ok content)
    (hserver : c.server.responses = response :: later) (hok : response.isSuccess = true) :
    ∃ asked : Client, c.send r = asked.settle response ∧ c.Continues asked ∧
      (asked.Accepts ↔ c.Accepts) ∧
      asked.server = ⟨later, c.server.requests ++ [{ r with auth := c.auth? }.received content]⟩ := by
  have hstatus : response.status ≠ 401 := by
    intro h401
    rw [Response.isSuccess, h401] at hok
    cases hok
  rw [send, execute_eq hauth hbody hserver]
  simp only [if_neg hstatus]
  exact ⟨_, rfl, ⟨rfl, rfl, rfl, id⟩, Iff.rfl, rfl⟩

/-- A request that is answered with success reaches the server, and its response is taken. -/
theorem send_eq_of_accepts (h : c.Accepts) (hauth : r.auth = none)
    (hbody : r.body.content = .ok content) (hserver : c.server.responses = response :: later)
    (hok : response.isSuccess = true) :
    ∃ c', c.send r = (.ok response, c') ∧ c.Continues c' ∧ c'.Accepts ∧
      c'.server = ⟨later, c.server.requests ++ [{ r with auth := c.auth? }.received content]⟩ := by
  obtain ⟨asked, hsend, hcontinues, haccepts, hasked⟩ := send_eq_settle hauth hbody hserver hok
  obtain ⟨c', hsettle, hc', hafter, hsame⟩ := settle_eq (haccepts.mpr h) response
  exact ⟨c', hsend.trans hsettle, hcontinues.trans hc', hafter, hsame.trans hasked⟩

/-- A request that is answered with success is made once, with the credential of the client. -/
theorem send_eq (h : c.Settles) (hauth : r.auth = none) (hbody : r.body.content = .ok content)
    (hserver : c.server.responses = response :: later) (hok : response.isSuccess = true) :
    ∃ c', c.send r = (.ok response, c') ∧ c.Continues c' ∧
      c'.server = ⟨later, c.server.requests ++ [{ r with auth := c.auth? }.received content]⟩ := by
  obtain ⟨c', hsend, hcontinues, -, hserver'⟩ :=
    send_eq_of_accepts h.accepts hauth hbody hserver hok
  exact ⟨c', hsend, hcontinues, hserver'⟩

/-- No response is taken as long as the helper does not approve the credential. -/
theorem send_of_not_accepts (h : ¬ c.Accepts) (hauth : r.auth = none)
    (hbody : r.body.content = .ok content) (hserver : c.server.responses = response :: later)
    (hok : response.isSuccess = true) : ∃ e, (c.send r).1 = .error e := by
  obtain ⟨asked, hsend, -, haccepts, -⟩ := send_eq_settle hauth hbody hserver hok
  rw [hsend]
  exact settle_of_not_accepts (mt haccepts.mp h) hok

end

end Http.Client

/-! ### How a request fails

Sending a request fails where it is not answered, where the credential is refused or where the helper
fails. It never fails for what the caller makes of a response, which comes behind it. -/

namespace CredentialHelper

variable {helper : CredentialHelper} {k k' : Credential} {host host' : Host} {e : RemoteError}
  {action : CredentialAction}

/-- A credential helper that cannot be run is no setback of the operation it is asked for. -/
theorem run_ne_failed (h : helper.run action k host = (.error e, host')) (setback : Setback) :
    e ≠ .failed setback := by
  rw [run] at h
  split at h
  · cases h
    nofun
  · split at h
    · cases h
      nofun
    · rw [answer.eq_def] at h
      split at h <;> cases h <;> nofun

/-- A credential that cannot be filled in is no setback. -/
theorem fill_ne_failed (h : helper.fill k host = (.error e, k', host')) (setback : Setback) :
    e ≠ .failed setback := by
  rw [fill] at h
  split at h
  · next hrun =>
    cases h
    exact run_ne_failed hrun setback
  · dsimp only at h
    split at h <;> cases h
    nofun

/-- A credential that the helper cannot be told of is no setback. -/
theorem tell_ne_failed (h : helper.tell action k host = (.error e, host')) (setback : Setback) :
    e ≠ .failed setback := by
  rw [tell] at h
  split at h
  · next hrun =>
    cases h
    exact run_ne_failed hrun setback
  · cases h

end CredentialHelper

namespace Http.Client

variable {c c' : Client} {r : Request} {e : RemoteError}

/-- A request that cannot be made is no setback. -/
theorem execute_ne_failed (h : c.execute r = (.error e, c')) (setback : Setback) :
    e ≠ .failed setback := by
  have hanswer : (c.server.answer (c.authorize r)).1 = .error e := congrArg Prod.fst h
  rw [Server.answer] at hanswer
  split at hanswer
  · cases hanswer
    nofun
  · dsimp only at hanswer
    split at hanswer <;> cases hanswer
    nofun

/-- An answer that cannot be settled is no setback. -/
theorem settle_ne_failed {response : Response} (h : c.settle response = (.error e, c'))
    (setback : Setback) : e ≠ .failed setback := by
  rw [settle] at h
  split at h
  · split at h
    · next htell =>
      cases h
      rw [tell] at htell
      split at htell
      · cases htell
      · next helper _ =>
        have htold : (helper.tell .approve c.credential c.host).1 = .error e :=
          congrArg Prod.fst htell
        exact CredentialHelper.tell_ne_failed (Prod.ext htold rfl) setback
    · cases h
  · cases h

/-- A second attempt that fails is no setback. -/
theorem retry_ne_failed {helper : CredentialHelper} (h : c.retry r helper = (.error e, c'))
    (setback : Setback) : e ≠ .failed setback := by
  rw [retry] at h
  split at h
  · next hfill =>
    cases h
    have hfilled : (helper.fill c.credential c.host).1 = .error e := congrArg Prod.fst hfill
    exact CredentialHelper.fill_ne_failed (Prod.ext hfilled rfl) setback
  · split at h
    · next hexecute =>
      cases h
      exact execute_ne_failed hexecute setback
    · split at h
      · cases h
        nofun
      · exact settle_ne_failed h setback

/-- A request does not fail for anything that its caller makes of a response. -/
theorem send_ne_failed (h : c.send r = (.error e, c')) (setback : Setback) :
    e ≠ .failed setback := by
  rw [send] at h
  split at h
  · next hexecute =>
    cases h
    exact execute_ne_failed hexecute setback
  · split at h
    · split at h
      · split at h
        · exact retry_ne_failed h setback
        · cases h
          nofun
      · cases h
        nofun
    · exact settle_ne_failed h setback

end Http.Client

end GitRemote
