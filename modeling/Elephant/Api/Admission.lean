import Elephant.Api.FieldSizes
import Elephant.Api.Handlers
import Elephant.Listen.Isolation

/-! Which listens open a session (`api/v2/listen.coffee`, `common/validate.coffee`).

        headers ──▶ client id revoked? ──▶ push id current? ──▶ push id revoked? ──▶ ping interval
           ╰ 4xx          ╰ 403, 500            ╰ 401, 500            ╰ 410, 500          ╰ 400

    The three questions in the middle are put to the database one after the other; everything else is
    decided by the request alone. -/

namespace Elephant.Api.Listen
open Elephant.Schemes Elephant.Model
open Elephant.Push (HttpError)

variable (L : Library) (config : Config)

/-- The request names client `c` and asks for the interval `n`, and nothing is wrong with it. -/
structure WellFormed (req : Request) (c : ClientId) (n : JsNum) : Prop where
  isSpdy : Validate.isSpdy config req = .ok ()
  isGet : Validate.isGet req = .ok ()
  acceptsJson : Validate.acceptsJson req = .ok ()
  clientId : Validate.parseClientId req = .ok c
  given : minPingMissing req.minPingIntervalSec = false
  interval : minPingNumber L req.minPingIntervalSec = n
  positive : notPositive n = false

/-- The ids are those of the database. -/
structure Admitted (c : ClientId) (p : PushId) (db : ListenAnswers) : Prop where
  clientId : db.revokedClientId = .ok none
  current : ∃ k, db.refreshCount = .ok k ∧
    p = Elephant.Refresh.generatePushId L.shaDigest config.SALT c k
  pushId : db.revokedPushId = .ok none

/-- What the database says to the ids. -/
def checkIds (c : ClientId) (p : PushId) (db : ListenAnswers) : Next Unit := do
  Validate.validateRevokedClientId db.revokedClientId
  Validate.validatePushId L config c (.str p) db.refreshCount
  Validate.validateRevokedPushId db.revokedPushId

section

variable {L : Library} {config : Config} {req : Request} {c : ClientId} {p : PushId} {n : JsNum}

theorem refusing_checkIds (db : ListenAnswers) : Refusing (checkIds L config c p db) := by
  refine refusing_bind (Validate.refusing_validateRevoked (by decide) _) fun _ => ?_
  refine refusing_bind (Validate.refusing_validatePushId c _ _) fun _ => ?_
  exact Validate.refusing_validateRevoked (by decide) _

theorem validateRevoked_ok {α : Type} {e : HttpError} {answer : Answer (Option α)} :
    Validate.validateRevoked e answer = .ok () ↔ answer = .ok none := by
  rcases answer with message | (_ | row) <;> simp [Validate.validateRevoked]

theorem validatePushId_ok (hunit : config.NODE_ENV ≠ some "unit") {answer : Answer ℕ} :
    Validate.validatePushId L config c (.str p) answer = .ok () ↔
      ∃ k, answer = .ok k ∧ p = Elephant.Refresh.generatePushId L.shaDigest config.SALT c k := by
  cases answer with
  | error message => simp [Validate.validatePushId]
  | ok k =>
    by_cases h : p = Elephant.Refresh.generatePushId L.shaDigest config.SALT c k
    · simp [Validate.validatePushId, h]
    · simp [Validate.validatePushId, h, hunit]

theorem checkIds_ok (hunit : config.NODE_ENV ≠ some "unit") {db : ListenAnswers} :
    checkIds L config c p db = .ok () ↔ Admitted L config c p db := by
  rw [checkIds, bind_eq_ok]
  constructor
  · rintro ⟨_, hclient, hrest⟩
    obtain ⟨_, hcurrent, hpush⟩ := bind_eq_ok.mp hrest
    exact ⟨validateRevoked_ok.mp hclient, (validatePushId_ok hunit).mp hcurrent,
      validateRevoked_ok.mp hpush⟩
  · intro h
    exact ⟨(), validateRevoked_ok.mpr h.clientId, bind_eq_ok.mpr
      ⟨(), (validatePushId_ok hunit).mpr h.current, validateRevoked_ok.mpr h.pushId⟩⟩

/-! ### One listen -/

/-- A parameter that is there calls back once. -/
theorem WellFormed.validateMinPingInterval_eq {σ : Type} (h : WellFormed L config req c n) :
    (validateMinPingInterval L req : Async σ HttpError JsNum) = Async.lift (.ok n) := by
  funext s
  simp [validateMinPingInterval, h.interval, h.given, h.positive, Async.lift]

theorem validateMinPingInterval_refused {σ : Type}
    (h : ¬ (minPingMissing req.minPingIntervalSec = false ∧
      notPositive (minPingNumber L req.minPingIntervalSec) = false)) (s : σ) :
    ∃ e rest, HttpFailure e ∧ validateMinPingInterval L req s = (s, .calls (.error e :: rest)) := by
  unfold validateMinPingInterval
  cases hmissing : minPingMissing req.minPingIntervalSec with
  | true => exact ⟨_, _, by decide, rfl⟩
  | false =>
    have hpositive : notPositive (minPingNumber L req.minPingIntervalSec) = true := by
      by_contra hnot
      exact h ⟨hmissing, by simpa using hnot⟩
    refine ⟨⟨400, "min_ping_interval_sec must be a positive number."⟩, [], by decide, ?_⟩
    simp [hpositive]

/-- A well-formed request is decided by the database. -/
theorem WellFormed.validate_eq {σ : Type} (h : WellFormed L config req c n) (db : ListenAnswers)
    (s : σ) : validate L config req db s
      = (s, .calls [(checkIds L config c req.pushId db).map fun _ => (c, n)]) := by
  unfold validate checkIds
  simp only [h.isSpdy, h.isGet, h.acceptsJson, h.clientId, h.validateMinPingInterval_eq,
    Async.lift_ok_bind]
  rcases Validate.validateRevokedClientId db.revokedClientId with e | ⟨⟩
  · rfl
  rcases Validate.validatePushId L config c (.str req.pushId) db.refreshCount with e | ⟨⟩
  · simp only [Async.lift_ok_bind, Async.lift_error_bind]
    rfl
  rcases Validate.validateRevokedPushId db.revokedPushId with e | ⟨⟩
  · simp only [Async.lift_ok_bind, Async.lift_error_bind]
    rfl
  · simp only [Async.lift_ok_bind, Async.pure_apply]
    rfl

/-- Any other request is refused. -/
theorem validate_refused {σ : Type} (h : ∀ c n, ¬ WellFormed L config req c n) (db : ListenAnswers)
    (s : σ) : ∃ e, HttpFailure e ∧ validate L config req db s = (s, .calls [.error e]) := by
  unfold validate
  rcases hspdy : Validate.isSpdy config req with e | ⟨⟩
  · exact ⟨e, Validate.refusing_isSpdy e hspdy, rfl⟩
  rcases hget : Validate.isGet req with e | ⟨⟩
  · exact ⟨e, Validate.refusing_isMethodSupported _ e hget, rfl⟩
  rcases haccept : Validate.acceptsJson req with e | ⟨⟩
  · exact ⟨e, Validate.refusing_acceptsJson e haccept, rfl⟩
  rcases hclient : Validate.parseClientId req with e | c
  · exact ⟨e, Validate.refusing_parseBasicAuth e hclient, rfl⟩
  simp only [Async.lift_ok_bind]
  rcases hrevoked : Validate.validateRevokedClientId db.revokedClientId with e | ⟨⟩
  · exact ⟨e, Validate.refusing_validateRevoked (by decide) _ e hrevoked, rfl⟩
  simp only [Async.lift_ok_bind]
  rcases hcurrent : Validate.validatePushId L config c (.str req.pushId) db.refreshCount with e | ⟨⟩
  · exact ⟨e, Validate.refusing_validatePushId _ _ _ e hcurrent, rfl⟩
  simp only [Async.lift_ok_bind]
  rcases hpush : Validate.validateRevokedPushId db.revokedPushId with e | ⟨⟩
  · exact ⟨e, Validate.refusing_validateRevoked (by decide) _ e hpush, rfl⟩
  simp only [Async.lift_ok_bind]
  -- only the interval is left to be wrong
  have hwrong : ¬ (minPingMissing req.minPingIntervalSec = false ∧
      notPositive (minPingNumber L req.minPingIntervalSec) = false) := by
    rintro ⟨hgiven, hpositive⟩
    exact h c _ ⟨hspdy, hget, haccept, hclient, hgiven, rfl, hpositive⟩
  obtain ⟨e, rest, he, hping⟩ := validateMinPingInterval_refused hwrong s
  refine ⟨e, he, ?_⟩
  rw [Async.bind_apply, Async.bind, hping]
  rfl

variable (L config)

/-- The request is well formed and its ids are those of the database. -/
def Passes (req : Request) (db : ListenAnswers) (c : ClientId) (n : JsNum) : Prop :=
  WellFormed L config req c n ∧ Admitted L config c req.pushId db

variable {L config}

/-- The request and the database leave nothing open about a session. -/
theorem tasks_eq {db : ListenAnswers} {now : ℕ} {socket : SocketId} {w : Listen.SpdyServer}
    (h : validate L config req db w = (w, .calls [.ok (c, n)])) :
    tasks L config req db now socket w = (w.listen now ⟨socket, c, req.pushId, req.isSpdy⟩,
      .calls [.ok (pingIntervalSec config.MIN_SOCKET_TIMEOUT_SEC n)]) := by
  rw [tasks, Async.bind_apply, Async.bind, h]
  simp only [Async.proceed_one, createClientInfo, createSession, notifyMasterAddClient,
    setReqSocketCloseHandler, Async.update_bind, Async.pure_apply]
  rfl

theorem handle_ok {db : ListenAnswers} {now : ℕ} {socket : SocketId} {w : Listen.SpdyServer}
    (h : validate L config req db w = (w, .calls [.ok (c, n)])) :
    handle L config req db now socket w = (w.listen now ⟨socket, c, req.pushId, req.isSpdy⟩,
      some (complete config (.ok (pingIntervalSec config.MIN_SOCKET_TIMEOUT_SEC n)))) := by
  rw [handle, tasks_eq h, finish]
  simp

theorem handle_error {db : ListenAnswers} {now : ℕ} {socket : SocketId} {w : Listen.SpdyServer}
    {e : HttpError} (h : validate L config req db w = (w, .calls [.error e])) :
    handle L config req db now socket w = (w, some (complete config (.error e))) := by
  rw [handle, tasks, Async.bind_apply, Async.bind, h]
  simp [Async.proceed, finish]

/-- A listen that is accepted opens a session for its ids and tells the master; every other one is
    answered with an error and changes nothing. -/
theorem handle_cases (L : Library) (hunit : config.NODE_ENV ≠ some "unit") (req : Request)
    (db : ListenAnswers) (now : ℕ) (socket : SocketId) (w : Listen.SpdyServer) :
    (∃ c n, Passes L config req db c n ∧ handle L config req db now socket w
        = (w.listen now ⟨socket, c, req.pushId, req.isSpdy⟩,
          some (complete config (.ok (pingIntervalSec config.MIN_SOCKET_TIMEOUT_SEC n))))) ∨
      ((∀ c n, ¬ Passes L config req db c n) ∧ ∃ e, HttpFailure e ∧
        handle L config req db now socket w = (w, some (complete config (.error e)))) := by
  by_cases hform : ∃ c n, WellFormed L config req c n
  · obtain ⟨c, n, hform⟩ := hform
    have hvalidate := hform.validate_eq db w
    cases hids : checkIds L config c req.pushId db with
    | ok u =>
      rw [hids] at hvalidate
      exact .inl ⟨c, n, ⟨hform, (checkIds_ok hunit).mp hids⟩, handle_ok hvalidate⟩
    | error e =>
      rw [hids] at hvalidate
      refine .inr ⟨fun c' n' haccepts => ?_, e, refusing_checkIds db e hids, handle_error hvalidate⟩
      obtain rfl : c' = c := Except.ok.inj (haccepts.1.clientId.symm.trans hform.clientId)
      rw [(checkIds_ok hunit).mpr haccepts.2] at hids
      exact absurd hids (by simp)
  · obtain ⟨e, he, hvalidate⟩ := validate_refused (fun c n h => hform ⟨c, n, h⟩) db w
    exact .inr ⟨fun c n h => hform ⟨c, n, h.1⟩, e, he, handle_error hvalidate⟩

/-- Every answer of the handler is that of its stages run without a break: all of them, or none after
    the validation. -/
theorem handle_schedule (L : Library) (hunit : config.NODE_ENV ≠ some "unit") {req : Request}
    (hclient : Validate.parseClientId req = .ok c) (db : ListenAnswers) (now : ℕ) (socket : SocketId)
    {p : Listen.Pipeline} (hr : p.requests[p.server.nextRef]?
      = some ⟨⟨socket, c, req.pushId, req.isSpdy⟩, .validate⟩) :
    ∃ valid n p', run Listen.pipelineStep p
        (List.replicate n (.advance p.server.nextRef now valid)) = some p' ∧
      p'.server = { (handle L config req db now socket p.server).1 with nextRef := p.server.nextRef } ∧
      (valid = true ↔ ∃ ping, (handle L config req db now socket p.server).2
        = some (complete config (.ok ping))) := by
  rcases handle_cases L hunit req db now socket p.server with
    ⟨c', n, hpasses, hhandle⟩ | ⟨-, e, -, hhandle⟩
  · obtain rfl : c' = c := Except.ok.inj (hpasses.1.clientId.symm.trans hclient)
    obtain ⟨p', hrun, hserver, -⟩ := Listen.run_stages hr now
    refine ⟨true, 5, p', hrun, ?_, ?_⟩
    · rw [hserver, hhandle]
    · exact iff_of_true rfl ⟨_, by rw [hhandle]⟩
  · refine ⟨false, 1, _, run_cons_some.mpr ⟨_, Listen.step_advance hr rfl, rfl⟩, ?_, ?_⟩
    · rw [hhandle]
    · simp [hhandle, complete]

end

end Elephant.Api.Listen
