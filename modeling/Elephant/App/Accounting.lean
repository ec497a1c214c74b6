import Elephant.App.LocalPush

/-! Responses and audit records of the five handlers.

    Each handler writes its response and its audit record by hand in a completion of its own. What the
    completions have in common is proved of the waterfalls before them: a waterfall that does not throw
    calls the completion once, and with an error only if its status is an error status. Which requests
    make a task throw is said of the requests, of the answers they get and of the state they find. -/

namespace Elephant.App
open Elephant.Schemes Elephant.Model Elephant.Listen Elephant.Api
open Elephant.Push (HttpError)
open Elephant.Push.PushCallback (statusOf)
open Async (lift liftThrow update Final Settled)

/-- A request to a handler, with what the database answers and the state it finds. -/
inductive HandlerCall where
  | register (req : Api.Request) (generated : ClientId)
  | listen (req : Api.Request) (db : ListenAnswers) (now : ℕ) (socket : SocketId) (w : SpdyServer)
  | refresh (req : Api.Request) (db : RefreshAnswers) (counted : List ClientId)
  | ack (req : Api.Request) (db : AckAnswers) (s : AckEffects)
  | push (req : Api.Request) (db : PushAnswers) (m : Master)

def HandlerCall.isRefresh : HandlerCall → Bool
  | .refresh .. => true
  | _ => false

/-- What the handler writes; `none` if it throws. -/
def outputs (L : Library) (config : Config) : HandlerCall → Option (List Output)
  | .register req generated => (Register.handle L config req generated ()).2
  | .listen req db now socket w => (Api.Listen.handle L config req db now socket w).2
  | .refresh req db counted => (Api.Refresh.handle L config req db counted).2
  | .ack req db s => (Ack.handle L config req db s).2
  | .push req db m => (Push.handle L config req db m).2

def audits (outs : List Output) : List Audit := outs.filterMap fun
  | .response _ _ => none
  | .audit record => some record

/-- One response and one audit record with its status for code. -/
def Matched (outs : List Output) (status : ℕ) (success : Bool) : Prop :=
  ∃ body record, responses outs = [(status, body)] ∧ audits outs = [record] ∧
    record.code = status ∧ record.success = success

/-- The record says success iff the status is 200. -/
def Accounted (out : Option (List Output)) : Prop :=
  ∃ outs status success, out = some outs ∧ Matched outs status success ∧
    (success = true ↔ status = 200)

/-! ### The requests that make a handler throw -/

section

variable (L : Library) (config : Config) (req : Api.Request)

/-- A registration that passes the checks before its body is looked at. -/
structure RegisterReads (body : Json) : Prop where
  isSpdy : Validate.isSpdy config req = .ok ()
  method : Validate.isPost req = .ok ()
  contentType : Validate.isJson req = .ok ()
  accept : Validate.acceptsJson req = .ok ()
  credentials : Validate.validateClientBasicAuth L config req = .ok ()
  body : Validate.parseJson L req = .ok body

/-- The same of an ack, and of the client it names. -/
structure AckReads (db : AckAnswers) (clientId : ClientId) (body : Json) : Prop where
  isSpdy : Validate.isSpdy config req = .ok ()
  method : Validate.isPost req = .ok ()
  contentType : Validate.isJson req = .ok ()
  client : Validate.parseClientId req = .ok clientId
  notRevoked : Validate.validateRevokedClientId db.revokedClientId = .ok ()
  body : Validate.parseJson L req = .ok body

/-- The same of a push, and of the client it is for. -/
structure PushReads (db : PushAnswers) (client : ClientMap.Row) (body : Json) : Prop where
  client : db.client = .ok (some client)
  method : Validate.isPost req = .ok ()
  contentType : Validate.isJson req = .ok ()
  accept : Validate.acceptsJson req = .ok ()
  credentials : Validate.validateAppBasicAuth L config req = .ok ()
  body : Validate.parseJson L req = .ok body
  notRevoked : Validate.validateRevokedPushId db.revokedPushId = .ok ()

/-- The bodies of a push that no stage throws on. -/
structure PushShaped (body : Json) : Prop where
  notNull : body ≠ .null
  message : ∀ m, field body "message" = some m → Json.truthy (some m) = true → LengthOk m
  callback : ∀ m c, field body "message" = some m → Json.truthy (some m) = true →
    Api.Push.tooLong L.numbers m = .ok false → field body "callback" = some c →
    Json.truthy (some c) = true → CallbackOk L.numbers L.urlParse c

/-- What is stored of a callback password. -/
def Encrypts (params : Api.Push.Params) (password : Option String) : Prop :=
  (Push.callbackField params.callback "password").map L.aesEncrypt = password.map .ok

end

/-- Every way for a task to throw: a body of the wrong shape, a client id, a request id or a worker id
    under which a table has nothing but what every object inherits, a request id that is no property
    name, a password that cannot be encrypted. A listen never throws. -/
inductive Throwing (L : Library) (config : Config) : HandlerCall → Prop
  | registerBody {req : Api.Request} {generated : ClientId} {body : Json}
      (hreads : RegisterReads L config req body)
      (hbody : body = .null ∨
        ∃ members, body = .obj members ∧ Json.own members "hasOwnProperty" ≠ none) :
      Throwing L config (.register req generated)
  | ackBody {req : Api.Request} {db : AckAnswers} {s : AckEffects} {clientId : ClientId}
      (hreads : AckReads L config req db clientId .null) : Throwing L config (.ack req db s)
  | ackSession {req : Api.Request} {db : AckAnswers} {s : AckEffects} {clientId : ClientId}
      {body requestId : Json} (hreads : AckReads L config req db clientId body)
      (hid : field body "request_id" = some requestId) (htrue : Json.truthy (some requestId) = true)
      (hsession : db.getSession clientId = some .inherited) : Throwing L config (.ack req db s)
  | ackName {req : Api.Request} {db : AckAnswers} {s : AckEffects} {clientId : ClientId}
      {body requestId : Json} {session : Session} (hreads : AckReads L config req db clientId body)
      (hid : field body "request_id" = some requestId) (htrue : Json.truthy (some requestId) = true)
      (hsession : db.getSession clientId = some (.own session))
      (hname : requestId.convertible = false) : Throwing L config (.ack req db s)
  | ackTimer {req : Api.Request} {db : AckAnswers} {s : AckEffects} {clientId : ClientId}
      {body requestId : Json} {session : Session} {name : String}
      (hreads : AckReads L config req db clientId body)
      (hid : field body "request_id" = some requestId) (htrue : Json.truthy (some requestId) = true)
      (hsession : db.getSession clientId = some (.own session))
      (hname : requestId.toText L.numbers = .ok name)
      (htimer : db.getPushTimer session name = some .inherited) : Throwing L config (.ack req db s)
  | pushBody {req : Api.Request} {db : PushAnswers} {m : Master} {client : ClientMap.Row}
      {body : Json} (hreads : PushReads L config req db client body) (hbody : ¬ PushShaped L body) :
      Throwing L config (.push req db m)
  | pushPassword {req : Api.Request} {db : PushAnswers} {m : Master} {client : ClientMap.Row}
      {body : Json} {params : Api.Push.Params} {password : Json}
      (hreads : PushReads L config req db client body)
      (hparams : Api.Push.parsePushMessage L.numbers L.urlParse body = .ok (.ok params))
      (hpassword : Push.callbackField params.callback "password" = some password)
      (hencrypt : (L.aesEncrypt password).isOk = false) : Throwing L config (.push req db m)
  | pushWorker {req : Api.Request} {db : PushAnswers} {m : Master} {client : ClientMap.Row}
      {body : Json} {params : Api.Push.Params} {password : Option String} {k : ℕ}
      (hreads : PushReads L config req db client body)
      (hparams : Api.Push.parsePushMessage L.numbers L.urlParse body = .ok (.ok params))
      (hpassword : Encrypts L params password) (hstored : db.stored = .ok k)
      (hinserted : m.pushRequests.insert (Push.pushRow db client params.callback password k) ≠ none)
      (hworker : client.workerid ∈ protoNames ∧ client.workerid ∉ m.workers) :
      Throwing L config (.push req db m)

/-! ### One call of the completion -/

theorem final_lift_bind {σ α β : Type} {x : Next α} {f : α → Async σ HttpError β} (hx : Refusing x)
    (hf : ∀ a s, Final HttpFailure (f a s).2) (s : σ) :
    Final HttpFailure ((lift x >>= f) s).2 :=
  Async.final_bind (fun s => (Async.final_lift hx s).settled) hf s

theorem final_liftThrow_bind {σ α β : Type} {x : Except Throw (Next α)}
    {f : α → Async σ HttpError β} (hx : RefusingOrThrowing x)
    (hf : ∀ a s, Final HttpFailure (f a s).2) (s : σ) :
    Final HttpFailure ((liftThrow x >>= f) s).2 :=
  Async.final_bind (fun s => (Async.final_liftThrow hx s).settled) hf s

section

variable (L : Library) (config : Config) (req : Api.Request)

theorem final_registerValidate {σ : Type} (s : σ) :
    Final HttpFailure (Register.validate L config req s).2 := by
  refine final_lift_bind Validate.refusing_isSpdy (fun _ => ?_) s
  refine final_lift_bind (Validate.refusing_isMethodSupported _) fun _ => ?_
  refine final_lift_bind Validate.refusing_isJson fun _ => ?_
  refine final_lift_bind Validate.refusing_acceptsJson fun _ => ?_
  refine final_lift_bind (Validate.refusing_validateBasicAuth _) fun _ => ?_
  refine final_lift_bind Validate.refusing_parseJson fun body => ?_
  exact Async.final_liftThrow (refusing_validateJson body)

theorem final_register (generated : ClientId) (s : Unit) :
    Final HttpFailure (Register.tasks L config req generated s).2 := by
  refine Async.final_bind (fun s => (final_registerValidate L config req s).settled) (fun _ => ?_) s
  refine final_lift_bind ?_ fun clientId s => .ok _
  unfold Register.generateClientId
  split
  · exact refusing_error (by decide)
  · exact refusing_ok _

/-- This task may repeat its error. -/
theorem settled_validateMinPingInterval {σ : Type} (s : σ) :
    Settled HttpFailure (Api.Listen.validateMinPingInterval L req s).2 := by
  unfold Api.Listen.validateMinPingInterval
  by_cases hmissing : Api.Listen.minPingMissing req.minPingIntervalSec = true
  · simp only [hmissing, if_true]
    exact .error _ (by decide)
  · simp only [hmissing, Bool.false_eq_true, if_false, List.nil_append]
    split
    · exact .error _ (by decide)
    · exact .ok _

theorem final_listenValidate {σ : Type} (db : ListenAnswers) (s : σ) :
    Final HttpFailure (Api.Listen.validate L config req db s).2 := by
  refine final_lift_bind Validate.refusing_isSpdy (fun _ => ?_) s
  refine final_lift_bind (Validate.refusing_isMethodSupported _) fun _ => ?_
  refine final_lift_bind Validate.refusing_acceptsJson fun _ => ?_
  refine final_lift_bind Validate.refusing_parseBasicAuth fun clientId => ?_
  refine final_lift_bind (Validate.refusing_validateRevoked (by decide) _) fun _ => ?_
  refine final_lift_bind (Validate.refusing_validatePushId _ _ _) fun _ => ?_
  refine final_lift_bind (Validate.refusing_validateRevoked (by decide) _) fun _ => ?_
  exact Async.final_bind (settled_validateMinPingInterval L req) fun _ _ => .ok _

theorem final_listen (db : ListenAnswers) (now : ℕ) (socket : SocketId) (w : SpdyServer) :
    Final HttpFailure (Api.Listen.tasks L config req db now socket w).2 := by
  refine Async.final_bind (fun s => (final_listenValidate L config req db s).settled)
    (fun params w => ?_) w
  simp only [Api.Listen.createClientInfo, Api.Listen.createSession,
    Api.Listen.notifyMasterAddClient, Api.Listen.setReqSocketCloseHandler, Async.update_bind]
  exact .ok _

theorem final_refresh (db : RefreshAnswers) (counted : List ClientId) :
    Final HttpFailure (Api.Refresh.tasks L config req db counted).2 := by
  refine Async.final_bind (fun s => Final.settled ?_) (fun clientId => ?_) counted
  · refine final_lift_bind Validate.refusing_isSpdy (fun _ => ?_) s
    refine final_lift_bind (Validate.refusing_isMethodSupported _) fun _ => ?_
    refine final_lift_bind Validate.refusing_isJson fun _ => ?_
    refine final_lift_bind Validate.refusing_acceptsJson fun _ => ?_
    refine final_lift_bind Validate.refusing_parseBasicAuth fun clientId => ?_
    refine final_lift_bind (Validate.refusing_validateRevoked (by decide) _) fun _ => ?_
    refine final_lift_bind Validate.refusing_parseJson fun body => ?_
    refine final_liftThrow_bind (refusing_parseField body) fun pushId => ?_
    exact final_lift_bind (Validate.refusing_validatePushId _ _ _) fun _ _ => .ok _
  · refine Async.final_bind (fun s => ?_) fun _ => Async.final_lift ?_
    · unfold Api.Refresh.incrementRefreshCount
      cases db.incremented with
      | error e => exact .error [] (by decide)
      | ok => exact .ok _
    · unfold Api.Refresh.generatePushId
      cases db.newRefreshCount with
      | error e => exact refusing_error (by decide)
      | ok count => exact refusing_ok _

theorem final_ackValidate {σ : Type} (db : AckAnswers) (s : σ) :
    Final HttpFailure (Ack.validate L config req db s).2 := by
  refine final_lift_bind Validate.refusing_isSpdy (fun _ => ?_) s
  refine final_lift_bind (Validate.refusing_isMethodSupported _) fun _ => ?_
  refine final_lift_bind Validate.refusing_isJson fun _ => ?_
  refine final_lift_bind Validate.refusing_parseBasicAuth fun clientId => ?_
  refine final_lift_bind (Validate.refusing_validateRevoked (by decide) _) fun _ => ?_
  refine final_lift_bind Validate.refusing_parseJson fun body => ?_
  exact final_liftThrow_bind (refusing_parseField body) fun _ _ => .ok _

theorem settled_cancelPushTimer (db : AckAnswers) (clientId : ClientId) (requestId : Json)
    (s : AckEffects) : Settled HttpFailure (Ack.cancelPushTimer L db clientId requestId s).2 := by
  unfold Ack.cancelPushTimer
  split
  · exact .error [] (by decide)
  · exact .throws
  · split
    · exact .throws
    · split
      · exact .error [] (by decide)
      · exact .throws
      · exact .ok _

theorem final_ack (db : AckAnswers) (s : AckEffects) :
    Final HttpFailure (Ack.tasks L config req db s).2 := by
  refine Async.final_bind (fun s => (final_ackValidate L config req db s).settled) (fun params => ?_) s
  refine Async.final_bind (settled_cancelPushTimer L db _ _) fun push =>
    final_lift_bind ?_ fun _ _ => .ok _
  unfold Ack.getPushRequest
  split
  · exact refusing_error (by decide)
  · exact refusing_error (by decide)
  · exact refusing_ok _

theorem final_pushValidate {σ : Type} (db : PushAnswers) (s : σ) :
    Final HttpFailure (Push.validate L config req db s).2 := by
  refine final_lift_bind (Validate.refusing_isMethodSupported _) (fun _ => ?_) s
  refine final_lift_bind Validate.refusing_isJson fun _ => ?_
  refine final_lift_bind Validate.refusing_acceptsJson fun _ => ?_
  refine final_lift_bind (Validate.refusing_validateBasicAuth _) fun _ => ?_
  refine final_lift_bind Validate.refusing_parseJson fun body => ?_
  refine final_lift_bind (Validate.refusing_validateRevoked (by decide) _) fun _ => ?_
  exact Async.final_liftThrow (refusing_parsePushMessage _ _ body)

theorem settled_createPushRequest (db : PushAnswers) (client : ClientMap.Row)
    (params : Api.Push.Params) (s : Handling) :
    Settled HttpFailure (Push.createPushRequest L db client params s).2 := by
  rcases Push.createPushRequest_cases L db client params s with h | h | ⟨row, t, -, -, h⟩ <;> rw [h]
  · exact .throws
  · exact .error [] (by decide)
  · exact .ok _

theorem settled_sendPushRequestToWorker (row : PushRow) (message : Json) (s : Handling) :
    Settled HttpFailure (Push.sendPushRequestToWorker row message s).2 := by
  unfold Push.sendPushRequestToWorker
  split
  · exact .ok _
  · exact .throws
  · exact .error [] (by decide)

theorem final_push (db : PushAnswers) (s : Handling) :
    Final HttpFailure (Push.tasks L config req db s).2 := by
  refine final_lift_bind ?_ (fun client => ?_) s
  · unfold Push.getClientInfo
    split
    · exact refusing_error (by decide)
    · exact refusing_error (by decide)
    · exact refusing_ok _
  refine Async.final_bind (fun s => (final_pushValidate L config req db s).settled) fun params => ?_
  refine Async.final_bind (settled_createPushRequest L db client params) fun row => ?_
  exact Async.final_bind (settled_sendPushRequestToWorker row params.message) fun _ _ => .ok _

end

/-! ### The tasks that throw -/

section

open Async (Throws Gives throws_bind throws_lift_bind throws_liftThrow throws_liftThrow_bind
  not_throws_lift not_throws_pure gives_lift_bind gives_liftThrow gives_liftThrow_bind gives_pure)

variable {L : Library} {config : Config} {req : Api.Request}

theorem register_throws_iff {generated : ClientId} {s : Unit} :
    Throws (Register.tasks L config req generated) s ↔
      Throwing L config (.register req generated) := by
  have hshape (body : Json) : (Register.validateJson body).isOk = false ↔ body = .null ∨
      ∃ members, body = .obj members ∧ Json.own members "hasOwnProperty" ≠ none := by
    rw [← Bool.not_eq_true, validateJson_isOk, not_and_or, not_not]
    push Not
    rfl
  rw [Register.tasks, throws_bind (final_registerValidate L config req s).settled]
  simp only [throws_lift_bind, not_throws_pure, and_false, exists_false, or_false,
    Register.validate, throws_liftThrow, hshape]
  constructor
  · rintro ⟨⟨⟩, h₁, ⟨⟩, h₂, ⟨⟩, h₃, ⟨⟩, h₄, ⟨⟩, h₅, body, h₆, hbody⟩
    exact .registerBody ⟨h₁, h₂, h₃, h₄, h₅, h₆⟩ hbody
  · rintro ⟨⟨h₁, h₂, h₃, h₄, h₅, h₆⟩, hbody⟩
    exact ⟨(), h₁, (), h₂, (), h₃, (), h₄, (), h₅, _, h₆, hbody⟩

/-- None of the tasks of a listen reads a body or calls a method of what it has found. -/
theorem listen_not_throws (db : ListenAnswers) (now : ℕ) (socket : SocketId) (w : SpdyServer) :
    ¬ Throws (Api.Listen.tasks L config req db now socket) w := by
  have hping : ∀ w, ¬ Throws (Api.Listen.validateMinPingInterval L req : Async SpdyServer _ _) w :=
    fun _ h => nomatch h
  rw [Api.Listen.tasks, throws_bind (final_listenValidate L config req db w).settled]
  rintro (h | ⟨params, w', -, h⟩)
  · simp only [Api.Listen.validate, throws_lift_bind] at h
    obtain ⟨-, -, -, -, -, -, clientId, -, -, -, -, -, -, -, h⟩ := h
    rw [throws_bind (settled_validateMinPingInterval L req w)] at h
    rcases h with h | ⟨_, _, -, h⟩
    · exact hping w h
    · exact not_throws_pure h
  · simp [Throws, Api.Listen.createClientInfo, Api.Listen.createSession,
      Api.Listen.notifyMasterAddClient, Api.Listen.setReqSocketCloseHandler] at h

/-- The lookups of an ack throw on what is inherited, and on a request id that is no name. -/
theorem cancelPushTimer_throws_iff {db : AckAnswers} {clientId : ClientId} {requestId : Json}
    {s : AckEffects} : Throws (Ack.cancelPushTimer L db clientId requestId) s ↔
      db.getSession clientId = some .inherited ∨
      ∃ session, db.getSession clientId = some (.own session) ∧
        (requestId.convertible = false ∨ ∃ name, requestId.toText L.numbers = .ok name ∧
          db.getPushTimer session name = some .inherited) := by
  rw [Throws, Ack.cancelPushTimer, ← Json.toText_isOk L.numbers]
  rcases db.getSession clientId with _ | (session | _)
  · simp
  · rcases requestId.toText L.numbers with _ | name
    · simp [Except.isOk, Except.toBool]
    · rcases ht : db.getPushTimer session name with _ | (_ | _) <;>
        simp [Except.isOk, Except.toBool, ht]
  · simp

theorem parseField_eq_ok {name message : String} {body : Json} {value : Option Json} :
    parseField name message body = .ok (.ok value) ↔
      ∃ v, value = some v ∧ field body name = some v ∧ Json.truthy (some v) = true := by
  by_cases hb : body = .null
  · subst hb
    simp [parseField, Json.get, bind, Except.bind, field, Except.toOption]
  · rw [parseField, get_eq hb]
    cases hv : field body name with
    | none => simp [bind, Except.bind, pure, Except.pure, Json.truthy]
    | some v =>
      cases ht : Json.truthy (some v) with
      | true => simpa [bind, Except.bind, pure, Except.pure, ht] using eq_comm
      | false => simp [bind, Except.bind, pure, Except.pure, ht]

theorem ackValidate_throws_iff {σ : Type} {db : AckAnswers} {s : σ} :
    Throws (Ack.validate L config req db) s ↔ ∃ clientId, AckReads L config req db clientId .null := by
  have hshape (body : Json) : (Ack.parseRequestId body).isOk = false ↔ body = .null := by
    rw [Ack.parseRequestId, ← Bool.not_eq_true, parseField_isOk, not_not]
  simp only [Ack.validate, throws_lift_bind, throws_liftThrow_bind, not_throws_pure, and_false,
    exists_false, or_false, hshape]
  constructor
  · rintro ⟨⟨⟩, h₁, ⟨⟩, h₂, ⟨⟩, h₃, clientId, h₄, ⟨⟩, h₅, body, h₆, rfl⟩
    exact ⟨clientId, h₁, h₂, h₃, h₄, h₅, h₆⟩
  · rintro ⟨clientId, h₁, h₂, h₃, h₄, h₅, h₆⟩
    exact ⟨(), h₁, (), h₂, (), h₃, clientId, h₄, (), h₅, .null, h₆, rfl⟩

theorem ackValidate_gives_iff {σ : Type} {db : AckAnswers} {s s' : σ} {clientId : ClientId}
    {requestId : Json} : Gives (Ack.validate L config req db) s s' (clientId, requestId) ↔
      ∃ body, AckReads L config req db clientId body ∧ field body "request_id" = some requestId ∧
        Json.truthy (some requestId) = true ∧ s' = s := by
  simp only [Ack.validate, gives_lift_bind, gives_liftThrow_bind, gives_pure]
  constructor
  · rintro ⟨⟨⟩, h₁, ⟨⟩, h₂, ⟨⟩, h₃, clientId, h₄, ⟨⟩, h₅, body, h₆, value, hid, ⟨⟩, rfl⟩
    obtain ⟨v, rfl, hfield, htrue⟩ := parseField_eq_ok.mp hid
    exact ⟨body, ⟨h₁, h₂, h₃, h₄, h₅, h₆⟩, hfield, htrue, rfl⟩
  · rintro ⟨body, ⟨h₁, h₂, h₃, h₄, h₅, h₆⟩, hfield, htrue, rfl⟩
    exact ⟨(), h₁, (), h₂, (), h₃, clientId, h₄, (), h₅, body, h₆, some requestId,
      parseField_eq_ok.mpr ⟨requestId, rfl, hfield, htrue⟩, rfl, rfl⟩

/-- What follows the cancelled timer does not throw. -/
theorem ackCancel_throws_iff {db : AckAnswers} {clientId : ClientId} {requestId : Json}
    {s : AckEffects} : Throws (Ack.cancelPushTimer L db clientId requestId >>= fun _ => do
        let pushRequest ← lift (Ack.getPushRequest db)
        Ack.sendCallback pushRequest) s ↔ Throws (Ack.cancelPushTimer L db clientId requestId) s := by
  rw [throws_bind (settled_cancelPushTimer L db _ _ _)]
  refine or_iff_left ?_
  rintro ⟨_, _, -, h⟩
  rw [throws_lift_bind] at h
  obtain ⟨pushRequest, -, h⟩ := h
  simp [Throws, Ack.sendCallback, update] at h

theorem ack_throws_iff {db : AckAnswers} {s : AckEffects} :
    Throws (Ack.tasks L config req db) s ↔ Throwing L config (.ack req db s) := by
  rw [Ack.tasks, throws_bind (final_ackValidate L config req db s).settled, ackValidate_throws_iff]
  constructor
  · rintro (⟨clientId, hreads⟩ | ⟨⟨clientId, requestId⟩, s', hgives, h⟩)
    · exact .ackBody hreads
    · obtain ⟨body, hreads, hid, htrue, rfl⟩ := ackValidate_gives_iff.mp hgives
      rcases cancelPushTimer_throws_iff.mp (ackCancel_throws_iff.mp h) with
        hs | ⟨session, hs, hname | ⟨name, hname, ht⟩⟩
      · exact .ackSession hreads hid htrue hs
      · exact .ackName hreads hid htrue hs hname
      · exact .ackTimer hreads hid htrue hs hname ht
  · -- the checks pass, and the lookup of the session or of the timer throws
    have hlookup {clientId : ClientId} {body v : Json} (hreads : AckReads L config req db clientId body)
        (hid : field body "request_id" = some v) (htrue : Json.truthy (some v) = true)
        (h : Throws (Ack.cancelPushTimer L db clientId v) s) :
        ∃ params s', Gives (Ack.validate L config req db) s s' params ∧
          Throws (Ack.cancelPushTimer L db params.1 params.2 >>= fun _ => do
            let pushRequest ← lift (Ack.getPushRequest db)
            Ack.sendCallback pushRequest) s' :=
      ⟨(clientId, v), s, ackValidate_gives_iff.mpr ⟨body, hreads, hid, htrue, rfl⟩,
        ackCancel_throws_iff.mpr h⟩
    intro h
    cases h with
    | ackBody hreads => exact .inl ⟨_, hreads⟩
    | ackSession hreads hid htrue hs =>
      exact .inr (hlookup hreads hid htrue (cancelPushTimer_throws_iff.mpr (.inl hs)))
    | ackName hreads hid htrue hs hname =>
      exact .inr (hlookup hreads hid htrue
        (cancelPushTimer_throws_iff.mpr (.inr ⟨_, hs, .inl hname⟩)))
    | ackTimer hreads hid htrue hs hname ht =>
      exact .inr (hlookup hreads hid htrue
        (cancelPushTimer_throws_iff.mpr (.inr ⟨_, hs, .inr ⟨_, hname, ht⟩⟩)))

theorem pushShaped_iff {body : Json} :
    (Api.Push.parsePushMessage L.numbers L.urlParse body).isOk = true ↔ PushShaped L body := by
  by_cases hb : body = .null
  · subst hb
    exact iff_of_false (fun h => nomatch h) fun h => h.notNull rfl
  · rw [parsePushMessage_isOk hb]
    exact ⟨fun h => ⟨hb, h.1, h.2⟩, fun h => ⟨h.message, h.callback⟩⟩

theorem getClientInfo_eq_ok {answer : Answer (Option ClientMap.Row)} {client : ClientMap.Row} :
    Push.getClientInfo answer = .ok client ↔ answer = .ok (some client) := by
  rcases answer with e | (_ | row) <;> simp [Push.getClientInfo]

theorem createPushRequest_throws_iff {db : PushAnswers} {client : ClientMap.Row}
    {params : Api.Push.Params} {s : Handling} :
    Throws (Push.createPushRequest L db client params) s ↔
      ∃ password, Push.callbackField params.callback "password" = some password ∧
        (L.aesEncrypt password).isOk = false := by
  have hadd (password : Option String) :
      ¬ Throws (Push.addPushRequest db client params.callback password) s := by
    intro h
    rcases Push.addPushRequest_cases db client params.callback password s with h' | ⟨row, t, -, -, h'⟩ <;>
      simp [Throws, h'] at h
  rw [Throws, Push.createPushRequest]
  cases Push.callbackField params.callback "password" with
  | none => simpa [Throws] using hadd none
  | some password =>
    rcases he : L.aesEncrypt password with t | encrypted
    · simp [he, Except.isOk, Except.toBool]
    · simpa [he, Throws, Except.isOk, Except.toBool] using hadd (some encrypted)

/-- The row that is stored, and where it is stored. -/
theorem createPushRequest_gives_iff {db : PushAnswers} {client : ClientMap.Row}
    {params : Api.Push.Params} {s s' : Handling} {row : PushRow} :
    Gives (Push.createPushRequest L db client params) s s' row ↔
      ∃ password k t, Encrypts L params password ∧ db.stored = .ok k ∧
        s.master.pushRequests.insert (Push.pushRow db client params.callback password k) = some t ∧
        row = Push.pushRow db client params.callback password k ∧
        s' = { s with master := { s.master with pushRequests := t } } := by
  have hadd (password : Option String) :
      Gives (Push.addPushRequest db client params.callback password) s s' row ↔
        ∃ k t, db.stored = .ok k ∧
          s.master.pushRequests.insert (Push.pushRow db client params.callback password k) = some t ∧
          row = Push.pushRow db client params.callback password k ∧
          s' = { s with master := { s.master with pushRequests := t } } := by
    rw [Gives, Push.addPushRequest]
    rcases db.stored with e | k
    · simp
    · cases ht : s.master.pushRequests.insert (Push.pushRow db client params.callback password k) with
      | none => simp [ht]
      | some t => simp [ht, eq_comm, and_comm]
  rw [Gives, Push.createPushRequest]
  simp only [Encrypts]
  rcases (Push.callbackField params.callback "password").map L.aesEncrypt with _ | (t | encrypted)
  · refine (hadd none).trans ⟨?_, ?_⟩
    · rintro ⟨k, t, h⟩
      exact ⟨none, k, t, rfl, h⟩
    · rintro ⟨password, k, t, hpassword, h⟩
      obtain rfl : password = none := by simpa using hpassword
      exact ⟨k, t, h⟩
  · refine iff_of_false (by simp) ?_
    rintro ⟨password, k, t, hpassword, -⟩
    cases password <;> simp at hpassword
  · refine (hadd (some encrypted)).trans ⟨?_, ?_⟩
    · rintro ⟨k, t, h⟩
      exact ⟨some encrypted, k, t, rfl, h⟩
    · rintro ⟨password, k, t, hpassword, h⟩
      obtain ⟨_, rfl, ⟨⟩⟩ := Option.map_eq_some_iff.mp hpassword.symm
      exact ⟨k, t, h⟩

theorem sendPushRequestToWorker_throws_iff {row : PushRow} {message : Json} {s : Handling} :
    Throws (Push.sendPushRequestToWorker row message) s ↔
      row.workerId ∈ protoNames ∧ row.workerId ∉ s.master.workers := by
  rw [Throws, Push.sendPushRequestToWorker, PlainObject.read, ← AList.lookup_eq_none]
  cases s.master.workers.lookup row.workerId with
  | some u => simp
  | none => by_cases h : row.workerId ∈ protoNames <;> simp [h]

theorem pushValidate_throws_iff {σ : Type} {db : PushAnswers} {client : ClientMap.Row} {s : σ}
    (hclient : db.client = .ok (some client)) : Throws (Push.validate L config req db) s ↔
      ∃ body, PushReads L config req db client body ∧ ¬ PushShaped L body := by
  simp only [Push.validate, throws_lift_bind, throws_liftThrow, ← pushShaped_iff, Bool.not_eq_true]
  constructor
  · rintro ⟨⟨⟩, h₁, ⟨⟩, h₂, ⟨⟩, h₃, ⟨⟩, h₄, body, h₅, ⟨⟩, h₆, hbody⟩
    exact ⟨body, ⟨hclient, h₁, h₂, h₃, h₄, h₅, h₆⟩, hbody⟩
  · rintro ⟨body, ⟨-, h₁, h₂, h₃, h₄, h₅, h₆⟩, hbody⟩
    exact ⟨(), h₁, (), h₂, (), h₃, (), h₄, body, h₅, (), h₆, hbody⟩

theorem pushValidate_gives_iff {σ : Type} {db : PushAnswers} {client : ClientMap.Row} {s s' : σ}
    {params : Api.Push.Params} (hclient : db.client = .ok (some client)) :
    Gives (Push.validate L config req db) s s' params ↔
      ∃ body, PushReads L config req db client body ∧
        Api.Push.parsePushMessage L.numbers L.urlParse body = .ok (.ok params) ∧ s' = s := by
  simp only [Push.validate, gives_lift_bind, gives_liftThrow]
  constructor
  · rintro ⟨⟨⟩, h₁, ⟨⟩, h₂, ⟨⟩, h₃, ⟨⟩, h₄, body, h₅, ⟨⟩, h₆, hparams, rfl⟩
    exact ⟨body, ⟨hclient, h₁, h₂, h₃, h₄, h₅, h₆⟩, hparams, rfl⟩
  · rintro ⟨body, ⟨-, h₁, h₂, h₃, h₄, h₅, h₆⟩, hparams, rfl⟩
    exact ⟨(), h₁, (), h₂, (), h₃, (), h₄, body, h₅, (), h₆, hparams, rfl⟩

/-- After the checks the password or the lookup of the worker can throw. -/
theorem pushRest_throws_iff {db : PushAnswers} {client : ClientMap.Row} {params : Api.Push.Params}
    {m : Master} : Throws (Push.createPushRequest L db client params >>= fun row => do
        Push.sendPushRequestToWorker row params.message
        return row.requestId) ⟨m, []⟩ ↔
      (∃ password, Push.callbackField params.callback "password" = some password ∧
        (L.aesEncrypt password).isOk = false) ∨
      ∃ password k, Encrypts L params password ∧ db.stored = .ok k ∧
        m.pushRequests.insert (Push.pushRow db client params.callback password k) ≠ none ∧
        client.workerid ∈ protoNames ∧ client.workerid ∉ m.workers := by
  rw [throws_bind (settled_createPushRequest L db client params _), createPushRequest_throws_iff]
  refine or_congr_right ⟨?_, ?_⟩
  · rintro ⟨row, s', hgives, h⟩
    obtain ⟨password, k, t, hpassword, hstored, ht, rfl, rfl⟩ := createPushRequest_gives_iff.mp hgives
    rw [throws_bind (settled_sendPushRequestToWorker _ _ _), sendPushRequestToWorker_throws_iff] at h
    rcases h with hworker | ⟨_, _, -, h⟩
    · exact ⟨password, k, hpassword, hstored, by rw [ht]; simp, hworker⟩
    · exact absurd h not_throws_pure
  · rintro ⟨password, k, hpassword, hstored, hinserted, hworker⟩
    obtain ⟨t, ht⟩ := Option.ne_none_iff_exists'.mp hinserted
    refine ⟨_, _, createPushRequest_gives_iff.mpr
      ⟨password, k, t, hpassword, hstored, ht, rfl, rfl⟩, ?_⟩
    rw [throws_bind (settled_sendPushRequestToWorker _ _ _)]
    exact .inl (sendPushRequestToWorker_throws_iff.mpr hworker)

theorem push_throws_iff {db : PushAnswers} {m : Master} :
    Throws (Push.tasks L config req db) ⟨m, []⟩ ↔ Throwing L config (.push req db m) := by
  simp only [Push.tasks, throws_lift_bind, getClientInfo_eq_ok, Push.localPush,
    throws_bind (final_pushValidate L config req db _).settled]
  constructor
  · rintro ⟨client, hclient, h | ⟨params, s', hgives, h⟩⟩
    · obtain ⟨body, hreads, hbody⟩ := (pushValidate_throws_iff hclient).mp h
      exact .pushBody hreads hbody
    · obtain ⟨body, hreads, hparams, rfl⟩ := (pushValidate_gives_iff hclient).mp hgives
      rcases pushRest_throws_iff.mp h with
        ⟨password, hpassword, hencrypt⟩ | ⟨password, k, hpassword, hstored, hinserted, hworker⟩
      · exact .pushPassword hreads hparams hpassword hencrypt
      · exact .pushWorker hreads hparams hpassword hstored hinserted hworker
  · intro h
    cases h with
    | pushBody hreads hbody =>
      exact ⟨_, hreads.client, .inl ((pushValidate_throws_iff hreads.client).mpr ⟨_, hreads, hbody⟩)⟩
    | pushPassword hreads hparams hpassword hencrypt =>
      exact ⟨_, hreads.client, .inr ⟨_, _,
        (pushValidate_gives_iff hreads.client).mpr ⟨_, hreads, hparams, rfl⟩,
        pushRest_throws_iff.mpr (.inl ⟨_, hpassword, hencrypt⟩)⟩⟩
    | pushWorker hreads hparams hpassword hstored hinserted hworker =>
      exact ⟨_, hreads.client, .inr ⟨_, _,
        (pushValidate_gives_iff hreads.client).mpr ⟨_, hreads, hparams, rfl⟩,
        pushRest_throws_iff.mpr (.inr ⟨_, _, hpassword, hstored, hinserted, hworker⟩)⟩⟩

end

/-! ### The completions -/

theorem statusOf_failure {e : HttpError} (h : HttpFailure e) : statusOf (some e) = e.status := by
  have hne : e.status ≠ 0 := by unfold HttpFailure at h; omega
  simp [statusOf, hne]

/-- A completion that writes a response and a record for each result, with the flags `good` and
    `bad`. -/
structure Completes {α : Type} (complete : Except HttpError α → List Output) (good bad : Bool) :
    Prop where
  ok : ∀ a, Matched (complete (.ok a)) 200 good
  error : ∀ e, HttpFailure e → Matched (complete (.error e)) e.status bad

theorem completes_register : Completes Register.complete true false where
  ok _ := ⟨_, _, rfl, rfl, rfl, rfl⟩
  error _ _ := ⟨_, _, rfl, rfl, rfl, rfl⟩

theorem completes_listen (config : Config) : Completes (Api.Listen.complete config) true false where
  ok _ := ⟨_, _, rfl, rfl, rfl, rfl⟩
  error _ he := ⟨_, _, rfl, rfl, statusOf_failure he, rfl⟩

theorem completes_refresh : Completes Api.Refresh.complete false true where
  ok _ := ⟨_, _, rfl, rfl, rfl, rfl⟩
  error _ he := ⟨_, _, rfl, rfl, statusOf_failure he, rfl⟩

theorem completes_ack : Completes Ack.complete true false where
  ok _ := ⟨_, _, rfl, rfl, rfl, rfl⟩
  error _ he := ⟨_, _, rfl, rfl, statusOf_failure he, rfl⟩

theorem completes_push : Completes Push.complete true false where
  ok _ := ⟨_, _, rfl, rfl, rfl, rfl⟩
  error _ he := ⟨_, _, rfl, rfl, statusOf_failure he, rfl⟩

/-- The flag that goes with the status. -/
def flag (good bad : Bool) (status : ℕ) : Bool := if status = 200 then good else bad

/-- One call of such a completion, if there is one at all. -/
theorem matched_of_final {σ α : Type} {complete : Except HttpError α → List Output} {good bad : Bool}
    (hc : Completes complete good bad) {r : σ × Reply HttpError α} (hr : Final HttpFailure r.2) :
    ∀ outs, (finish complete r).2 = some outs →
      ∃ status, Matched outs status (flag good bad status) := by
  obtain ⟨s, reply⟩ := r
  intro outs houts
  cases hr with
  | throws => simp [finish] at houts
  | ok a =>
    simp only [finish, Option.some.injEq] at houts
    subst houts
    exact ⟨200, by simpa [flag] using hc.ok a⟩
  | @error e he =>
    simp only [finish, Option.some.injEq] at houts
    subst houts
    have hne : e.status ≠ 200 := by unfold HttpFailure at he; omega
    exact ⟨e.status, by simpa [flag, hne] using hc.error e he⟩

/-- Every handler that does not throw writes one response and one record with its status; the flag of
    the refresh handler is the wrong way round. -/
theorem matched_outputs (L : Library) (config : Config) (call : HandlerCall) :
    ∀ outs, outputs L config call = some outs →
      ∃ status, Matched outs status (flag (!call.isRefresh) call.isRefresh status) := by
  cases call with
  | register req generated =>
    exact matched_of_final completes_register (final_register L config req generated ())
  | listen req db now socket w =>
    exact matched_of_final (completes_listen config) (final_listen L config req db now socket w)
  | refresh req db counted =>
    exact matched_of_final completes_refresh (final_refresh L config req db counted)
  | ack req db s => exact matched_of_final completes_ack (final_ack L config req db s)
  | push req db m => exact matched_of_final completes_push (final_push L config req db ⟨m, []⟩)

theorem Matched.unique {outs : List Output} {status status' : ℕ} {success success' : Bool}
    (h : Matched outs status success) (h' : Matched outs status' success') :
    status = status' ∧ success = success' := by
  obtain ⟨body, record, hr, ha, hcode, hflag⟩ := h
  obtain ⟨body', record', hr', ha', hcode', hflag'⟩ := h'
  have hrec : record = record' := by simpa using ha.symm.trans ha'
  subst hrec
  exact ⟨hcode.symm.trans hcode', hflag.symm.trans hflag'⟩

theorem finish_eq_none {σ α : Type} {complete : Except HttpError α → List Output}
    {x : Async σ HttpError α} {s : σ} : (finish complete (x s)).2 = none ↔ Async.Throws x s := by
  rw [Async.Throws]
  rcases x s with ⟨s', _ | _⟩ <;> simp [finish]

/-- A handler other than the one of refreshes writes nothing iff one of its tasks throws. -/
theorem outputs_eq_none {L : Library} {config : Config} {call : HandlerCall}
    (h : call.isRefresh = false) : outputs L config call = none ↔ Throwing L config call := by
  cases call with
  | register req generated => exact finish_eq_none.trans register_throws_iff
  | listen req db now socket w =>
    refine iff_of_false (fun hnone => ?_) fun h => nomatch h
    exact listen_not_throws db now socket w (finish_eq_none.mp hnone)
  | refresh req db counted => simp [HandlerCall.isRefresh] at h
  | ack req db s => exact finish_eq_none.trans ack_throws_iff
  | push req db m => exact finish_eq_none.trans push_throws_iff

end Elephant.App
