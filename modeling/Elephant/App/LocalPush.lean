import Elephant.Api.Handlers
import Elephant.App.Dispatch

/-! A push to a client of this server (`api/app/v2/push.coffee`, `model/pushrequest.coffee`,
    `persistence/mysqlpushrequest.coffee`, `pool/poollayer.coffee`).

    After the checks the push request is stored, then handed to the worker. If the worker is gone the
    handler answers 404 and starts two deletes that nobody waits for:

        getClientInfo ─▶ validate ─▶ createPushRequest ─▶ sendPushRequestToWorker ─▶ 200
            ╰─ 404, 500     ╰─ 4xx, 500     ╰─ 500               ╰─ 404, cleanup

    The main result says that the answer 200 is given for exactly the pushes that are stored and
    handed over, and that every other answer leaves nothing behind. -/

namespace Elephant.App
open Elephant.Schemes Elephant.Model Elephant.ClientMap Elephant.Api
open Elephant.Push (HttpError)
open Elephant.Push.PushCallback (statusOf)
open Async (lift liftThrow)

/-- A row of `push_requests`. -/
structure PushRow where
  pushIndex : ℕ
  requestId : String
  clientId : ClientId
  pushId : PushId
  serverId : ServerId
  workerId : String
  callbackUrl : Option Json
  callbackUsername : Option Json
  callbackPassword : Option String
  startTime : ℕ

/-- The message `SERVER_PUSH`. -/
structure ServerPush where
  clientId : ClientId
  pushId : PushId
  pushIndex : ℕ
  requestId : String
  data : Json

/-- The master process with the tables it writes; `workers` is `cluster.workers`, and `sent` are the
    messages to workers. -/
structure Master where
  workers : PlainObject Unit
  clientmap : ClientTable
  pushRequests : Table PushRow.pushIndex PushRow.requestId
  sent : List (String × ServerPush)

/-- A delete that was started and not waited for. -/
inductive Cleanup where
  | removeClient (pushId : PushId)
  | deletePushRequest (pushIndex : ℕ)
  deriving DecidableEq, Repr

def Master.run (m : Master) : Cleanup → Master
  | .removeClient pushId => { m with clientmap := MySqlClientMap.remove m.clientmap pushId }
  | .deletePushRequest pushIndex => { m with pushRequests := m.pushRequests.destroy pushIndex }

/-- What a handler works on: the master and the deletes it has started. -/
structure Handling where
  master : Master
  cleanup : List Cleanup

/-- Once the pending operations have finished. -/
def Handling.settled (h : Handling) : Master := h.cleanup.foldl Master.run h.master

/-- What the database answers to the calls of one push, with the index it assigns, and the time and
    the id that the request gets. -/
structure PushAnswers where
  client : Answer (Option Row)
  revokedPushId : Answer (Option Unit)
  stored : Answer ℕ
  requestId : String
  startTime : ℕ

/-- `helper.copyObjectPrimitives` keeps a property unless it is an object. -/
def primitive : Option Json → Option Json
  | some .null => none
  | some (.arr _) => none
  | some (.obj _) => none
  | v => v

namespace Push

variable (L : Library) (config : Config) (req : Request) (db : PushAnswers)

def validate {σ : Type} : Async σ HttpError Api.Push.Params := do
  lift (Validate.isPost req)
  lift (Validate.isJson req)
  lift (Validate.acceptsJson req)
  lift (Validate.validateAppBasicAuth L config req)
  let body ← lift (Validate.parseJson L req)
  lift (Validate.validateRevokedPushId db.revokedPushId)
  liftThrow (Api.Push.parsePushMessage L.numbers L.urlParse body)

/-- `callback?.name`, as far as `PushRequest.create` keeps it. -/
def callbackField (callback : Option Json) (name : String) : Option Json :=
  primitive (callback.bind fun c => field c name)

def pushRow (client : Row) (callback : Option Json) (password : Option String) (pushIndex : ℕ) :
    PushRow where
  pushIndex := pushIndex
  requestId := db.requestId
  clientId := client.clientid
  pushId := client.pushid
  serverId := client.hostname
  workerId := client.workerid
  callbackUrl := callbackField callback "url"
  callbackUsername := callbackField callback "username"
  callbackPassword := password
  startTime := db.startTime

def notPersisted : HttpError := ⟨500, "failed to persist push request"⟩

/-- `PushRequestMysqlStorage.addPushRequest`; a request id that is taken is an error as well. -/
def addPushRequest (client : Row) (callback : Option Json) (password : Option String) :
    Async Handling HttpError PushRow := fun s =>
  match db.stored with
  | .error _ => (s, .calls [.error notPersisted])
  | .ok pushIndex =>
    match s.master.pushRequests.insert (pushRow db client callback password pushIndex) with
    | none => (s, .calls [.error notPersisted])
    | some t => ({ s with master := { s.master with pushRequests := t } },
        .calls [.ok (pushRow db client callback password pushIndex)])

/-- The password is encrypted before the request is stored, which may throw. -/
def createPushRequest (client : Row) (params : Api.Push.Params) :
    Async Handling HttpError PushRow := fun s =>
  match (callbackField params.callback "password").map L.aesEncrypt with
  | none => addPushRequest db client params.callback none s
  | some (.ok password) => addPushRequest db client params.callback (some password) s
  | some (.error _) => (s, .throws)

/-- `PoolLayer.sendMsgToWorker` and what follows it. What `cluster.workers` inherits has no `send`. -/
def sendPushRequestToWorker (pushRequest : PushRow) (message : Json) :
    Async Handling HttpError Unit := fun s =>
  match s.master.workers.read pushRequest.workerId with
  | some (.own _) => ({ s with master := { s.master with
      sent := s.master.sent ++ [(pushRequest.workerId, { clientId := pushRequest.clientId
                                                         pushId := pushRequest.pushId
                                                         pushIndex := pushRequest.pushIndex
                                                         requestId := pushRequest.requestId
                                                         data := message })] } }, .calls [.ok ()])
  | some .inherited => (s, .throws)
  | none => ({ s with cleanup := s.cleanup ++ [.removeClient pushRequest.pushId,
      .deletePushRequest pushRequest.pushIndex] }, .calls [.error ⟨404, "worker not found"⟩])

def localPush (client : Row) : Async Handling HttpError String := do
  let params ← validate L config req db
  let pushRequest ← createPushRequest L db client params
  sendPushRequestToWorker pushRequest params.message
  return pushRequest.requestId

/-- The tasks of `handle` for a client of this server. -/
def tasks : Async Handling HttpError String := do
  let client ← lift (getClientInfo db.client)
  localPush L config req db client

/-- `handleLocalPushResult`. -/
def complete : Except HttpError String → List Output
  | .error e => [errorResponse e, .audit ⟨"push-request", false, statusOf (some e),
      some (if e.message = "" then "request created" else e.message)⟩]
  | .ok requestId => [.response 200 (.obj [("request_id", .str requestId)]),
      .audit ⟨"push-request", true, statusOf none, some "request created"⟩]

def handle (m : Master) : Handling × Option (List Output) :=
  finish complete (tasks L config req db ⟨m, []⟩)

/-! ### The checks -/

/-- The checks that a push has to pass, with the parameters that the last one leaves. -/
structure Passed (params : Api.Push.Params) : Prop where
  method : Validate.isPost req = .ok ()
  contentType : Validate.isJson req = .ok ()
  accept : Validate.acceptsJson req = .ok ()
  credentials : Validate.validateAppBasicAuth L config req = .ok ()
  notRevoked : Validate.validateRevokedPushId db.revokedPushId = .ok ()
  message : ∃ body, Validate.parseJson L req = .ok body ∧
    Api.Push.parsePushMessage L.numbers L.urlParse body = .ok (.ok params)

theorem validate_checks {σ : Type} :
    Async.Checks (Passed L config req db) (validate L config req db : Async σ HttpError _) := by
  refine (Async.checks_lift _).bind fun _ hmethod => ?_
  refine (Async.checks_lift _).bind fun _ htype => ?_
  refine (Async.checks_lift _).bind fun _ haccept => ?_
  refine (Async.checks_lift _).bind fun _ hauth => ?_
  refine (Async.checks_lift _).bind fun body hbody => ?_
  refine (Async.checks_lift _).bind fun _ hrevoked => ?_
  exact (Async.checks_liftThrow _).mono fun params hparams =>
    ⟨hmethod, htype, haccept, hauth, hrevoked, body, hbody, hparams⟩

/-! ### The outcomes -/

/-- The message for a stored push. -/
def messageOf (row : PushRow) (message : Json) : ServerPush :=
  ⟨row.clientId, row.pushId, row.pushIndex, row.requestId, message⟩

/-- The push request is about the client that was looked up. -/
structure Describes (row : PushRow) (client : Row) : Prop where
  clientId : row.clientId = client.clientid
  pushId : row.pushId = client.pushid
  workerId : row.workerId = client.workerid

/-- Everything that can come of a push: it is refused before it is stored, the process throws, the
    worker is gone, or the push is stored and handed over. -/
inductive Outcome (L : Library) (config : Config) (req : Request) (db : PushAnswers) (m : Master) :
    Handling × Reply HttpError String → Prop
  | refused (e : HttpError) : Outcome L config req db m (⟨m, []⟩, .calls [.error e])
  | thrown {m' : Master} (h : m'.sent = m.sent) : Outcome L config req db m (⟨m', []⟩, .throws)
  | workerGone {client : Row} {row : PushRow} {t : Table PushRow.pushIndex PushRow.requestId}
      (hclient : db.client = .ok (some client)) (hrow : Describes row client)
      (ht : m.pushRequests.insert row = some t) (hgone : m.workers.read client.workerid = none) :
      Outcome L config req db m (⟨{ m with pushRequests := t },
        [.removeClient row.pushId, .deletePushRequest row.pushIndex]⟩,
        .calls [.error ⟨404, "worker not found"⟩])
  | handedOver {client : Row} {params : Api.Push.Params} {row : PushRow}
      {t : Table PushRow.pushIndex PushRow.requestId} (hclient : db.client = .ok (some client))
      (hpassed : Passed L config req db params) (hrow : Describes row client)
      (ht : m.pushRequests.insert row = some t)
      (halive : m.workers.read client.workerid = some (.own ())) :
      Outcome L config req db m (⟨{ m with
        pushRequests := t
        sent := m.sent ++ [(row.workerId, messageOf row params.message)] }, []⟩,
        .calls [.ok row.requestId])

/-- Storing a push: refused, or one row more. -/
theorem addPushRequest_cases (client : Row) (callback : Option Json) (password : Option String)
    (s : Handling) :
    addPushRequest db client callback password s = (s, .calls [.error notPersisted]) ∨
    ∃ row t, Describes row client ∧
      s.master.pushRequests.insert row = some t ∧
      addPushRequest db client callback password s
        = ({ s with master := { s.master with pushRequests := t } }, .calls [.ok row]) := by
  unfold addPushRequest
  cases db.stored with
  | error e => exact .inl rfl
  | ok pushIndex =>
    cases ht : s.master.pushRequests.insert (pushRow db client callback password pushIndex) with
    | none => left; simp [ht]
    | some t => exact .inr ⟨_, t, ⟨rfl, rfl, rfl⟩, ht, by simp [ht]⟩

theorem createPushRequest_cases (client : Row) (params : Api.Push.Params) (s : Handling) :
    createPushRequest L db client params s = (s, .throws) ∨
    createPushRequest L db client params s = (s, .calls [.error notPersisted]) ∨
    ∃ row t, Describes row client ∧
      s.master.pushRequests.insert row = some t ∧
      createPushRequest L db client params s
        = ({ s with master := { s.master with pushRequests := t } }, .calls [.ok row]) := by
  unfold createPushRequest
  rcases (callbackField params.callback "password").map L.aesEncrypt with _ | (_ | password)
  · exact .inr (addPushRequest_cases db client params.callback none s)
  · exact .inl rfl
  · exact .inr (addPushRequest_cases db client params.callback (some password) s)

theorem localPush_outcome {client : Row} (hclient : db.client = .ok (some client)) (m : Master) :
    Outcome L config req db m (localPush L config req db client ⟨m, []⟩) := by
  unfold localPush
  rw [Async.bind_apply, Async.bind]
  rcases validate_checks L config req db (Handling.mk m []) with
    h | ⟨e, h⟩ | ⟨params, hpassed, h⟩ <;> rw [h]
  · exact .thrown rfl
  · exact .refused e
  · simp only [Async.proceed_one]
    rw [Async.bind_apply, Async.bind]
    rcases createPushRequest_cases L db client params ⟨m, []⟩ with
      h | h | ⟨row, t, hrow, ht, h⟩ <;> rw [h]
    · exact .thrown rfl
    · exact .refused _
    · simp only [Async.proceed_one]
      rw [Async.bind_apply, Async.bind, sendPushRequestToWorker]
      rcases hworker : m.workers.read row.workerId with _ | (_ | _)
      · exact .workerGone hclient hrow ht (hrow.workerId ▸ hworker)
      · exact .handedOver hclient hpassed hrow ht (hrow.workerId ▸ hworker)
      · exact .thrown rfl

theorem tasks_outcome (m : Master) :
    Outcome L config req db m (tasks L config req db ⟨m, []⟩) := by
  unfold tasks
  rcases hdb : db.client with e | (_ | client)
  · exact .refused _
  · exact .refused _
  · simp only [getClientInfo, Async.lift_ok_bind]
    exact localPush_outcome L config req db hdb m

/-! ### All or nothing -/

/-- The response is 200 with the request id. -/
def Answered (out : Option (List Output)) (requestId : String) : Prop :=
  ∃ outs, out = some outs ∧ .response 200 (.obj [("request_id", .str requestId)]) ∈ outs

/-- One row with the request id was added, and one message with its index, the client id that was
    looked up and the validated message was sent to the worker that was looked up. -/
def HandedOver (L : Library) (config : Config) (req : Request) (db : PushAnswers) (m m' : Master)
    (requestId : String) : Prop :=
  ∃ client params row, db.client = .ok (some client) ∧ Passed L config req db params ∧
    row.requestId = requestId ∧ m'.pushRequests.rows = m.pushRequests.rows ++ [row] ∧
    m'.sent = m.sent ++ [(client.workerid, ⟨client.clientid, row.pushId, row.pushIndex, requestId,
      params.message⟩)]

/-- `h` and `out` are what a push makes of the master `m`. -/
structure AllOrNothing (L : Library) (config : Config) (req : Request) (db : PushAnswers) (m : Master)
    (h : Handling) (out : Option (List Output)) : Prop where
  answered_iff : ∀ requestId, Answered out requestId ↔
    HandedOver L config req db m h.settled requestId
  otherwise : ∀ outs, out = some outs → (¬ ∃ requestId, Answered out requestId) →
    h.settled.sent = m.sent ∧ h.settled.pushRequests = m.pushRequests
  thrown : out = none → h.settled.sent = m.sent
  checked : h.settled.sent ≠ m.sent → ∃ params, Passed L config req db params

/-- An error response has no request id. -/
theorem not_answered_error (e : HttpError) (requestId : String) :
    ¬ Answered (some ([.error e].flatMap complete)) requestId := by
  rintro ⟨outs, houts, hmem⟩
  obtain rfl := Option.some.inj houts
  simp [complete, errorResponse] at hmem

theorem answered_ok (r requestId : String) :
    Answered (some ([.ok r].flatMap complete)) requestId ↔ requestId = r := by
  simp [Answered, complete, eq_comm]

theorem not_handedOver {m m' : Master} (h : m'.sent = m.sent) (requestId : String) :
    ¬ HandedOver L config req db m m' requestId := by
  rintro ⟨_, _, _, _, _, _, _, hsent⟩
  rw [h] at hsent
  simpa using congrArg List.length hsent

/-- A push that sends nothing and leaves the table as it was, unless the process throws. -/
theorem allOrNothing_nothing {m : Master} {h : Handling} {out : Option (List Output)}
    (hout : ∀ requestId, ¬ Answered out requestId) (hsent : h.settled.sent = m.sent)
    (hrows : ∀ outs, out = some outs → h.settled.pushRequests = m.pushRequests) :
    AllOrNothing L config req db m h out where
  answered_iff requestId :=
    iff_of_false (hout requestId) (not_handedOver L config req db hsent requestId)
  otherwise outs houts _ := ⟨hsent, hrows outs houts⟩
  thrown _ := hsent
  checked hne := absurd hsent hne

/-- A push that is stored and handed over. -/
theorem allOrNothing_handedOver {m : Master} {client : Row} {params : Api.Push.Params} {row : PushRow}
    {t : Table PushRow.pushIndex PushRow.requestId} (hclient : db.client = .ok (some client))
    (hpassed : Passed L config req db params) (hrow : Describes row client)
    (ht : m.pushRequests.insert row = some t) :
    AllOrNothing L config req db m
      ⟨{ m with
          pushRequests := t
          sent := m.sent ++ [(row.workerId, messageOf row params.message)] }, []⟩
      (some ([.ok row.requestId].flatMap complete)) where
  answered_iff requestId := by
    rw [answered_ok]
    have hrows := (Table.insert_eq_some ht).1
    constructor
    · rintro rfl
      refine ⟨client, params, row, hclient, hpassed, rfl, hrows, ?_⟩
      show m.sent ++ [(row.workerId, messageOf row params.message)] = _
      rw [hrow.workerId, messageOf, hrow.clientId]
    · rintro ⟨_, _, row', _, _, hid, hrows', _⟩
      have hsame : row' = row := by simpa using hrows'.symm.trans hrows
      rw [← hid, hsame]
  otherwise _ _ hno := absurd ⟨row.requestId, (answered_ok _ _).mpr rfl⟩ hno
  thrown hnone := by simp at hnone
  checked _ := ⟨params, hpassed⟩

end Push

/-- For every request, state of the master, answer of the database and library: a local push is
    answered with 200 and a request id iff it was stored under that id and handed to the worker; every
    other answer leaves no message and, when the deletes have finished, the table as it was. -/
theorem localPush_allOrNothing (L : Library) (config : Config) (req : Request) (db : PushAnswers)
    (m : Master) :
    Push.AllOrNothing L config req db m (Push.handle L config req db m).1
      (Push.handle L config req db m).2 := by
  have houtcome := Push.tasks_outcome L config req db m
  unfold Push.handle
  generalize Push.tasks L config req db ⟨m, []⟩ = result at houtcome
  cases houtcome with
  | refused e =>
    exact Push.allOrNothing_nothing L config req db (Push.not_answered_error e) rfl fun _ _ => rfl
  | thrown hsent =>
    exact Push.allOrNothing_nothing L config req db (by rintro _ ⟨_, h, _⟩; simp [finish] at h) hsent
      (by simp [finish])
  | workerGone hclient hrow ht hgone =>
    exact Push.allOrNothing_nothing L config req db (Push.not_answered_error _) rfl
      fun _ _ => Table.destroy_insert ht
  | handedOver hclient hpassed hrow ht halive =>
    exact Push.allOrNothing_handedOver L config req db hclient hpassed hrow ht

end Elephant.App
