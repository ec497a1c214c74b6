import Elephant.Api.Validate
import Elephant.Schemes.Waterfall

/-! The request handlers of a worker (`api/v2/register.coffee`, `api/v2/listen.coffee`,
    `api/v2/refresh.coffee`, `api/v2/ack.coffee`, `common/request.coffee`).

    A handler is a waterfall with a completion: for each call of the final callback it writes the
    response and the audit record. The state that a handler works on is what it can change: the
    sessions of the worker, the refresh counts, the push timers. What the database and the session
    tables answer is given with the request, so any other request may run in between. -/

namespace Elephant.Api
open Elephant.Schemes Elephant.Model Elephant.Listen
open Elephant.Push (HttpError PushMsg PushRequest)
open Elephant.Push.PushCallback (statusOf)
open Async (lift liftThrow update)

/-- A record of the audit log, without its `extra`. -/
structure Audit where
  event : String
  success : Bool
  code : ℕ
  message : Option String
  deriving DecidableEq, Repr

/-- What leaves a handler. -/
inductive Output where
  | response (status : ℕ) (body : Json)
  | audit (record : Audit)

def responses (outs : List Output) : List (ℕ × Json) := outs.filterMap fun
  | .response status body => some (status, body)
  | .audit _ => none

/-- The response to an error, and the body of one without content. -/
def errorResponse (e : HttpError) : Output :=
  .response e.status (.obj [("error", .str e.message)])

/-- A handler runs its tasks, and its completion for every call of the final callback; `none` says
    that the process has thrown. -/
def finish {σ α : Type} (complete : Except HttpError α → List Output) :
    σ × Reply HttpError α → σ × Option (List Output)
  | (s, .throws) => (s, none)
  | (s, .calls results) => (s, some (results.flatMap complete))

/-! ### Register -/

namespace Register

variable {σ : Type} (L : Library) (config : Config) (req : Request)

def validate : Async σ HttpError Unit := do
  lift (Validate.isSpdy config req)
  lift (Validate.isPost req)
  lift (Validate.isJson req)
  lift (Validate.acceptsJson req)
  lift (Validate.validateClientBasicAuth L config req)
  let body ← lift (Validate.parseJson L req)
  liftThrow (validateJson body)

/-- The id is made of random bytes; one that could not be generated is empty. -/
def generateClientId (generated : ClientId) : Next ClientId :=
  if generated = "" then .error ⟨500, "Could not generate clientId"⟩ else .ok generated

def tasks (generated : ClientId) : Async σ HttpError (ClientId × PushId) := do
  validate L config req
  let clientId ← lift (generateClientId generated)
  return (clientId, Refresh.Register.generatePushId L.shaDigest config.SALT clientId)

/-- `logFailure` and `logSuccess` come before the response. -/
def complete : Except HttpError (ClientId × PushId) → List Output
  | .error e => [.audit ⟨"client-register", false, e.status, some e.message⟩, errorResponse e]
  | .ok (clientId, pushId) => [.audit ⟨"client-register", true, 200, none⟩,
      .response 200 (.obj [("client_id", .str clientId), ("push_id", .str pushId)])]

/-- Registering changes nothing that is kept. -/
def handle (generated : ClientId) : Unit → Unit × Option (List Output) := fun s =>
  finish complete (tasks L config req generated s)

end Register

/-! ### Listen -/

/-- What the database answers to the calls of one listen. -/
structure ListenAnswers where
  revokedClientId : Answer (Option Unit)
  refreshCount : Answer ℕ
  revokedPushId : Answer (Option Unit)

namespace Listen

variable (L : Library) (config : Config) (req : Request) (db : ListenAnswers)

/-- `Number(query.min_ping_interval_sec)`: an absent parameter is `undefined`, a repeated one a list. -/
def minPingNumber : List String → JsNum
  | [value] => L.numbers.ofText value
  | _ => .nan

def minPingMissing : List String → Bool
  | [] => true
  | [value] => decide (value = "")
  | _ => false

def notPositive : JsNum → Bool
  | .nan => true
  | .negInf => true
  | .fin q => decide (q ≤ 0)
  | .posInf => false

/-- Without the parameter it calls back twice. -/
def validateMinPingInterval {σ : Type} : Async σ HttpError JsNum := fun s =>
  let number := minPingNumber L req.minPingIntervalSec
  let first : List (Except HttpError JsNum) :=
    if minPingMissing req.minPingIntervalSec then
      [.error ⟨400, "min_ping_interval_sec is required."⟩]
    else []
  let second : Except HttpError JsNum :=
    if notPositive number then .error ⟨400, "min_ping_interval_sec must be a positive number."⟩
    else .ok number
  (s, .calls (first ++ [second]))

/-- The client id and the ping interval. -/
def validate {σ : Type} : Async σ HttpError (ClientId × JsNum) := do
  lift (Validate.isSpdy config req)
  lift (Validate.isGet req)
  lift (Validate.acceptsJson req)
  let clientId ← lift (Validate.parseClientId req)
  lift (Validate.validateRevokedClientId db.revokedClientId)
  lift (Validate.validatePushId L config clientId (.str req.pushId) db.refreshCount)
  lift (Validate.validateRevokedPushId db.revokedPushId)
  let minPingIntervalSec ← validateMinPingInterval L req
  return (clientId, minPingIntervalSec)

/-- `_setSocketTimeout`: half of the larger of the minimum and twice the client's interval. -/
def pingIntervalSec (minSocketTimeoutSec : ℚ) : JsNum → JsNum
  | .nan => .nan
  | .negInf => .fin (minSocketTimeoutSec / 2)
  | .fin q => .fin (max minSocketTimeoutSec (q * 2) / 2)
  | .posInf => .posInf

def createClientInfo (socket : SocketId) (clientId : ClientId) : Async SpdyServer HttpError ClientInfo :=
  update fun w => (w, w.createClientInfo ⟨socket, clientId, req.pushId, req.isSpdy⟩)

def createSession (now : ℕ) (clientInfo : ClientInfo) : Async SpdyServer HttpError Session :=
  update fun w =>
    let (w', session) := w.createSession w.nextRef now clientInfo
    ({ w' with nextRef := w.nextRef + 1 }, session)

def notifyMasterAddClient (clientInfo : ClientInfo) : Async SpdyServer HttpError Unit :=
  update fun w => (w.notifyMasterAddClient clientInfo, ())

def setReqSocketCloseHandler (socket : SocketId) (session : Session) :
    Async SpdyServer HttpError Unit :=
  update fun w => (w.setReqSocketCloseHandler socket session, ())

def tasks (now : ℕ) (socket : SocketId) : Async SpdyServer HttpError JsNum := do
  let (clientId, minPingIntervalSec) ← validate L config req db
  let clientInfo ← createClientInfo req socket clientId
  let session ← createSession now clientInfo
  notifyMasterAddClient clientInfo
  setReqSocketCloseHandler socket session
  return pingIntervalSec config.MIN_SOCKET_TIMEOUT_SEC minPingIntervalSec

/-- `configify` writes the response and leaves the connection open. -/
def complete : Except HttpError JsNum → List Output
  | .error e => [errorResponse e, .audit ⟨"listen", false, statusOf (some e), some e.message⟩]
  | .ok pingIntervalSec => [.response 200 (.obj [("reconnect_retry_policy", config.RETRY_POLICY),
      ("pingIntervalSec", .num pingIntervalSec)]), .audit ⟨"listen", true, statusOf none, some ""⟩]

def handle (now : ℕ) (socket : SocketId) (w : SpdyServer) : SpdyServer × Option (List Output) :=
  finish (complete config) (tasks L config req db now socket w)

end Listen

/-! ### Refresh -/

structure RefreshAnswers where
  revokedClientId : Answer (Option Unit)
  refreshCount : Answer ℕ
  incremented : Answer Unit
  newRefreshCount : Answer ℕ

namespace Refresh

variable (L : Library) (config : Config) (req : Request) (db : RefreshAnswers)

def validate {σ : Type} : Async σ HttpError ClientId := do
  lift (Validate.isSpdy config req)
  lift (Validate.isPost req)
  lift (Validate.isJson req)
  lift (Validate.acceptsJson req)
  let clientId ← lift (Validate.parseClientId req)
  lift (Validate.validateRevokedClientId db.revokedClientId)
  let body ← lift (Validate.parseJson L req)
  let pushId ← liftThrow (parsePushId body)
  lift (Validate.validatePushId L config clientId (pushId.getD .null) db.refreshCount)
  return clientId

/-- The client ids whose count was incremented, in order. -/
def incrementRefreshCount (clientId : ClientId) : Async (List ClientId) HttpError Unit := fun s =>
  match db.incremented with
  | .error _ => (s, .calls [.error internalDbError])
  | .ok () => (s ++ [clientId], .calls [.ok ()])

def generatePushId (clientId : ClientId) : Next PushId :=
  match db.newRefreshCount with
  | .error _ => .error internalDbError
  | .ok count => .ok (Elephant.Refresh.generatePushId L.shaDigest config.SALT clientId count)

def tasks : Async (List ClientId) HttpError PushId := do
  let clientId ← validate L config req db
  incrementRefreshCount db clientId
  lift (generatePushId L config db clientId)

/-- The flag is `error?`. -/
def complete : Except HttpError PushId → List Output
  | .error e => [errorResponse e, .audit ⟨"refresh", true, statusOf (some e), some e.message⟩]
  | .ok pushId => [.response 200 (.obj [("push_id", .str pushId)]),
      .audit ⟨"refresh", false, statusOf none, some ""⟩]

def handle (counted : List ClientId) : List ClientId × Option (List Output) :=
  finish complete (tasks L config req db counted)

end Refresh

/-! ### Ack -/

/-- What the session table, the timers and the database answer to one ack. -/
structure AckAnswers where
  revokedClientId : Answer (Option Unit)
  getSession : ClientId → Option (Found Session)
  getPushTimer : Session → String → Option (Found PushMsg)
  pushRequest : Answer (Option PushRequest)

/-- What an ack changes: the timers it cancelled and the callbacks it started. -/
structure AckEffects where
  cancelled : List PushMsg
  callbacks : List PushRequest

namespace Ack

variable (L : Library) (config : Config) (req : Request) (db : AckAnswers)

def validate {σ : Type} : Async σ HttpError (ClientId × Json) := do
  lift (Validate.isSpdy config req)
  lift (Validate.isPost req)
  lift (Validate.isJson req)
  let clientId ← lift (Validate.parseClientId req)
  lift (Validate.validateRevokedClientId db.revokedClientId)
  let body ← lift (Validate.parseJson L req)
  let requestId ← liftThrow (parseRequestId body)
  return (clientId, requestId.getD .null)

/-- What a name inherits is neither a session nor a timer, and using it throws; so does a request id
    that cannot be turned into a property name. -/
def cancelPushTimer (clientId : ClientId) (requestId : Json) : Async AckEffects HttpError PushMsg :=
  fun s =>
    match db.getSession clientId with
    | none => (s, .calls [.error ⟨404, "ack session not found"⟩])
    | some .inherited => (s, .throws)
    | some (.own session) =>
      match requestId.toText L.numbers with
      | .error _ => (s, .throws)
      | .ok name =>
        match db.getPushTimer session name with
        | none => (s, .calls [.error ⟨404, "push timed out or unknown request id"⟩])
        | some .inherited => (s, .throws)
        | some (.own push) => ({ s with cancelled := s.cancelled ++ [push] }, .calls [.ok push])

def getPushRequest : Next PushRequest :=
  match db.pushRequest with
  | .error _ => .error internalDbError
  | .ok none => .error ⟨404, "push request not found"⟩
  | .ok (some pushRequest) => .ok pushRequest

def sendCallback (pushRequest : PushRequest) : Async AckEffects HttpError Unit :=
  update fun s => ({ s with callbacks := s.callbacks ++ [pushRequest] }, ())

def tasks : Async AckEffects HttpError Unit := do
  let (clientId, requestId) ← validate L config req db
  let _ ← cancelPushTimer L db clientId requestId
  let pushRequest ← lift (getPushRequest db)
  sendCallback pushRequest

/-- `res.end()` sends the status 200 and no body. -/
def complete : Except HttpError Unit → List Output
  | .error e => [errorResponse e, .audit ⟨"push-ack", false, statusOf (some e), some e.message⟩]
  | .ok () => [.response 200 .null, .audit ⟨"push-ack", true, statusOf none, some ""⟩]

def handle (s : AckEffects) : AckEffects × Option (List Output) :=
  finish complete (tasks L config req db s)

end Ack

end Elephant.Api
