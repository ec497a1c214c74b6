import Elephant.Listen.Worker
import Elephant.Schemes.Table
import Elephant.Schemes.Pool

/-! The life of a push: sending it, its timer, its ack and its callback (`push/send.coffee`,
    `push/timer.coffee`, `push/callback.coffee`, `api/v2/ack.coffee`, `api/spdyhandler.coffee`).

    Everything runs in turns of event loops. `async.waterfall` defers each of its tasks, the first one
    included, to a turn of its own, and the database, the SPDY stream, the timers and the callback
    receiver answer in turns of their own; in between anything else may run. So the world is some
    shared state and a pool of pending tasks, and an event runs one of them with an outcome.

        message ─▶ serverPush ─▶ stream ─▶ startTimer ─▶ armed ─▶ timeoutRemove ─▶ timeoutRead ─╮
           │           │            │                      ╰(ack)─▶ ackRead ────────────────────┤
           ╰───────────┴────────────┴─▶ failureRead ────────────────────────────────────────────┤
                                                                                                ▼
                                                  rows ◀─ callbackDelete ◀─ callbackPost ◀─ …Callback

    Any number of workers (indexed by `ι`) share the table `push_requests`; each has its own sessions.
    A turn in which the process would throw is not a step. -/

namespace Elephant.Push
open Elephant.Schemes Elephant.Model Elephant.Listen

/-- `Error.http status, message`. -/
structure HttpError where
  status : ℕ
  message : String
  deriving DecidableEq, Repr

/-- A row of `push_requests`; `pushIndex` is the table's `id`. -/
structure PushRequest where
  pushIndex : ℕ
  requestId : String
  clientId : ClientId
  callbackUrl : Option String
  callbackUsername : Option String
  callbackPassword : Option String
  deriving DecidableEq, Repr

abbrev PushTable := Table PushRequest.pushIndex PushRequest.requestId

/-- The `SERVER_PUSH` message to a worker. -/
structure PushMsg where
  clientId : ClientId
  pushIndex : ℕ
  requestId : String
  deriving DecidableEq, Repr

/-- A started push timer; `timeoutId` tells timers apart. -/
structure PushTimer (ι : Type*) where
  timeoutId : ℕ
  worker : ι
  session : Session
  push : PushMsg
  deriving DecidableEq, Repr

/-- What `PushCallback` posts. -/
structure RequestOptions where
  url : Option String
  requestId : String
  status : ℕ
  auth : Option (String × Option String)
  deriving DecidableEq, Repr

structure PushCallback where
  pushRequest : PushRequest
  requestOptions : RequestOptions
  deriving DecidableEq, Repr

/-- An ack request that passed `Ack.validate`, numbered on arrival. -/
structure AckReq where
  id : ℕ
  clientId : ClientId
  requestId : String
  deriving DecidableEq, Repr

/-- What an event loop is waiting to run. `armed` is a pending `setTimeout`. -/
inductive Task (ι : Type*) where
  | message (i : ι) (msg : PushMsg)
  | serverPush (i : ι) (msg : PushMsg) (session : Session)
  | stream (i : ι) (msg : PushMsg) (session : Session)
  | startTimer (i : ι) (msg : PushMsg) (session : Session)
  | armed (timer : PushTimer ι)
  | timeoutRemove (timer : PushTimer ι)
  | timeoutRead (timer : PushTimer ι)
  | timeoutCallback (row : PushRequest)
  | failureRead (msg : PushMsg) (error : HttpError)
  | failureCallback (row : PushRequest) (error : HttpError)
  | ackCancel (i : ι) (req : AckReq)
  | ackRead (req : AckReq) (push : PushMsg)
  | ackCallback (req : AckReq) (row : PushRequest)
  | callbackPost (callback : PushCallback) (retries : ℕ)
  | callbackDelete (callback : PushCallback)
  deriving DecidableEq, Repr

/-- How the outside answers a task. -/
inductive Outcome where
  | ok
  | error
  | response (statusCode : ℕ)
  deriving DecidableEq, Repr

/-- What can be observed of a push, by its index, and of the acks. -/
inductive Effect where
  | streamEnded (k : ℕ)
  | sendFailed (k : ℕ) (error : HttpError)
  | timerStarted (k : ℕ)
  | timerCancelled (k : ℕ)
  | timedOut (k : ℕ)
  | gaveUp (k : ℕ) (message : Option String)
  | callbackStarted (k status : ℕ)
  | callbackFinished (k : ℕ)
  | rowDeleted (k : ℕ)
  | acked (k : ℕ) (req : AckReq)
  | refused (req : AckReq) (error : HttpError)
  deriving DecidableEq, Repr

/-- `pushes` are the requests stored and handed to a worker so far, by index; `pushTimers` is the
    field of that name of every session object. -/
structure World (ι : Type*) where
  rows : PushTable
  pushes : List PushRequest
  workers : ι → SpdyServer
  pushTimers : ι × Session → PlainObject (PushTimer ι)
  nextTimeout : ℕ
  nextAck : ℕ
  tasks : List (Task ι)
  log : List Effect

def World.create {ι : Type*} (ids : ι → ServerId × WorkerId) : World ι where
  rows := .empty
  pushes := []
  workers i := .create (ids i).1 (ids i).2
  pushTimers _ := ∅
  nextTimeout := 0
  nextAck := 0
  tasks := []
  log := []

/-- What one turn does: the shared state after it, the tasks it leaves, the timeout it clears and
    what can be observed. -/
structure Turn (ι : Type*) where
  world : World ι
  next : List (Task ι)
  cleared : Option (PushTimer ι)
  effects : List Effect

/-! ### `model/session.coffee` -/

section Session

variable {ι : Type*} (o : PlainObject (PushTimer ι)) (requestId : String)

def getPushTimer : Option (Found (PushTimer ι)) := o.read requestId

def addPushTimer (timer : PushTimer ι) : PlainObject (PushTimer ι) := o.assign requestId timer

/-- `not requestId of @pushTimers` reads `(not requestId) of @pushTimers`: the test looks for the
    property named `false`, or `true` for an empty id. -/
def removePushTimer : PlainObject (PushTimer ι) × Bool :=
  if o.isIn (if requestId = "" then "true" else "false") then (o, false)
  else (o.erase requestId, true)

end Session

variable {ι : Type*} [DecidableEq ι]

/-- `timer.session.removePushTimer timer.push.requestId`. -/
def World.removeTimer (w : World ι) (timer : PushTimer ι) : World ι × Bool :=
  let (o, removed) := removePushTimer (w.pushTimers (timer.worker, timer.session)) timer.push.requestId
  ({ w with pushTimers := Function.update w.pushTimers (timer.worker, timer.session) o }, removed)

/-! ### `push/callback.coffee` -/

namespace PushCallback

def RETRY_STATUS : List ℕ := [502, 503, 504]

/-- `error?.status or 200`. -/
def statusOf (error : Option HttpError) : ℕ :=
  match error with
  | none => 200
  | some e => if e.status = 0 then 200 else e.status

def create (pushRequest : PushRequest) (error : Option HttpError) : PushCallback where
  pushRequest := pushRequest
  requestOptions :=
    { url := pushRequest.callbackUrl
      requestId := pushRequest.requestId
      status := statusOf error
      auth := pushRequest.callbackUsername.map fun username =>
        (username, pushRequest.callbackPassword) }

/-- `callback.send()`: the waterfall is started with all its retries ahead. -/
def send {ι : Type*} (w : World ι) (retries : ℕ) (callback : PushCallback) (more : List Effect) :
    Turn ι where
  world := w
  next := [.callbackPost callback retries]
  cleared := none
  effects := .callbackStarted callback.pushRequest.pushIndex callback.requestOptions.status :: more

/-- The receiver has answered, or the attempts are used up. -/
def done {ι : Type*} (w : World ι) (callback : PushCallback) : Turn ι :=
  ⟨w, [.callbackDelete callback], none, [.callbackFinished callback.pushRequest.pushIndex]⟩

/-- `operation.retry err`: another attempt while there are retries left. -/
def retry {ι : Type*} (w : World ι) (callback : PushCallback) : ℕ → Turn ι
  | 0 => done w callback
  | left + 1 => ⟨w, [.callbackPost callback left], none, []⟩

/-- One attempt. Without a url there is none; an error or a temporary outage is tried again. -/
def sendWithRetry {ι : Type*} (w : World ι) (callback : PushCallback) (retries : ℕ)
    (outcome : Outcome) : Option (Turn ι) :=
  if callback.pushRequest.callbackUrl.getD "" = "" then
    if outcome = .ok then some (done w callback) else none
  else match outcome with
    | .ok => none
    | .error => some (retry w callback retries)
    | .response statusCode =>
      some (if statusCode ∈ RETRY_STATUS then retry w callback retries else done w callback)

def deletePushRequest {ι : Type*} (w : World ι) (callback : PushCallback) :
    Outcome → Option (Turn ι)
  | .ok => some ⟨{ w with rows := w.rows.destroy callback.pushRequest.pushIndex }, [], none,
      [.rowDeleted callback.pushRequest.pushIndex]⟩
  | .error => some ⟨w, [], none, [.gaveUp callback.pushRequest.pushIndex none]⟩
  | .response _ => none

end PushCallback

/-! ### `push/send.coffee` -/

namespace SendPush

def noSession : HttpError := ⟨404, "no active client session"⟩
def noPush : HttpError := ⟨500, "client does not support push"⟩
def notWriteable : HttpError := ⟨404, "socket is not writeable"⟩
def streamPushError : HttpError := ⟨404, "stream push error"⟩
def spdyStreamPushError : HttpError := ⟨404, "spdy stream push error"⟩

/-- The errors a send can end with. -/
def sendErrors : List HttpError :=
  [noSession, noPush, notWriteable, streamPushError, spdyStreamPushError]

/-- The waterfall of `handle` ends with an error: `_handleFailure` starts its own. -/
def handleFailure (w : World ι) (msg : PushMsg) (error : HttpError) : Turn ι :=
  ⟨w, [.failureRead msg error], none, [.sendFailed msg.pushIndex error]⟩

/-- `_pushToClient` with `Session.serverPush` and the first lines of `SpdyHandler.serverPush`;
    `error` says that the socket is not writable. -/
def pushToClient (w : World ι) (i : ι) (msg : PushMsg) (outcome : Outcome) : Option (Turn ι) :=
  match (w.workers i).sessionManager.getSession msg.clientId, outcome with
  | none, .ok => some (handleFailure w msg noSession)
  | some (.own session), .ok =>
    if session.isSpdy then some ⟨w, [.serverPush i msg session], none, []⟩
    else some (handleFailure w msg noPush)
  | some (.own session), .error =>
    if session.isSpdy then some (handleFailure w msg notWriteable) else none
  -- an inherited name gives a function without `serverPush`
  | _, _ => none

/-- The callback of `res.push`: the push data is handed to the stream. -/
def onPushStream (w : World ι) (i : ι) (msg : PushMsg) (session : Session) :
    Outcome → Option (Turn ι)
  | .ok => some ⟨w, [.stream i msg session], none, [.streamEnded msg.pushIndex]⟩
  | .error => some (handleFailure w msg streamPushError)
  | .response _ => none

/-- The stream emits `finish` or `error`. -/
def onStreamEvent (w : World ι) (i : ι) (msg : PushMsg) (session : Session) :
    Outcome → Option (Turn ι)
  | .ok => some ⟨w, [.startTimer i msg session], none, []⟩
  | .error => some (handleFailure w msg spdyStreamPushError)
  | .response _ => none

/-- `_startTimer` and `PushTimer.start`. -/
def startTimer (w : World ι) (i : ι) (msg : PushMsg) (session : Session) : Turn ι :=
  let timer : PushTimer ι := ⟨w.nextTimeout, i, session, msg⟩
  ⟨{ w with
      nextTimeout := w.nextTimeout + 1
      pushTimers := Function.update w.pushTimers (i, session)
        (addPushTimer (w.pushTimers (i, session)) msg.requestId timer) },
    [.armed timer], none, [.timerStarted msg.pushIndex]⟩

def getPushRequest (w : World ι) (msg : PushMsg) (error : HttpError) : Outcome → Option (Turn ι)
  | .ok => match w.rows.find msg.pushIndex with
    | some row => some ⟨w, [.failureCallback row error], none, []⟩
    | none => some ⟨w, [], none, [.gaveUp msg.pushIndex (some "push request not found")]⟩
  | .error => some ⟨w, [], none, [.gaveUp msg.pushIndex none]⟩
  | .response _ => none

end SendPush

/-! ### `push/timer.coffee` -/

namespace PushTimer

def ackTimeout : HttpError := ⟨504, "push ack timeout"⟩

/-- The timeout fires; its waterfall starts with `_removeTimer` in a later turn. -/
def onTimeout (w : World ι) (timer : PushTimer ι) : Turn ι :=
  ⟨w, [.timeoutRemove timer], none, [.timedOut timer.push.pushIndex]⟩

/-- `_removeTimer`: a timer that is gone means that the push was acked, and ends the handler. -/
def removeTimer (w : World ι) (timer : PushTimer ι) : Turn ι :=
  let (w', removed) := w.removeTimer timer
  ⟨w', if removed then [.timeoutRead timer] else [], none, []⟩

def getPushRequest (w : World ι) (timer : PushTimer ι) : Outcome → Option (Turn ι)
  | .ok => match w.rows.find timer.push.pushIndex with
    | some row => some ⟨w, [.timeoutCallback row], none, []⟩
    | none => some ⟨w, [], none,
        [.gaveUp timer.push.pushIndex (some "unkown push index in push timeout")]⟩
  | .error => some ⟨w, [], none, [.gaveUp timer.push.pushIndex none]⟩
  | .response _ => none

end PushTimer

/-! ### `api/v2/ack.coffee` -/

namespace Ack

def noAckSession : HttpError := ⟨404, "ack session not found"⟩
def unknownRequest : HttpError := ⟨404, "push timed out or unknown request id"⟩
def dbError : HttpError := ⟨500, "internal DB error"⟩
def noPushRequest : HttpError := ⟨404, "push request not found"⟩

def refuse (w : World ι) (req : AckReq) (error : HttpError) : Turn ι :=
  ⟨w, [], none, [.refused req error]⟩

/-- `cancelPushTimer` with `PushTimer.cancel`. -/
def cancelPushTimer (w : World ι) (i : ι) (req : AckReq) : Option (Turn ι) :=
  match (w.workers i).sessionManager.getSession req.clientId with
  | none => some (refuse w req noAckSession)
  | some .inherited => none
  | some (.own session) =>
    match getPushTimer (w.pushTimers (i, session)) req.requestId with
    | none => some (refuse w req unknownRequest)
    | some .inherited => none
    | some (.own timer) => some ⟨(w.removeTimer timer).1, [.ackRead req timer.push], some timer,
        [.timerCancelled timer.push.pushIndex]⟩

def getPushRequest (w : World ι) (req : AckReq) (push : PushMsg) : Outcome → Option (Turn ι)
  | .ok => match w.rows.find push.pushIndex with
    | some row => some ⟨w, [.ackCallback req row], none, []⟩
    | none => some (refuse w req noPushRequest)
  | .error => some (refuse w req dbError)
  | .response _ => none

end Ack

/-! ### Events -/

/-- One turn of a pending task; `retries` is `PUSH_CALLBACK_RETRIES`. -/
def exec (retries : ℕ) (w : World ι) : Task ι → Outcome → Option (Turn ι)
  | .message i msg, o => SendPush.pushToClient w i msg o
  | .serverPush i msg session, o => SendPush.onPushStream w i msg session o
  | .stream i msg session, o => SendPush.onStreamEvent w i msg session o
  | .startTimer i msg session, .ok => some (SendPush.startTimer w i msg session)
  | .armed timer, .ok => some (PushTimer.onTimeout w timer)
  | .timeoutRemove timer, .ok => some (PushTimer.removeTimer w timer)
  | .timeoutRead timer, o => PushTimer.getPushRequest w timer o
  | .timeoutCallback row, .ok =>
    some (PushCallback.send w retries (.create row (some PushTimer.ackTimeout)) [])
  | .failureRead msg error, o => SendPush.getPushRequest w msg error o
  | .failureCallback row error, .ok =>
    some (PushCallback.send w retries (.create row (some error)) [])
  | .ackCancel i req, .ok => Ack.cancelPushTimer w i req
  | .ackRead req push, o => Ack.getPushRequest w req push o
  | .ackCallback req row, .ok =>
    some (PushCallback.send w retries (.create row none) [.acked row.pushIndex req])
  | .callbackPost callback left, o => PushCallback.sendWithRetry w callback left o
  | .callbackDelete callback, o => PushCallback.deletePushRequest w callback o
  | _, _ => none

/-- `clearTimeout`. -/
def clear (timer : Option (PushTimer ι)) (tasks : List (Task ι)) : List (Task ι) :=
  tasks.filter fun t => decide (∀ x ∈ timer, t ≠ .armed x)

/-- The callback part of an app's push request. -/
structure CallbackInfo where
  url : String
  username : Option String
  password : Option String
  deriving DecidableEq, Repr

/-- What can happen: an app's push is stored and handed to a live worker (`Push.createPushRequest`,
    `sendPushRequestToWorker`), a worker accepts a listen or sees a close, an ack arrives, or a
    pending task runs. -/
inductive PushEvent (ι : Type*) where
  | handOver (i : ι) (clientId : ClientId) (requestId : String) (callback : Option CallbackInfo)
  | worker (i : ι) (e : Event)
  | ack (i : ι) (clientId : ClientId) (requestId : String)
  | turn (n : ℕ) (outcome : Outcome)
  deriving DecidableEq

/-- The row that `createPushRequest` stores under the index `k`. -/
def createPushRequest (k : ℕ) (clientId : ClientId) (requestId : String)
    (callback : Option CallbackInfo) : PushRequest where
  pushIndex := k
  requestId := requestId
  clientId := clientId
  callbackUrl := callback.map CallbackInfo.url
  callbackUsername := callback.bind CallbackInfo.username
  callbackPassword := callback.bind CallbackInfo.password

/-- The message of `sendPushRequestToWorker`. -/
def pushMsg (pushRequest : PushRequest) : PushMsg where
  clientId := pushRequest.clientId
  pushIndex := pushRequest.pushIndex
  requestId := pushRequest.requestId

/-- Request ids are version 1 UUIDs in their usual 36 characters, all different. -/
def freshUuid (w : World ι) (requestId : String) : Prop :=
  requestId.length = 36 ∧ ∀ p ∈ w.pushes, p.requestId ≠ requestId

instance (w : World ι) (requestId : String) : Decidable (freshUuid w requestId) :=
  inferInstanceAs (Decidable (_ ∧ _))

def pushStep (retries : ℕ) (w : World ι) : PushEvent ι → Option (World ι)
  | .handOver i clientId requestId callback =>
    let row := createPushRequest w.pushes.length clientId requestId callback
    if freshUuid w requestId then
      (w.rows.insert row).map fun rows =>
        { w with
          rows := rows
          pushes := w.pushes ++ [row]
          tasks := w.tasks ++ [.message i (pushMsg row)] }
    else none
  | .worker i e => (step (w.workers i) e).map fun s =>
      { w with workers := Function.update w.workers i s }
  | .ack i clientId requestId => some { w with
      nextAck := w.nextAck + 1
      tasks := w.tasks ++ [.ackCancel i ⟨w.nextAck, clientId, requestId⟩] }
  | .turn n outcome =>
    w.tasks[n]?.bind fun t => (exec retries w t outcome).map fun turn =>
      { turn.world with
        tasks := clear turn.cleared (replaceAt w.tasks n turn.next)
        log := w.log ++ turn.effects }

end Elephant.Push
