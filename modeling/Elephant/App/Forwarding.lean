import Elephant.App.Accounting
import Elephant.Api.Framing
import Elephant.Api.Spdy

/-! A push request through several servers, with the answers on their way back
    (`api/app/v2/push.coffee`, `push/dispatch.coffee`).

    A server that forwards a request waits for the answer and relays it. It may give up waiting, and the
    peer may handle the request all the same, so the app can be told of a failure although its message
    was handed to a worker:

        app ──▶ server ──▶ peer ──▶ SERVER_PUSH
         ◀───── relay ◀───── 200, 4xx, 500
         ◀── 502, 504 ─╯ (given up)

    The main result says what an app can conclude from the status it gets. -/

namespace Elephant.App
open Elephant.Schemes Elephant.Model Elephant.ClientMap Elephant.Api
open Elephant.Push (HttpError)

/-- A response as the client of a connection gets it: as many bytes as are announced, read as text. -/
structure Response where
  statusCode : ℕ
  contentType : String
  contentLength : ℕ
  via : Option String
  body : String
  deriving DecidableEq, Repr

/-- What arrives of a text. -/
def arriving (contentLength : ℕ) (text : String) : String :=
  String.ofList (Utf8.decode ((Utf8.encode text.toList).take contentLength))

/-- `jsonify`, at the other end of the connection. -/
def respond (N : NumberText) (status : ℕ) (json : Json) : Response where
  statusCode := status
  contentType := (jsonify N status json).contentType
  contentLength := (jsonify N status json).contentLength
  via := none
  body := arriving (jsonify N status json).contentLength (json.stringify N)

/-- The headers and the body of a peer's response, with `via`, at the other end of the connection. -/
def Dispatcher.relay (via : String) (r : Response) : Response :=
  { r with via := some via, body := arriving r.contentLength r.body }

/-- `helper.getVersion()` and the host name. -/
def Dispatcher.via (server : Server) : String := "elephant/" ++ server.version ++ " " ++ server.hostname

/-- What the handler of a push does: it answers, throws, or forwards the request and waits. -/
inductive Served where
  | responds (outs : List Output)
  | throws
  | forwards (serverId : ServerId) (headers : PlainObject String)

namespace Push

/-- The error part of `handleDispatchResult`. -/
def dispatchFailed (e : HttpError) : List Output :=
  [errorResponse e, .audit ⟨"push-dispatch", false, e.status,
    some (if e.message = "" then "request dispatched" else e.message)⟩]

/-- The record of a response that is relayed, whatever its status. -/
def dispatched (r : Response) : Audit :=
  ⟨"push-dispatch", true, r.statusCode, some "request dispatched"⟩

/-- `handle`, up to an answer or the wait for one. -/
def serve (L : Library) (config : Config) (req : Request) (db : PushAnswers) (server : Server)
    (remoteAddress : String) (m : Master) : Handling × Served :=
  match getClientInfo db.client with
  | .error e => (⟨m, []⟩, .responds (complete (.error e)))
  | .ok client =>
    match dispatch server remoteAddress req.headers client with
    | .error e => (⟨m, []⟩, .responds (dispatchFailed e))
    | .ok (.toPeer serverId headers) => (⟨m, []⟩, .forwards serverId headers)
    | .ok (.toWorker client) =>
      match finish complete (localPush L config req db client ⟨m, []⟩) with
      | (h, none) => (h, .throws)
      | (h, some outs) => (h, .responds outs)

end Push

/-! ### The cluster -/

/-- Who waits for the answer to a request. -/
inductive Reader where
  | app
  | server (via : String) (next : Reader)
  | nobody
  deriving DecidableEq, Repr

/-- A request on its way to a server, or an answer on its way to the server that waits for it, with the
    number of the request that has entered. -/
inductive Pending where
  | request (origin : ℕ) (req : Request) (reader : Reader)
  | reply (origin : ℕ) (via : String) (next : Reader) (response : Response)

def Pending.origin : Pending → ℕ
  | .request origin _ _ => origin
  | .reply origin _ _ _ => origin

/-- `entered` are the requests of apps, `answers` what the apps got, `sent` the messages to workers and
    `audited` the records of all servers, each with the number of its request. -/
structure Cluster where
  entered : List Request
  pending : List Pending
  answers : List (ℕ × Response)
  sent : List (ℕ × String × ServerPush)
  audited : List (ℕ × Audit)

def Cluster.create : Cluster := ⟨[], [], [], [], []⟩

/-- Any server may get to handle a request, in any state of its master and of the database. A server
    that waits may get the answer or give up, where what it waits for may be `lost` or not; and a request
    that no server waits for may be lost. -/
inductive ClusterEvent where
  | enter (req : Request)
  | handle (n : ℕ) (server : Server) (remoteAddress : String) (db : PushAnswers) (m : Master)
  | relay (n : ℕ)
  | giveUp (n : ℕ) (error : Option String) (lost : Bool)
  | lose (n : ℕ)

/-- Where an answer goes. -/
def deliver (origin : ℕ) (r : Response) : Reader → List Pending × List Response
  | .app => ([], [r])
  | .server via next => ([.reply origin via next r], [])
  | .nobody => ([], [])

namespace Cluster

/-- What is at position `n` becomes `next`, and the rest is added to the logs. -/
def advance (s : Cluster) (n origin : ℕ) (next : List Pending) (answers : List Response)
    (sent : List (String × ServerPush)) (audited : List Audit) : Cluster :=
  { s with
    pending := replaceAt s.pending n next
    answers := s.answers ++ answers.map fun r => (origin, r)
    sent := s.sent ++ sent.map fun m => (origin, m)
    audited := s.audited ++ audited.map fun a => (origin, a) }

variable (L : Library) (config : Config)

/-- The error response of a server that gives up. -/
def upstreamFailed (error : Option String) : Response :=
  respond L.numbers (Dispatcher.upstreamError error).status
    (.obj [("error", .str (Dispatcher.upstreamError error).message)])

def step (s : Cluster) : ClusterEvent → Option Cluster
  | .enter req => some { s with
      entered := s.entered ++ [req]
      pending := s.pending ++ [.request s.entered.length req .app] }
  | .handle n server remoteAddress db m => s.pending[n]?.bind fun
      | .request origin req reader =>
        match Push.serve L config req db server remoteAddress m with
        | (_, .throws) => none
        | (_, .forwards _ headers) => some (s.advance n origin
            [.request origin { req with headers := headers }
              (.server (Dispatcher.via server) reader)] [] [] [])
        | (h, .responds outs) =>
          let delivered := (responses outs).map fun r =>
            deliver origin (respond L.numbers r.1 r.2) reader
          some (s.advance n origin (delivered.flatMap Prod.fst) (delivered.flatMap Prod.snd)
            (h.master.sent.drop m.sent.length) (audits outs))
      | .reply _ _ _ _ => none
  | .relay n => s.pending[n]?.bind fun
      | .reply origin via next r =>
        let delivered := deliver origin (Dispatcher.relay via r) next
        some (s.advance n origin delivered.1 delivered.2 [] [Push.dispatched r])
      | .request _ _ _ => none
  | .giveUp n error lost => s.pending[n]?.bind fun
      | .request origin req (.server _ next) =>
        let delivered := deliver origin (upstreamFailed L error) next
        some (s.advance n origin (delivered.1 ++ if lost then [] else [.request origin req .nobody])
          delivered.2 [] (audits (Push.dispatchFailed (Dispatcher.upstreamError error))))
      | .reply origin _ next _ =>
        let delivered := deliver origin (upstreamFailed L error) next
        some (s.advance n origin delivered.1 delivered.2 []
          (audits (Push.dispatchFailed (Dispatcher.upstreamError error))))
      | _ => none
  | .lose n => s.pending[n]?.bind fun
      | .request origin _ .app => some (s.advance n origin [] [] [] [])
      | .request origin _ .nobody => some (s.advance n origin [] [] [] [])
      | _ => none

/-- What belongs to one entering request. -/
def pendingOf (s : Cluster) (k : ℕ) : List Pending := s.pending.filter fun x => x.origin = k

/-- The entries of one number in a log. -/
def logOf {α : Type} (k : ℕ) (log : List (ℕ × α)) : List α := (log.filter fun x => x.1 = k).map Prod.snd

def answersOf (s : Cluster) (k : ℕ) : List Response := logOf k s.answers
def sentOf (s : Cluster) (k : ℕ) : List (String × ServerPush) := logOf k s.sent
def auditedOf (s : Cluster) (k : ℕ) : List Audit := logOf k s.audited

end Cluster

/-! ### What one handler does -/

section

variable (L : Library) (config : Config)

/-- The message has the data of the request, which has passed all checks. -/
def Carries (req : Request) (msg : ServerPush) : Prop :=
  ∃ db params, Push.Passed L config req db params ∧ msg.data = params.message

/-- The response tells the request id, in so many bytes as it announces. -/
def Tells (r : Response) (requestId : String) : Prop :=
  IsAscii requestId.toList →
    r.body = Json.stringify L.numbers (.obj [("request_id", .str requestId)]) ∧
      r.contentLength = (Utf8.encode r.body.toList).length

/-- The response is 200 for a message that was sent, and tells its request id; for no other. -/
inductive Agrees (req : Request) : Response → List (String × ServerPush) → Prop
  | sent {r : Response} {worker : String} {msg : ServerPush} (h : r.statusCode = 200)
      (hmsg : Carries L config req msg) (htells : Tells L r msg.requestId) :
      Agrees req r [(worker, msg)]
  | refused {r : Response} (h : r.statusCode ≠ 200) : Agrees req r []

variable {L config}

theorem arriving_all (text : String) : arriving (Utf8.encode text.toList).length text = text := by
  rw [arriving, List.take_length, Utf8.decode_encode, String.ofList_toList]

/-- A response of ASCII text arrives as it is. -/
theorem respond_ascii {N : NumberText} {json : Json} (h : IsAscii (json.stringify N).toList)
    (status : ℕ) : (respond N status json).body = json.stringify N ∧
      (respond N status json).contentLength = (Utf8.encode (json.stringify N).toList).length := by
  have hlength : (respond N status json).contentLength
      = (Utf8.encode (json.stringify N).toList).length := by
    have hboth := (utf16Length_encode (json.stringify N).toList).2.mpr h
    rwa [String.ofList_toList] at hboth
  refine ⟨?_, hlength⟩
  show arriving (respond N status json).contentLength (json.stringify N) = _
  rw [hlength, arriving_all]

theorem tells_respond (status : ℕ) (requestId : String) :
    Tells L (respond L.numbers status (.obj [("request_id", .str requestId)])) requestId := by
  intro hid
  have htext : IsAscii (Json.stringify L.numbers (.obj [("request_id", .str requestId)])).toList := by
    rw [Json.stringify, String.toList_ofList, Json.isAscii_write]
    simp [Json.Ascii, Json.AsciiMembers, hid]
  obtain ⟨hbody, hlength⟩ := respond_ascii htext status
  exact ⟨hbody, by rw [hbody]; exact hlength⟩

theorem Tells.relay {r : Response} {requestId : String} (h : Tells L r requestId) (via : String) :
    Tells L (Dispatcher.relay via r) requestId := by
  intro hid
  obtain ⟨hbody, hlength⟩ := h hid
  have hsame : (Dispatcher.relay via r).body = r.body := by
    rw [Dispatcher.relay, hlength, arriving_all]
  exact ⟨hsame.trans hbody, by rw [hsame]; exact hlength⟩

theorem Agrees.relay {req : Request} {r : Response} {sent : List (String × ServerPush)}
    (h : Agrees L config req r sent) (via : String) :
    Agrees L config req (Dispatcher.relay via r) sent := by
  cases h with
  | sent h hmsg htells => exact .sent h hmsg (htells.relay via)
  | refused h => exact .refused h

/-- The push of a client of this server. -/
theorem localPush_agrees {req : Request} {db : PushAnswers} {client : Row} {m : Master} {h : Handling}
    {outs : List Output} (hclient : db.client = .ok (some client))
    (hfinish : finish Push.complete (Push.localPush L config req db client ⟨m, []⟩) = (h, some outs)) :
    ∃ status json sent, responses outs = [(status, json)] ∧ (∃ a ∈ audits outs, a.code = status) ∧
      h.master.sent = m.sent ++ sent ∧ Agrees L config req (respond L.numbers status json) sent := by
  have houtcome := Push.localPush_outcome L config req db hclient m
  have hfinal := final_push L config req db ⟨m, []⟩
  rw [show Push.tasks L config req db ⟨m, []⟩ = Push.localPush L config req db client ⟨m, []⟩ by
    simp [Push.tasks, hclient, Push.getClientInfo]] at hfinal
  generalize Push.localPush L config req db client ⟨m, []⟩ = result at houtcome hfinal hfinish
  cases houtcome with
  | refused e =>
    obtain ⟨rfl, rfl⟩ := by simpa [finish] using hfinish
    have he : HttpFailure e := by
      cases hfinal with
      | error he => exact he
    refine ⟨e.status, _, [], rfl, ⟨_, List.mem_singleton_self _, statusOf_failure he⟩, by simp, ?_⟩
    exact .refused (show e.status ≠ 200 by unfold HttpFailure at he; omega)
  | thrown hsent => simp [finish] at hfinish
  | workerGone hfound hrow ht hgone =>
    obtain ⟨rfl, rfl⟩ := by simpa [finish] using hfinish
    exact ⟨404, _, [], rfl, ⟨_, List.mem_singleton_self _, rfl⟩, by simp,
      .refused (show 404 ≠ 200 by decide)⟩
  | handedOver hfound hpassed hrow ht halive =>
    obtain ⟨rfl, rfl⟩ := by simpa [finish] using hfinish
    exact ⟨200, _, _, rfl, ⟨_, List.mem_singleton_self _, rfl⟩, rfl,
      .sent rfl ⟨db, _, hpassed, rfl⟩ (tells_respond 200 _)⟩

theorem getClientInfo_ok {answer : Answer (Option Row)} {client : Row}
    (h : Push.getClientInfo answer = .ok client) : answer = .ok (some client) := by
  rcases answer with e | (_ | c)
  · simp [Push.getClientInfo] at h
  · simp [Push.getClientInfo] at h
  · simpa [Push.getClientInfo] using h

/-- A client that is not of this server has its request forwarded, or refused with 502. -/
theorem dispatch_cases (server : Server) (remoteAddress : String) (headers : PlainObject String)
    (client : Row) :
    (Push.dispatch server remoteAddress headers client = .ok (.toWorker client)) ∨
      (Dispatcher.isForwarded headers = true ∧ Push.dispatch server remoteAddress headers client
        = .error ⟨502, "cannot forward push more than once"⟩) ∨
      Dispatcher.isForwarded headers = false ∧ Push.dispatch server remoteAddress headers client
        = .ok (.toPeer client.hostname (Dispatcher.headers server remoteAddress headers)) := by
  unfold Push.dispatch Push.forwardPush
  by_cases hlocal : includesText client.hostname server.serverId = true
  · exact .inl (if_pos hlocal)
  · rw [if_neg hlocal]
    cases hvia : Dispatcher.isForwarded headers with
    | true => exact .inr (.inl ⟨rfl, rfl⟩)
    | false => exact .inr (.inr ⟨rfl, rfl⟩)

/-- Everything that the handler of a push can do: nothing, as the process throws, one response, or one
    forwarded request. -/
inductive Serves (L : Library) (config : Config) (req : Request) (server : Server)
    (remoteAddress : String) (m : Master) : Handling × Served → Prop
  | throws {h : Handling} : Serves L config req server remoteAddress m (h, .throws)
  | forwards {h : Handling} {serverId : ServerId} (hvia : Dispatcher.isForwarded req.headers = false) :
      Serves L config req server remoteAddress m
        (h, .forwards serverId (Dispatcher.headers server remoteAddress req.headers))
  | responds {h : Handling} {outs : List Output} {status : ℕ} {json : Json}
      {sent : List (String × ServerPush)} (hresponse : responses outs = [(status, json)])
      (haudit : ∃ a ∈ audits outs, a.code = status) (hsent : h.master.sent = m.sent ++ sent)
      (hagrees : Agrees L config req (respond L.numbers status json) sent) :
      Serves L config req server remoteAddress m (h, .responds outs)

/-- A refusal before anything is done. -/
theorem serves_error {req : Request} {server : Server} {remoteAddress : String} {m : Master}
    {e : HttpError} (he : HttpFailure e) {audit : Audit} (haudit : audit.code = e.status) :
    Serves L config req server remoteAddress m
      (⟨m, []⟩, .responds [errorResponse e, .audit audit]) :=
  .responds rfl ⟨audit, List.mem_singleton_self _, haudit⟩ (List.append_nil _).symm
    (.refused (show e.status ≠ 200 by unfold HttpFailure at he; omega))

theorem serve_serves (L : Library) (config : Config) (req : Request) (db : PushAnswers)
    (server : Server) (remoteAddress : String)
    (m : Master) : Serves L config req server remoteAddress m
      (Push.serve L config req db server remoteAddress m) := by
  unfold Push.serve
  split
  · rename_i e he
    have hfailure : HttpFailure e := by
      unfold Push.getClientInfo at he
      split at he <;> simp at he <;> subst he <;> decide
    exact serves_error hfailure (statusOf_failure hfailure)
  · rename_i client hfound
    have hclient := getClientInfo_ok hfound
    rcases dispatch_cases server remoteAddress req.headers client with h | ⟨-, h⟩ | ⟨hvia, h⟩ <;>
      rw [h]
    · dsimp only
      split
      · exact .throws
      · rename_i h outs hfinish
        obtain ⟨status, json, sent, hresponse, haudit, hsent, hagrees⟩ :=
          localPush_agrees hclient hfinish
        exact .responds hresponse haudit hsent hagrees
    · exact serves_error (e := ⟨502, _⟩) (show 400 ≤ 502 by decide) rfl
    · exact .forwards hvia

/-! ### A forwarded request -/

/-- The request that the peer gets. -/
def Dispatcher.forwarded (server : Server) (remoteAddress : String) (req : Request) : Request :=
  { req with headers := Dispatcher.headers server remoteAddress req.headers }

variable {req : Request} {server : Server} {remoteAddress : String}

/-- A header that is not added on the way. -/
theorem header_forwarded {name : String} (hfor : name ≠ "x-forwarded-for") (hvia : name ≠ "via") :
    header (Dispatcher.forwarded server remoteAddress req) name = header req name := by
  simp only [header, Dispatcher.forwarded, Dispatcher.headers]
  rw [AList.lookup_insert_ne hvia, AList.lookup_insert_ne hfor]

/-- The checks do not look at the headers that are added on the way. -/
theorem checks_forwarded (L : Library) (config : Config) (server : Server) (remoteAddress : String)
    (req : Request) :
    Validate.isJson (Dispatcher.forwarded server remoteAddress req) = Validate.isJson req ∧
      Validate.acceptsJson (Dispatcher.forwarded server remoteAddress req) = Validate.acceptsJson req ∧
      Validate.validateAppBasicAuth L config (Dispatcher.forwarded server remoteAddress req)
        = Validate.validateAppBasicAuth L config req := by
  refine ⟨?_, ?_, ?_⟩
  · rw [Validate.isJson, header_forwarded (by decide) (by decide), ← Validate.isJson]
  · rw [Validate.acceptsJson, header_forwarded (by decide) (by decide), ← Validate.acceptsJson]
  · rw [Validate.validateAppBasicAuth, Validate.validateBasicAuth, Validate.parseBasicAuth,
      header_forwarded (by decide) (by decide), ← Validate.parseBasicAuth, ← Validate.validateBasicAuth,
      ← Validate.validateAppBasicAuth]

theorem localPush_forwarded (db : PushAnswers) (client : Row) :
    Push.localPush L config (Dispatcher.forwarded server remoteAddress req) db client
      = Push.localPush L config req db client := by
  obtain ⟨hjson, haccept, hauth⟩ := checks_forwarded L config server remoteAddress req
  have hvalidate : (Push.validate L config (Dispatcher.forwarded server remoteAddress req) db :
      Async Handling HttpError _) = Push.validate L config req db := by
    unfold Push.validate
    rw [hjson, haccept, hauth]
    rfl
  unfold Push.localPush
  rw [hvalidate]

theorem Carries.original {msg : ServerPush}
    (h : Carries L config (Dispatcher.forwarded server remoteAddress req) msg) :
    Carries L config req msg := by
  obtain ⟨db, params, hpassed, hdata⟩ := h
  obtain ⟨hjson, haccept, hauth⟩ := checks_forwarded L config server remoteAddress req
  exact ⟨db, params, ⟨hpassed.method, hjson ▸ hpassed.contentType, haccept ▸ hpassed.accept,
    hauth ▸ hpassed.credentials, hpassed.notRevoked, hpassed.message⟩, hdata⟩

theorem Agrees.original {r : Response} {sent : List (String × ServerPush)}
    (h : Agrees L config (Dispatcher.forwarded server remoteAddress req) r sent) :
    Agrees L config req r sent := by
  cases h with
  | sent h hmsg htells => exact .sent h hmsg.original htells
  | refused h => exact .refused h

/-! ### What a step does -/

/-- What becomes of something pending: what is pending instead, what the app gets and what workers get. -/
inductive Moves (L : Library) (config : Config) :
    Pending → List Pending → List Response → List (String × ServerPush) → Prop
  | forwarded {k : ℕ} {req : Request} {reader : Reader} (server : Server) (remoteAddress : String)
      (hvia : Dispatcher.isForwarded req.headers = false) :
      Moves L config (.request k req reader)
        [.request k (Dispatcher.forwarded server remoteAddress req)
          (.server (Dispatcher.via server) reader)] [] []
  | handled {k : ℕ} {req : Request} {reader : Reader} {r : Response}
      {sent : List (String × ServerPush)} (h : Agrees L config req r sent) :
      Moves L config (.request k req reader) (deliver k r reader).1 (deliver k r reader).2 sent
  | relayed {k : ℕ} {via : String} {next : Reader} {r : Response} :
      Moves L config (.reply k via next r) (deliver k (Dispatcher.relay via r) next).1
        (deliver k (Dispatcher.relay via r) next).2 []
  | requestGivenUp {k : ℕ} {req : Request} {via : String} {next : Reader} (error : Option String)
      (lost : Bool) :
      Moves L config (.request k req (.server via next))
        ((deliver k (Cluster.upstreamFailed L error) next).1 ++
          if lost then [] else [.request k req .nobody])
        (deliver k (Cluster.upstreamFailed L error) next).2 []
  | replyGivenUp {k : ℕ} {via : String} {next : Reader} {r : Response} (error : Option String) :
      Moves L config (.reply k via next r) (deliver k (Cluster.upstreamFailed L error) next).1
        (deliver k (Cluster.upstreamFailed L error) next).2 []
  | lost {k : ℕ} {req : Request} {reader : Reader} (h : reader = .app ∨ reader = .nobody) :
      Moves L config (.request k req reader) [] [] []

theorem mem_deliver_origin {k : ℕ} {r : Response} {reader : Reader} {x : Pending}
    (hx : x ∈ (deliver k r reader).1) : x.origin = k := by
  cases reader with
  | app => simp [deliver] at hx
  | server via next =>
    obtain rfl := List.mem_singleton.mp hx
    rfl
  | nobody => simp [deliver] at hx

/-- What comes of a request belongs to the same origin. -/
theorem Moves.origin {x y : Pending} {next : List Pending} {answers : List Response}
    {sent : List (String × ServerPush)} (h : Moves L config x next answers sent) (hy : y ∈ next) :
    y.origin = x.origin := by
  cases h with
  | forwarded server remoteAddress hvia =>
    obtain rfl := List.mem_singleton.mp hy
    rfl
  | handled h => exact mem_deliver_origin hy
  | relayed => exact mem_deliver_origin hy
  | requestGivenUp error lost =>
    rcases List.mem_append.mp hy with hy | hy
    · exact mem_deliver_origin hy
    · cases lost with
      | true => simp at hy
      | false =>
        obtain rfl := List.mem_singleton.mp (by simpa using hy)
        rfl
  | replyGivenUp error => exact mem_deliver_origin hy
  | lost h => simp at hy

namespace Cluster

theorem upstreamFailed_status (L : Library) (error : Option String) :
    (upstreamFailed L error).statusCode = 502 ∨ (upstreamFailed L error).statusCode = 504 := by
  cases error with
  | none => exact .inr rfl
  | some message => exact .inl rfl

/-- What a response is recorded as is its status. -/
def Recorded (answers : List Response) (audited : List Audit) : Prop :=
  ∀ r ∈ answers, ∃ a ∈ audited, a.code = r.statusCode

theorem recorded_deliver {k : ℕ} {r : Response} {reader : Reader} {audited : List Audit}
    (h : ∃ a ∈ audited, a.code = r.statusCode) : Recorded (deliver k r reader).2 audited := by
  intro x hx
  cases reader with
  | app =>
    obtain rfl := List.mem_singleton.mp hx
    exact h
  | server via next => simp [deliver] at hx
  | nobody => simp [deliver] at hx

theorem recorded_upstreamFailed (L : Library) (error : Option String) :
    ∃ a ∈ audits (Push.dispatchFailed (Dispatcher.upstreamError error)),
      a.code = (upstreamFailed L error).statusCode :=
  ⟨_, List.mem_singleton_self _, rfl⟩

theorem step_cases {s s' : Cluster} {e : ClusterEvent} (h : s.step L config e = some s') :
    (∃ req, s' = { s with
        entered := s.entered ++ [req]
        pending := s.pending ++ [.request s.entered.length req .app] }) ∨
    ∃ n x next answers sent audited, s.pending[n]? = some x ∧ Moves L config x next answers sent ∧
      Recorded answers audited ∧ s' = s.advance n x.origin next answers sent audited := by
  have hnil : Recorded [] [] := fun r hr => absurd hr List.not_mem_nil
  cases e with
  | enter req => exact .inl ⟨req, (Option.some.inj h).symm⟩
  | handle n server remoteAddress db m =>
    obtain ⟨x, hx, h⟩ := Option.bind_eq_some_iff.mp h
    refine .inr ⟨n, x, ?_⟩
    cases x with
    | reply k via next r => simp at h
    | request k req reader =>
      have hserves := serve_serves L config req db server remoteAddress m
      dsimp only at h
      generalize Push.serve L config req db server remoteAddress m = result at hserves h
      cases hserves with
      | throws => simp at h
      | forwards hvia =>
        obtain rfl := Option.some.inj h
        exact ⟨_, _, _, _, hx, .forwarded server remoteAddress hvia, hnil, rfl⟩
      | responds hresponse haudit hsent hagrees =>
        simp only [hresponse, List.map_cons, List.map_nil, List.flatMap_cons, List.flatMap_nil,
          List.append_nil, hsent, List.drop_left, Option.some.injEq] at h
        subst h
        exact ⟨_, _, _, _, hx, .handled hagrees, recorded_deliver haudit, rfl⟩
  | relay n =>
    obtain ⟨x, hx, h⟩ := Option.bind_eq_some_iff.mp h
    refine .inr ⟨n, x, ?_⟩
    cases x with
    | request k req reader => simp at h
    | reply k via next r =>
      obtain rfl := Option.some.inj h
      exact ⟨_, _, _, _, hx, .relayed,
        recorded_deliver ⟨_, List.mem_singleton_self _, rfl⟩, rfl⟩
  | giveUp n error lost =>
    obtain ⟨x, hx, h⟩ := Option.bind_eq_some_iff.mp h
    refine .inr ⟨n, x, ?_⟩
    cases x with
    | request k req reader =>
      cases reader with
      | app => simp at h
      | nobody => simp at h
      | server via next =>
        obtain rfl := Option.some.inj h
        exact ⟨_, _, _, _, hx, .requestGivenUp error lost,
          recorded_deliver (recorded_upstreamFailed L error), rfl⟩
    | reply k via next r =>
      obtain rfl := Option.some.inj h
      exact ⟨_, _, _, _, hx, .replyGivenUp error,
        recorded_deliver (recorded_upstreamFailed L error), rfl⟩
  | lose n =>
    obtain ⟨x, hx, h⟩ := Option.bind_eq_some_iff.mp h
    refine .inr ⟨n, x, ?_⟩
    cases x with
    | reply k via next r => simp at h
    | request k req reader =>
      cases reader with
      | app =>
        obtain rfl := Option.some.inj h
        exact ⟨_, _, _, _, hx, .lost (.inl rfl), hnil, rfl⟩
      | nobody =>
        obtain rfl := Option.some.inj h
        exact ⟨_, _, _, _, hx, .lost (.inr rfl), hnil, rfl⟩
      | server via next => simp at h

end Cluster

/-! ### The journey of one request -/

/-- How far a request has come, with all that is pending for it, what its app got and what workers got. -/
inductive Journey (L : Library) (config : Config) (req : Request) :
    List Pending → List Response → List (String × ServerPush) → Prop
  | entered {k : ℕ} : Journey L config req [.request k req .app] [] []
  | forwarded {k : ℕ} (server : Server) (remoteAddress : String) (via : String) :
      Journey L config req
        [.request k (Dispatcher.forwarded server remoteAddress req) (.server via .app)] [] []
  | replied {k : ℕ} {via : String} {r : Response} {sent : List (String × ServerPush)}
      (h : Agrees L config req r sent) : Journey L config req [.reply k via .app r] [] sent
  | answered {r : Response} {sent : List (String × ServerPush)} (h : Agrees L config req r sent) :
      Journey L config req [] [r] sent
  | abandoned {k : ℕ} {r : Response} (server : Server) (remoteAddress : String)
      (hr : r.statusCode = 502 ∨ r.statusCode = 504) :
      Journey L config req
        [.request k (Dispatcher.forwarded server remoteAddress req) .nobody] [r] []
  | ended {r r' : Response} {sent : List (String × ServerPush)}
      (hr : r.statusCode = 502 ∨ r.statusCode = 504)
      (h : Agrees L config req r' sent) : Journey L config req [] [r] sent
  | failed {r : Response} (hr : r.statusCode = 502 ∨ r.statusCode = 504) :
      Journey L config req [] [r] []
  | lost : Journey L config req [] [] []

theorem Journey.single {x : Pending} {pending : List Pending} {answers : List Response}
    {sent : List (String × ServerPush)} (h : Journey L config req pending answers sent)
    (hx : x ∈ pending) : pending = [x] := by
  cases h with
  | entered => rw [List.mem_singleton.mp hx]
  | forwarded => rw [List.mem_singleton.mp hx]
  | replied => rw [List.mem_singleton.mp hx]
  | abandoned => rw [List.mem_singleton.mp hx]
  | answered => simp at hx
  | ended => simp at hx
  | failed => simp at hx
  | lost => simp at hx

theorem isForwarded_forwarded (server : Server) (remoteAddress : String) (req : Request) :
    Dispatcher.isForwarded (Dispatcher.forwarded server remoteAddress req).headers = true :=
  Network.isForwarded_headers server remoteAddress req.headers

/-- One step of the only thing that is pending. -/
theorem Journey.moves {x : Pending} {next : List Pending} {answers more : List Response}
    {sent msgs : List (String × ServerPush)} (h : Journey L config req [x] answers sent)
    (hmove : Moves L config x next more msgs) :
    Journey L config req next (answers ++ more) (sent ++ msgs) := by
  cases h with
  | entered =>
    cases hmove with
    | forwarded server remoteAddress hvia => exact .forwarded server remoteAddress _
    | handled hagrees => exact .answered hagrees
    | lost => exact .lost
  | forwarded server remoteAddress via =>
    cases hmove with
    | forwarded _ _ hvia => simp [isForwarded_forwarded] at hvia
    | handled hagrees => exact .replied hagrees.original
    | requestGivenUp error lost =>
      have hstatus := Cluster.upstreamFailed_status L error
      cases lost with
      | true => exact .failed hstatus
      | false => exact .abandoned server remoteAddress hstatus
    | lost h => simp at h
  | replied hagrees =>
    cases hmove with
    | relayed =>
      rw [List.append_nil]
      exact .answered (hagrees.relay _)
    | replyGivenUp error =>
      rw [List.append_nil]
      exact .ended (Cluster.upstreamFailed_status L error) hagrees
  | abandoned server remoteAddress hr =>
    cases hmove with
    | forwarded _ _ hvia => simp [isForwarded_forwarded] at hvia
    | handled hagrees => exact .ended hr hagrees.original
    | lost => exact .failed hr

theorem Agrees.length_le {r : Response} {sent : List (String × ServerPush)}
    (h : Agrees L config req r sent) : sent.length ≤ 1 := by
  cases h with
  | sent h hmsg htells => exact Nat.le_refl 1
  | refused h => exact Nat.zero_le 1

theorem Agrees.carries {r : Response} {sent : List (String × ServerPush)}
    (h : Agrees L config req r sent) : ∀ m ∈ sent, Carries L config req m.2 := by
  intro m hm
  cases h with
  | sent h hmsg htells =>
    obtain rfl := List.mem_singleton.mp hm
    exact hmsg
  | refused h => simp at hm

section

variable {pending : List Pending} {answers : List Response} {sent : List (String × ServerPush)}

theorem Journey.lengths (h : Journey L config req pending answers sent) :
    answers.length ≤ 1 ∧ sent.length ≤ 1 := by
  cases h with
  | replied hagrees => exact ⟨Nat.zero_le 1, hagrees.length_le⟩
  | answered hagrees => exact ⟨Nat.le_refl 1, hagrees.length_le⟩
  | ended hr hagrees => exact ⟨Nat.le_refl 1, hagrees.length_le⟩
  | _ => exact ⟨by simp, by simp⟩

theorem Journey.carries (h : Journey L config req pending answers sent) :
    ∀ m ∈ sent, Carries L config req m.2 := by
  cases h with
  | replied hagrees => exact hagrees.carries
  | answered hagrees => exact hagrees.carries
  | ended hr hagrees => exact hagrees.carries
  | _ => exact fun m hm => absurd hm List.not_mem_nil

/-- The answer of a server that has given up is neither a success nor a definite failure. -/
theorem givenUp_status {r r' : Response} (hr : r.statusCode = 502 ∨ r.statusCode = 504)
    (hr' : r' ∈ [r]) : r'.statusCode ≠ 200 ∧ r'.statusCode ∈ [200, 502, 504] := by
  obtain rfl := List.mem_singleton.mp hr'
  rcases hr with hr | hr <;> simp [hr]

theorem Journey.success (h : Journey L config req pending answers sent) :
    ∀ r ∈ answers, r.statusCode = 200 → ∃ m, sent = [m] ∧ Tells L r m.2.requestId := by
  intro r hr h200
  cases h with
  | answered hagrees =>
    obtain rfl := List.mem_singleton.mp hr
    cases hagrees with
    | sent h hmsg htells => exact ⟨_, rfl, htells⟩
    | refused h => exact absurd h200 h
  | abandoned server remoteAddress hgiven => exact absurd h200 (givenUp_status hgiven hr).1
  | ended hgiven hagrees => exact absurd h200 (givenUp_status hgiven hr).1
  | failed hgiven => exact absurd h200 (givenUp_status hgiven hr).1
  | _ => simp at hr

theorem Journey.failure (h : Journey L config req pending answers sent) :
    ∀ r ∈ answers, r.statusCode ∉ [200, 502, 504] → sent = [] ∧ pending = [] := by
  intro r hr hstatus
  cases h with
  | answered hagrees =>
    obtain rfl := List.mem_singleton.mp hr
    cases hagrees with
    | sent h hmsg htells => simp [h] at hstatus
    | refused h => exact ⟨rfl, rfl⟩
  | abandoned server remoteAddress hgiven => exact absurd (givenUp_status hgiven hr).2 hstatus
  | ended hgiven hagrees => exact absurd (givenUp_status hgiven hr).2 hstatus
  | failed hgiven => exact absurd (givenUp_status hgiven hr).2 hstatus
  | _ => simp at hr

end

namespace Cluster

/-- Requests that have entered have a journey, for the others there is nothing. -/
def Journeys (L : Library) (config : Config) (s : Cluster) : Prop :=
  ∀ k, (∀ req, s.entered[k]? = some req →
      Journey L config req (s.pendingOf k) (s.answersOf k) (s.sentOf k)) ∧
    (s.entered.length ≤ k → s.pendingOf k = [] ∧ s.answersOf k = [] ∧ s.sentOf k = [])

theorem logOf_append {α : Type} (k origin : ℕ) (log : List (ℕ × α)) (more : List α) :
    logOf k (log ++ more.map fun a => (origin, a)) = logOf k log ++ if origin = k then more else [] := by
  unfold logOf
  rw [List.filter_append, List.map_append, List.filter_map]
  by_cases hk : origin = k
  · simp [hk, Function.comp_def]
  · simp [hk, Function.comp_def]

theorem journeys_create : Journeys L config .create := by
  intro k
  simp [create, pendingOf, answersOf, sentOf, logOf]

theorem Journeys.enter {s : Cluster} (hs : Journeys L config s) (req : Request) :
    Journeys L config { s with
      entered := s.entered ++ [req]
      pending := s.pending ++ [.request s.entered.length req .app] } := by
  intro k
  obtain ⟨hjourney, hnothing⟩ := hs k
  have hpending : pendingOf { s with
      entered := s.entered ++ [req]
      pending := s.pending ++ [.request s.entered.length req .app] } k
        = s.pendingOf k ++ if s.entered.length = k then [.request s.entered.length req .app] else [] := by
    simp only [pendingOf, List.filter_append, List.filter_cons, List.filter_nil, Pending.origin]
    by_cases hk : s.entered.length = k <;> simp [hk]
  rw [hpending]
  refine ⟨fun req' hreq' => ?_, fun hk => ?_⟩
  · rcases getElem?_concat_some hreq' with hold | ⟨rfl, rfl⟩
    · have hlt := (List.getElem?_eq_some_iff.mp hold).1
      rw [if_neg (by omega), List.append_nil]
      exact hjourney req' hold
    · obtain ⟨hp, ha, hm⟩ := hnothing (Nat.le_refl _)
      rw [if_pos rfl, hp]
      show Journey L config req' _ (s.answersOf _) (s.sentOf _)
      rw [ha, hm]
      exact .entered
  · have hlt : s.entered.length < k := by
      rw [List.length_append, List.length_singleton] at hk
      omega
    rw [if_neg (by omega), List.append_nil]
    exact hnothing (by omega)

theorem Journeys.advance {s : Cluster} {n : ℕ} {x : Pending} {next : List Pending}
    {answers : List Response} {sent : List (String × ServerPush)} (hs : Journeys L config s)
    (hx : s.pending[n]? = some x) (hmove : Moves L config x next answers sent) (audited : List Audit) :
    Journeys L config (s.advance n x.origin next answers sent audited) := by
  intro k
  obtain ⟨hjourney, hnothing⟩ := hs k
  rw [show (s.advance n x.origin next answers sent audited).answersOf k
      = s.answersOf k ++ if x.origin = k then answers else [] from logOf_append ..,
    show (s.advance n x.origin next answers sent audited).sentOf k
      = s.sentOf k ++ if x.origin = k then sent else [] from logOf_append ..]
  by_cases hk : x.origin = k
  · have hmem : x ∈ s.pendingOf k :=
      List.mem_filter.mpr ⟨List.mem_of_getElem? hx, by simpa using hk⟩
    have hentered : k < s.entered.length := by
      by_contra hge
      rw [(hnothing (by omega)).1] at hmem
      simp at hmem
    refine ⟨fun req hreq => ?_, fun hge => absurd hge (Nat.not_le.mpr hentered)⟩
    have hone := (hjourney req hreq).single hmem
    have hnext : (s.advance n x.origin next answers sent audited).pendingOf k = next := by
      obtain ⟨-, h⟩ := filter_replaceAt_single next hx (by simpa using hk) hone
      refine h.trans (List.filter_eq_self.mpr fun y hy => ?_)
      simpa using (hmove.origin hy).trans hk
    rw [hnext, if_pos hk, if_pos hk]
    exact (hone ▸ hjourney req hreq).moves hmove
  · have hnext : (s.advance n x.origin next answers sent audited).pendingOf k = s.pendingOf k := by
      refine filter_replaceAt_of_not hx (by simpa using hk) (List.filter_eq_nil_iff.mpr fun y hy => ?_)
      simpa [hmove.origin hy] using hk
    rw [hnext, if_neg hk, if_neg hk, List.append_nil, List.append_nil]
    exact ⟨hjourney, hnothing⟩

/-- What holds of the journeys, and of the records of the answers. -/
structure Inv (L : Library) (config : Config) (s : Cluster) : Prop where
  journeys : Journeys L config s
  recorded : ∀ k, Recorded (s.answersOf k) (s.auditedOf k)

theorem inv_create : Inv L config .create :=
  ⟨journeys_create, fun k r hr => by simp [create, answersOf, logOf] at hr⟩

theorem inv_step {s s' : Cluster} {e : ClusterEvent} (hinv : Inv L config s)
    (h : s.step L config e = some s') : Inv L config s' := by
  rcases step_cases h with ⟨req, rfl⟩ | ⟨n, x, next, answers, sent, audited, hx, hmove, hrecorded, rfl⟩
  · exact ⟨hinv.journeys.enter req, hinv.recorded⟩
  · refine ⟨hinv.journeys.advance hx hmove audited, fun k r hr => ?_⟩
    rw [show (s.advance n x.origin next answers sent audited).answersOf k
      = s.answersOf k ++ if x.origin = k then answers else [] from logOf_append ..] at hr
    rw [show (s.advance n x.origin next answers sent audited).auditedOf k
      = s.auditedOf k ++ if x.origin = k then audited else [] from logOf_append ..]
    rcases List.mem_append.mp hr with hold | hnew
    · obtain ⟨a, ha, hcode⟩ := hinv.recorded k r hold
      exact ⟨a, List.mem_append_left _ ha, hcode⟩
    · by_cases hk : x.origin = k
      · rw [if_pos hk] at hnew ⊢
        obtain ⟨a, ha, hcode⟩ := hrecorded r hnew
        exact ⟨a, List.mem_append_right _ ha, hcode⟩
      · rw [if_neg hk] at hnew
        simp at hnew

/-- What an app can conclude about its request `k`. -/
structure EndToEnd (L : Library) (config : Config) (s : Cluster) (k : ℕ) (req : Request) : Prop where
  oneAnswer : (s.answersOf k).length ≤ 1
  oneMessage : (s.sentOf k).length ≤ 1
  checked : ∀ m ∈ s.sentOf k, Carries L config req m.2
  success : ∀ r ∈ s.answersOf k, r.statusCode = 200 →
    ∃ m, s.sentOf k = [m] ∧ Tells L r m.2.requestId
  failure : ∀ r ∈ s.answersOf k, r.statusCode ∉ [200, 502, 504] →
    s.sentOf k = [] ∧ s.pendingOf k = []
  recorded : ∀ r ∈ s.answersOf k, ∃ a ∈ s.auditedOf k, a.code = r.statusCode

theorem Inv.endToEnd {s : Cluster} (hinv : Inv L config s) {k : ℕ} (hreq : s.entered[k]? = some req) :
    EndToEnd L config s k req := by
  have hjourney := (hinv.journeys k).1 req hreq
  exact ⟨hjourney.lengths.1, hjourney.lengths.2, hjourney.carries, hjourney.success, hjourney.failure,
    hinv.recorded k⟩

end Cluster

end

/-- For any number of servers, whatever their client maps, databases and workers answer and however
    late or lost the messages between them are: each request of an app is answered at most once and
    causes at most one message to a worker, which carries its data and has passed the checks with its
    own headers; 200 means that there is one, and tells its request id; any other status than 502 and
    504 means that there is none and will be none. -/
theorem cluster_endToEnd (L : Library) (config : Config) (events : List ClusterEvent) :
    AllStates (Cluster.step L config)
      (fun s => ∀ k req, s.entered[k]? = some req → s.EndToEnd L config k req) .create events := by
  intro pre s _ hrun k req hreq
  have hinv : Cluster.Inv L config s :=
    inv_run (fun _ _ _ h _ hs => Cluster.inv_step h hs) Cluster.inv_create (allSteps_true _ _) hrun
  exact hinv.endToEnd hreq

/-! ### Forwarding is transparent -/

/-- A response of ASCII text is relayed as it is. -/
theorem relay_respond {N : NumberText} {json : Json} (h : IsAscii (json.stringify N).toList)
    (status : ℕ) (via : String) :
    Dispatcher.relay via (respond N status json) = { respond N status json with via := some via } := by
  obtain ⟨hbody, hlength⟩ := respond_ascii h status
  have harrives : arriving (respond N status json).contentLength (respond N status json).body
      = (respond N status json).body := by rw [hlength, hbody, arriving_all]
  rw [Dispatcher.relay, harrives]

/-- A request without a `via` header for a client of another server is forwarded, and the server of the
    client does with the
    forwarded request what it would have done with the original one: the same messages, rows and
    deletes, and the same output. A response of ASCII text then reaches the app as it was, but for the
    `via` header. -/
theorem forwarding_transparent (L : Library) (config : Config) (req : Request)
    (hreq : Dispatcher.isForwarded req.headers = false) (server peer : Server)
    (address address' address'' : String) (db db' : PushAnswers) (client : Row)
    (hclient : db.client = .ok (some client))
    (hremote : includesText client.hostname server.serverId = false)
    (hlocal : ∀ client', db'.client = .ok (some client') →
      includesText client'.hostname peer.serverId = true) (m m' : Master) :
    Push.serve L config req db server address m
        = (⟨m, []⟩, .forwards client.hostname (Dispatcher.forwarded server address req).headers) ∧
      Push.serve L config (Dispatcher.forwarded server address req) db' peer address' m'
        = Push.serve L config req db' peer address'' m' ∧
      ∀ status json, IsAscii (json.stringify L.numbers).toList →
        Dispatcher.relay (Dispatcher.via server) (respond L.numbers status json)
          = { respond L.numbers status json with via := some (Dispatcher.via server) } := by
  refine ⟨?_, ?_, fun status json h => relay_respond h status _⟩
  · simp [Push.serve, hclient, Push.getClientInfo, Push.dispatch, hremote, Push.forwardPush, hreq,
      Dispatcher.forwarded]
  · unfold Push.serve
    rcases hfound : db'.client with e | (_ | client')
    · rfl
    · rfl
    · simp only [Push.getClientInfo, Push.dispatch, hlocal client' hfound, if_true,
        localPush_forwarded]

/-- The row of a client that listens at the second of two servers. -/
def remoteRow : Row := ⟨"puid-0", "clid-0", "10.0.0.2:8443", "1"⟩

def remoteAnswers : PushAnswers := ⟨.ok (some remoteRow), .ok none, .ok 0, "request-0", 0⟩

def firstServer : Server := ⟨"10.0.0.1:8443", "0.1", "first"⟩
def secondServer : Server := ⟨"10.0.0.2:8443", "0.1", "second"⟩

/-- The master of the second server, with the worker of the client. -/
def secondMaster : Master := ⟨List.toAList [⟨"1", ()⟩], .empty, .empty, []⟩

/-- A service that reads the request below. -/
def helloLibrary : Library where
  numbers := ⟨fun _ => "", fun _ => .nan⟩
  urlParse _ := .ok none
  jsonParse _ := .ok (.obj [("message", .str "hello")])
  base64Decode text := text
  shaDigest text := text
  aesEncrypt _ := .error .library

def helloRequest : Request where
  method := "POST"
  headers := List.toAList [⟨"content-type", "application/json"⟩, ⟨"accept", "application/json"⟩,
    ⟨"authorization", "Basic root:letmein"⟩]
  isSpdy := false
  minPingIntervalSec := []
  body := "\x7b\"message\":\"hello\"\x7d"
  pushId := "puid-0"

/-- The push is forwarded, and the second server hands it to its worker. -/
theorem forwarding_transparent_twoServers :
    Dispatcher.isForwarded helloRequest.headers = false ∧
      includesText remoteRow.hostname firstServer.serverId = false ∧
      includesText remoteRow.hostname secondServer.serverId = true ∧
      ∃ h outs, Push.serve helloLibrary .default
            (Dispatcher.forwarded firstServer "10.1.1.1" helloRequest) remoteAnswers secondServer
            "10.0.0.1" secondMaster = (h, .responds outs) ∧
        responses outs = [(200, .obj [("request_id", .str "request-0")])] ∧
        h.master.sent = [("1", ⟨"clid-0", "puid-0", 0, "request-0", .str "hello"⟩)] := by
  have hlocal : ∀ client', remoteAnswers.client = .ok (some client') →
      includesText client'.hostname secondServer.serverId = true := by
    intro client' h
    obtain rfl := Option.some.inj (Except.ok.inj h)
    decide
  have hsame := (forwarding_transparent helloLibrary .default helloRequest (by decide) firstServer
    secondServer "10.1.1.1" "10.0.0.1" "10.1.1.1" remoteAnswers remoteAnswers remoteRow rfl (by decide)
    hlocal secondMaster secondMaster).2.1
  refine ⟨by decide, by decide, by decide, ?_⟩
  rw [hsame]
  exact ⟨_, _, rfl, rfl, rfl⟩

end Elephant.App
