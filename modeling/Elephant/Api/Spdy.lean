import Elephant.Api.Handlers
import Elephant.Listen.Pipeline

/-! Clients without SPDY (`common/validate.coffee`, `config/default.js`).

    The four handlers of a worker start with `Validate.isSpdy`, which looks up a setting by name. A
    listen that passes its validation goes on through the stages of `Elephant.Listen.Pipeline`, any
    number of them at once, and only the stage `createSession` makes a session:

        Listen.validate ─▶ createClientInfo ─▶ createSession ─▶ … ─▶ close
               │
               ╰─▶ refused, the worker is as before

    The main result says for which configurations the worker has sessions of SPDY clients only and
    refuses every other request. -/

namespace Elephant.Api
open Elephant.Schemes Elephant.Model Elephant.Listen
open Elephant.Push (HttpError PushMsg World SendPush.handleFailure SendPush.noPush
  SendPush.pushToClient)

/-- `config/default.js`, with the files it requires. -/
def Config.default : Config where
  settings := List.toAList [⟨"APP_PORT", .num (.fin 8443)⟩, ⟨"SPDY_PORT", .num (.fin 9443)⟩,
    ⟨"FORCE_SPDY_CLIENTS", .bool true⟩, ⟨"WORKERS", .num (.fin 4)⟩, ⟨"DEBUG_LOG", .bool false⟩,
    ⟨"LOG_LEVEL", .str "info"⟩, ⟨"REVOKE_API_ENABLED", .bool false⟩, ⟨"PUSH_TIMEOUT", .num (.fin 4)⟩,
    ⟨"DISPATCH_TIMEOUT", .num (.fin 3000)⟩, ⟨"STORAGE", .str "mysqlclientmap"⟩,
    ⟨"PUSH_STORAGE", .str "mysqlpushrequest"⟩, ⟨"SERVER_PUSH_URL", .str "/api/client/ack"⟩,
    ⟨"MAX_SOCKETS", .num (.fin 1000000)⟩, ⟨"PUSH_CALLBACK_RETRIES", .num (.fin 2)⟩,
    ⟨"EXIT_ON_CLIENT_ERROR", .bool true⟩, ⟨"MEM_WATCH", .bool false⟩, ⟨"UNIT_TEST", .bool false⟩,
    ⟨"AES_KEY", .str "elephant"⟩, ⟨"HEAPDUMP", .str "/var/log/elephant/heapdump-"⟩]
  AUTH := List.toAList [⟨"default", "secret"⟩, ⟨"root", "letmein"⟩]
  REGISTER_AUTH := List.toAList [⟨"default", "secret"⟩, ⟨"root", "letmein"⟩]
  SALT := "elephant"
  MIN_SOCKET_TIMEOUT_SEC := 1200
  RETRY_POLICY := .obj [
    ("server_errors", .obj [("interval_millis", .num (.fin 800)),
      ("exponential_factor", .num (.fin (8 / 5))), ("max_retries", .num (.fin 10))]),
    ("client_errors", .obj [("interval_millis", .num (.fin 200)),
      ("exponential_factor", .num (.fin (17 / 10))), ("max_retries", .num (.fin 50))])]
  NODE_ENV := none

/-! ### A worker that validates its listens -/

/-- `listen` is the end of a validation, with what the database answered; the socket may have closed
    in the meantime. -/
inductive WorkerEvent where
  | listen (req : Request) (db : ListenAnswers) (socket : SocketId)
  | advance (i now : ℕ)
  | close (now : ℕ) (socket : SocketId)

section

variable (L : Library) (config : Config)

/-- Only a validation that ends well leaves something in the worker. -/
def workerStep (p : Pipeline) : WorkerEvent → Option Pipeline
  | .listen req db socket =>
    match Listen.validate L config req db () with
    | (_, .calls [.ok (clientId, _)]) => some { p with
        requests := p.requests ++
          [⟨⟨socket, clientId, req.pushId, req.isSpdy⟩, .createClientInfo⟩] }
    | _ => some p
  | .advance i now => pipelineStep p (.advance i now true)
  | .close now socket => pipelineStep p (.close now socket)

/-- Every session was made by a SPDY request and has a handler to push with. -/
def SpdySessions (w : SpdyServer) : Prop :=
  ∀ c x, w.sessionManager.getSession c = some (.own x) →
    x.isSpdy = true ∧ x.spdyHandler.isSome = true

/-- No push ends with `client does not support push`. -/
def PushSupported (w : SpdyServer) : Prop :=
  ∀ (world : World Unit) (msg : PushMsg) (outcome : Push.Outcome), world.workers () = w →
    SendPush.pushToClient world () msg outcome ≠ some (SendPush.handleFailure world msg SendPush.noPush)

/-- The only response is the one for clients without SPDY, and the state is the one before. -/
def Refused {σ : Type} (s : σ) (r : σ × Option (List Output)) : Prop :=
  r.1 = s ∧ ∃ outs, r.2 = some outs ∧
    responses outs = [(400, .obj [("error", .str "Server supports only SPDY clients")])]

/-- The four handlers refuse every request that is not SPDY. -/
structure OthersRefused : Prop where
  register : ∀ req generated, req.isSpdy = false →
    Refused () (Register.handle L config req generated ())
  listen : ∀ req db now socket w, req.isSpdy = false →
    Refused w (Listen.handle L config req db now socket w)
  refresh : ∀ req db counted, req.isSpdy = false →
    Refused counted (Refresh.handle L config req db counted)
  ack : ∀ req db s, req.isSpdy = false → Refused s (Ack.handle L config req db s)

end

/-! ### With the check switched on -/

variable {L : Library} {config : Config} {req : Request}

def forced (config : Config) : Bool := Json.truthy (config.getConfig "FORCE_SPDY_CLIENT")

theorem isSpdy_refuses (hforced : forced config = true) (hreq : req.isSpdy = false) :
    Validate.isSpdy config req = .error ⟨400, "Server supports only SPDY clients"⟩ := by
  unfold forced at hforced
  simp [Validate.isSpdy, hforced, hreq]

/-- A waterfall is refused by its first task. -/
theorem lift_error_stops {σ α β γ : Type} {e : HttpError} {x : Next α} {f : α → Async σ HttpError β}
    {g : β → Async σ HttpError γ} (hx : x = .error e) (s : σ) :
    (Async.lift x >>= f >>= g) s = (s, .calls [.error e]) := by
  subst hx; rfl

theorem refused_of_tasks {σ α : Type} {complete : Except HttpError α → List Output} {s : σ}
    {r : σ × Reply HttpError α} {e : HttpError} (hr : r = (s, .calls [.error e]))
    (hcomplete : responses (complete (.error e))
      = [(400, .obj [("error", .str "Server supports only SPDY clients")])]) :
    Refused s (finish complete r) := by
  subst hr
  exact ⟨rfl, complete (.error e), by simp [finish], hcomplete⟩

theorem othersRefused_of_forced (hforced : forced config = true) : OthersRefused L config where
  register _ _ hreq := refused_of_tasks (lift_error_stops (isSpdy_refuses hforced hreq) ()) rfl
  listen _ _ _ _ w hreq := refused_of_tasks (lift_error_stops (isSpdy_refuses hforced hreq) w) rfl
  refresh _ _ counted hreq :=
    refused_of_tasks (lift_error_stops (isSpdy_refuses hforced hreq) counted) rfl
  ack _ _ s hreq := refused_of_tasks (lift_error_stops (isSpdy_refuses hforced hreq) s) rfl

/-- Sessions and the requests on their way to one. -/
structure SpdyInv (p : Pipeline) : Prop where
  sessions : SpdySessions p.server
  requests : ∀ r ∈ p.requests, r.req.isSpdy = true
  infos : ∀ r ∈ p.requests, ∀ info, r.stage = .createSession info →
    info.isSpdy = true ∧ info.spdyHandler.isSome = true

theorem SpdyInv.create (serverId : ServerId) (workerId : WorkerId) :
    SpdyInv (.create serverId workerId) where
  sessions c x hget := absurd hget (SessionManager.getSession_create c x)
  requests := by intro r hr; simp [Pipeline.create] at hr
  infos := by intro r hr; simp [Pipeline.create] at hr

theorem SpdyInv.listen {p : Pipeline} (hp : SpdyInv p) {r : ListenReq} (hr : r.isSpdy = true) :
    SpdyInv { p with requests := p.requests ++ [⟨r, .createClientInfo⟩] } where
  sessions := hp.sessions
  requests := by
    intro r' hr'
    rcases List.mem_append.mp hr' with hold | hnew
    · exact hp.requests r' hold
    · obtain rfl := List.mem_singleton.mp hnew; exact hr
  infos := by
    intro r' hr' info hinfo
    rcases List.mem_append.mp hr' with hold | hnew
    · exact hp.infos r' hold info hinfo
    · obtain rfl := List.mem_singleton.mp hnew; simp at hinfo

theorem spdySessions_createSession {w : SpdyServer} (hw : SpdySessions w) {info : ClientInfo}
    (hinfo : info.isSpdy = true ∧ info.spdyHandler.isSome = true) (ref now : ℕ) :
    SpdySessions (w.createSession ref now info).1 := by
  intro c x hget
  rcases SessionManager.getSession_of_addSession hget with ⟨-, rfl⟩ | hold
  · exact hinfo
  · exact hw c x hold

/-- One stage of a request that is SPDY. -/
theorem spdy_runStage {w w' : SpdyServer} {i now : ℕ} {req : ListenReq} {stage stage' : Stage}
    {msgs : List WorkerMsg} (hw : SpdySessions w) (hreq : req.isSpdy = true)
    (hinfo : ∀ info, stage = .createSession info →
      info.isSpdy = true ∧ info.spdyHandler.isSome = true)
    (hrun : runStage w i now true req stage = some (w', stage', msgs)) :
    SpdySessions w' ∧ ∀ info, stage' = .createSession info →
      info.isSpdy = true ∧ info.spdyHandler.isSome = true := by
  cases stage with
  | validate =>
    obtain ⟨rfl, rfl, -⟩ := by simpa [runStage] using hrun
    exact ⟨hw, fun info h => by simp at h⟩
  | createClientInfo =>
    obtain ⟨rfl, rfl, -⟩ := by simpa [runStage] using hrun
    refine ⟨hw, fun info h => ?_⟩
    obtain rfl := by simpa using h
    exact ⟨hreq, by simp [SpdyServer.createClientInfo, hreq]⟩
  | createSession info =>
    obtain ⟨rfl, rfl, -⟩ := by simpa [runStage] using hrun
    exact ⟨spdySessions_createSession hw (hinfo info rfl) i now, fun info h => by simp at h⟩
  | notifyMaster info session =>
    obtain ⟨rfl, rfl, -⟩ := by simpa [runStage] using hrun
    exact ⟨hw, fun info h => by simp at h⟩
  | setCloseHandler session =>
    obtain ⟨rfl, rfl, -⟩ := by simpa [runStage] using hrun
    exact ⟨hw, fun info h => by simp at h⟩
  | listening session => simp [runStage] at hrun
  | rejected => simp [runStage] at hrun

theorem SpdyInv.advance {p p' : Pipeline} (hp : SpdyInv p) {i now : ℕ}
    (hstep : pipelineStep p (.advance i now true) = some p') : SpdyInv p' := by
  simp only [pipelineStep, Option.bind_eq_some_iff, Option.map_eq_some_iff] at hstep
  obtain ⟨r, hr, ⟨w, stage, msgs⟩, hrun, rfl⟩ := hstep
  have hmem : r ∈ p.requests := List.mem_of_getElem? hr
  obtain ⟨hsessions, hinfos⟩ :=
    spdy_runStage hp.sessions (hp.requests r hmem) (hp.infos r hmem) hrun
  refine ⟨hsessions, fun r' hr' => ?_, fun r' hr' => ?_⟩
  · rcases List.mem_or_eq_of_mem_set hr' with hold | rfl
    · exact hp.requests r' hold
    · exact hp.requests r hmem
  · rcases List.mem_or_eq_of_mem_set hr' with hold | rfl
    · exact hp.infos r' hold
    · exact hinfos

theorem SpdyInv.close {p p' : Pipeline} (hp : SpdyInv p) {now : ℕ} {socket : SocketId}
    (hstep : pipelineStep p (.close now socket) = some p') : SpdyInv p' := by
  obtain ⟨-, rfl⟩ := by simpa [pipelineStep] using hstep
  exact ⟨fun c x hget => hp.sessions c x (p.server.getSession_emitClose now socket hget).1,
    hp.requests, hp.infos⟩

/-- What a listen has passed when its validation ends well. -/
theorem isSpdy_of_validate (hforced : forced config = true) {db : ListenAnswers}
    {params : ClientId × JsNum}
    (hvalid : (Listen.validate L config req db ()).2 = .calls [.ok params]) : req.isSpdy = true := by
  cases hreq : req.isSpdy with
  | true => rfl
  | false =>
    unfold Listen.validate at hvalid
    rw [isSpdy_refuses hforced hreq] at hvalid
    simp at hvalid

theorem SpdyInv.step {p p' : Pipeline} {e : WorkerEvent} (hforced : forced config = true)
    (hp : SpdyInv p) (hstep : workerStep L config p e = some p') : SpdyInv p' := by
  cases e with
  | listen req db socket =>
    simp only [workerStep] at hstep
    split at hstep
    · rename_i u clientId ping hvalid
      obtain rfl := Option.some.inj hstep
      exact hp.listen (isSpdy_of_validate hforced (congrArg Prod.snd hvalid))
    · obtain rfl := Option.some.inj hstep; exact hp
  | advance i now => exact hp.advance hstep
  | close now socket => exact hp.close hstep

theorem SpdySessions.pushSupported {w : SpdyServer} (hw : SpdySessions w) : PushSupported w := by
  rintro world msg outcome rfl
  unfold SendPush.pushToClient
  split
  · simp [SendPush.handleFailure, Push.SendPush.noSession, SendPush.noPush]
  · rename_i session hget
    simp [(hw _ session hget).1, SendPush.handleFailure]
  · rename_i session hget
    simp [(hw _ session hget).1, SendPush.handleFailure, Push.SendPush.notWriteable, SendPush.noPush]
  · simp

/-! ### The configurations that keep other clients out -/

/-- For every configuration: in every state that a worker reaches all sessions are of SPDY clients and
    can be pushed to, and every other request is refused with 400 and changes nothing, iff the setting
    `FORCE_SPDY_CLIENT` is truthy. -/
theorem spdyOnly_iff (L : Library) (config : Config) :
    (∀ serverId workerId events, AllStates (workerStep L config)
        (fun p => SpdySessions p.server ∧ PushSupported p.server) (.create serverId workerId) events) ∧
      OthersRefused L config ↔
    Json.truthy (config.getConfig "FORCE_SPDY_CLIENT") = true := by
  constructor
  · rintro ⟨-, hrefused⟩
    by_contra hforced
    -- with the check switched off the next one answers
    obtain ⟨-, outs, houts, hresponses⟩ := hrefused.register ⟨"PUT", ∅, false, [], "", ""⟩ "" rfl
    have hpass : Validate.isSpdy config ⟨"PUT", ∅, false, [], "", ""⟩ = .ok () := by
      simp [Validate.isSpdy, hforced]
    have htasks : Register.tasks (σ := Unit) L config ⟨"PUT", ∅, false, [], "", ""⟩ "" ()
        = ((), .calls [.error ⟨405, "Method 'PUT' not supported, only POST"⟩]) := by
      unfold Register.tasks Register.validate
      rw [hpass]
      rfl
    rw [Register.handle, htasks] at houts
    obtain rfl := Option.some.inj houts
    simp [responses, Register.complete, errorResponse] at hresponses
  · intro hforced
    refine ⟨fun serverId workerId events pre p _ hrun => ?_, othersRefused_of_forced hforced⟩
    have hinv : SpdyInv p :=
      inv_run (fun _ _ _ hp _ hstep => hp.step hforced hstep) (.create serverId workerId)
        (allSteps_true _ pre) hrun
    exact ⟨hinv.sessions, hinv.sessions.pushSupported⟩

/-- A listen that is not SPDY, under the push id that belongs to the client. -/
def plainListen (L : Library) : Request :=
  ⟨"GET", List.toAList [⟨"authorization", "Basic clid-0"⟩], false, ["60"], "",
    Elephant.Refresh.generatePushId L.shaDigest "elephant" "clid-0" 0⟩

theorem validate_plainListen {L : Library} (h60 : L.numbers.ofText "60" = .fin 60) :
    Listen.validate L .default (plainListen L) ⟨.ok none, .ok 0, .ok none⟩ ()
      = ((), .calls [.ok ("clid-0", .fin 60)]) := by
  have hspdy : Validate.isSpdy .default (plainListen L) = .ok () := rfl
  have hget : Validate.isGet (plainListen L) = .ok () := rfl
  have haccept : Validate.acceptsJson (plainListen L) = .ok () := rfl
  have hclient : Validate.parseClientId (plainListen L) = .ok "clid-0" := rfl
  have hpushId : Validate.validatePushId L .default "clid-0" (.str (plainListen L).pushId) (.ok 0)
      = .ok () := by
    simp [Validate.validatePushId, plainListen, Config.default]
  have hping : Listen.validateMinPingInterval (σ := Unit) L (plainListen L)
      = Async.lift (.ok (.fin 60)) := by
    funext s
    have hnumber : Listen.minPingNumber L (plainListen L).minPingIntervalSec = .fin 60 := h60
    have hmissing : Listen.minPingMissing (plainListen L).minPingIntervalSec = false := rfl
    have hpositive : Listen.notPositive (.fin 60) = false := by decide
    simp [Listen.validateMinPingInterval, hnumber, hmissing, hpositive, Async.lift]
  unfold Listen.validate
  simp only [hspdy, hget, haccept, hclient, hpushId, hping, Validate.validateRevokedClientId,
    Validate.validateRevokedPushId, Validate.validateRevoked, Async.lift_ok_bind, Async.pure_apply]

/-- The file has the setting `FORCE_SPDY_CLIENTS`: the check is off, and such a listen gets a session
    that cannot be pushed to. -/
theorem default_admits_plainListen :
    Config.default.getConfig "FORCE_SPDY_CLIENTS" = some (.bool true) ∧
      Config.default.getConfig "FORCE_SPDY_CLIENT" = none ∧
      ∀ L : Library, L.numbers.ofText "60" = .fin 60 → ∃ p x,
        run (workerStep L .default) (.create "server-0" 1)
            [.listen (plainListen L) ⟨.ok none, .ok 0, .ok none⟩ 7, .advance 0 1000, .advance 0 1001]
            = some p ∧
          p.server.sessionManager.getSession "clid-0" = some (.own x) ∧
          x.isSpdy = false ∧ x.spdyHandler = none ∧
          ¬ SpdySessions p.server ∧ ¬ PushSupported p.server := by
  refine ⟨rfl, rfl, fun L h60 => ?_⟩
  have hlisten : workerStep L .default (.create "server-0" 1)
      (.listen (plainListen L) ⟨.ok none, .ok 0, .ok none⟩ 7) = some ⟨.create "server-0" 1,
        [⟨⟨7, "clid-0", (plainListen L).pushId, false⟩, .createClientInfo⟩], []⟩ := by
    simp only [workerStep, validate_plainListen h60]
    rfl
  refine ⟨_, _, by rw [run_cons, hlisten]; rfl, rfl, rfl, rfl, fun h => ?_, fun h => ?_⟩
  · exact Bool.false_ne_true (h "clid-0" _ rfl).1
  · exact h { World.create fun _ => ("server-0", 1) with workers := fun _ => _ }
      ⟨"clid-0", 0, "request-0"⟩ .ok rfl rfl

end Elephant.Api
