import Elephant.Model.Session
import Elephant.Schemes.Run

/-! The listen side of one worker (`api/v2/listen.coffee`, `api/spdyserver.coffee`).

    An accepted listen request runs `createClientInfo`, `createSession`, `notifyMasterAddClient` and
    `setReqSocketCloseHandler`; the last one leaves a once-only `close` listener on the socket that
    captures the session. When the socket closes, the listeners on it run in registration order, and
    each deletes the session of its client id and tells the master. A socket can carry several
    listens, of one client or of several.

    Here a listen is one step (the pipeline with its gaps is in `Elephant.Listen.Pipeline`). The
    main result says exactly when the session found under a client id is the one of the client's
    latest listen that is still open. -/

namespace Elephant.Listen
open Elephant.Schemes Elephant.Model

/-- The messages a worker sends to its master about clients. -/
inductive WorkerMsg where
  | addClient (clientId : ClientId) (pushId : PushId) (serverId : ServerId) (workerId : WorkerId)
  | delClient (clientId : ClientId) (pushId : PushId)
  deriving DecidableEq, Repr

/-- A worker process, as far as listens go. `closeHandlers` are the pending `close` listeners in
    registration order with the session each one captured; `toMaster` is what was handed to
    `process.send` and not yet delivered, oldest first. -/
structure SpdyServer where
  serverId : ServerId
  workerId : WorkerId
  sessionManager : SessionManager
  nextRef : ℕ
  closeHandlers : List (SocketId × Session)
  closed : List SocketId
  toMaster : List WorkerMsg
  deriving DecidableEq

/-- What the handler stages read of a listen request. -/
structure ListenReq where
  socket : SocketId
  clientId : ClientId
  pushId : PushId
  isSpdy : Bool
  deriving DecidableEq, Repr

/-- A listen request that passed validation. Its client id is one that the service issued, so neither
    `__proto__`, under which a plain object keeps nothing of its own, nor `hasOwnProperty`, which would
    hide the method from `hasSession`. -/
structure AcceptedReq extends ListenReq where
  issued : clientId ≠ "__proto__" ∧ clientId ≠ "hasOwnProperty"
  deriving DecidableEq, Repr

instance : Coe AcceptedReq ListenReq := ⟨AcceptedReq.toListenReq⟩

namespace SpdyServer

def create (serverId : ServerId) (workerId : WorkerId) : SpdyServer where
  serverId := serverId
  workerId := workerId
  sessionManager := .create
  nextRef := 0
  closeHandlers := []
  closed := []
  toMaster := []

/-! ### The stages of `Listen.handle` -/

def createClientInfo (w : SpdyServer) (req : ListenReq) : ClientInfo where
  clientId := req.clientId
  isSpdy := req.isSpdy
  pushId := req.pushId
  serverId := w.serverId
  spdyHandler := if req.isSpdy then some ⟨req.socket⟩ else none
  stream := req.socket
  workerId := w.workerId

/-- The new session object gets the identity `ref`. -/
def createSession (w : SpdyServer) (ref now : ℕ) (clientInfo : ClientInfo) : SpdyServer × Session :=
  let (m, session) := w.sessionManager.addSession ref now clientInfo
  ({ w with sessionManager := m }, session)

def sendMsgToMaster (w : SpdyServer) (msg : WorkerMsg) : SpdyServer :=
  { w with toMaster := w.toMaster ++ [msg] }

def notifyMasterAddClient (w : SpdyServer) (clientInfo : ClientInfo) : SpdyServer :=
  w.sendMsgToMaster
    (.addClient clientInfo.clientId clientInfo.pushId clientInfo.serverId clientInfo.workerId)

def notifyMasterDelClient (w : SpdyServer) (clientId : ClientId) (pushId : PushId) : SpdyServer :=
  w.sendMsgToMaster (.delClient clientId pushId)

/-- `socket.once 'close'` with the captured session. -/
def setReqSocketCloseHandler (w : SpdyServer) (socket : SocketId) (session : Session) :
    SpdyServer :=
  { w with closeHandlers := w.closeHandlers ++ [(socket, session)] }

/-- The body of one `close` listener. -/
def onClose (now : ℕ) (w : SpdyServer) (session : Session) : SpdyServer :=
  let (m, _) := w.sessionManager.deleteSession now session.clientId
  notifyMasterDelClient { w with sessionManager := m } session.clientId session.pushId

/-- The sessions captured by the listeners on `socket`. -/
def listenersOn (w : SpdyServer) (socket : SocketId) : List Session :=
  (w.closeHandlers.filter fun h => h.1 = socket).map Prod.snd

/-- The socket emits `close`: its listeners run in order and are spent. -/
def emitClose (w : SpdyServer) (now : ℕ) (socket : SocketId) : SpdyServer :=
  { (w.listenersOn socket).foldl (onClose now) w with
    closeHandlers := w.closeHandlers.filter fun h => h.1 ≠ socket
    closed := socket :: w.closed }

/-- An accepted listen, all stages in one go. -/
def listen (w : SpdyServer) (now : ℕ) (req : ListenReq) : SpdyServer :=
  let info := w.createClientInfo req
  let (w₁, session) := w.createSession w.nextRef now info
  let w₂ := (w₁.notifyMasterAddClient info).setReqSocketCloseHandler req.socket session
  { w₂ with nextRef := w.nextRef + 1 }

end SpdyServer

/-- What can happen at a worker; times are in milliseconds. -/
inductive Event where
  | listen (now : ℕ) (req : AcceptedReq)
  | close (now : ℕ) (socket : SocketId)
  deriving DecidableEq, Repr

/-- A closed socket carries no further request and does not close twice. -/
def step (w : SpdyServer) : Event → Option SpdyServer
  | .listen now req => if req.socket ∈ w.closed then none else some (w.listen now req)
  | .close now socket => if socket ∈ w.closed then none else some (w.emitClose now socket)

/-- The session created by the listen. -/
def SpdyServer.newSession (w : SpdyServer) (now : ℕ) (req : ListenReq) : Session :=
  .createSession w.nextRef now (w.createClientInfo req)

namespace SpdyServer

variable (w : SpdyServer) (now : ℕ) (req : ListenReq) (socket : SocketId)

@[simp] theorem listen_closeHandlers :
    (w.listen now req).closeHandlers = w.closeHandlers ++ [(req.socket, w.newSession now req)] :=
  rfl

@[simp] theorem listen_toMaster : (w.listen now req).toMaster
    = w.toMaster ++ [.addClient req.clientId req.pushId w.serverId w.workerId] := rfl

@[simp] theorem listen_closed : (w.listen now req).closed = w.closed := rfl

@[simp] theorem listen_ids : (w.listen now req).serverId = w.serverId ∧
    (w.listen now req).workerId = w.workerId := ⟨rfl, rfl⟩

theorem getSession_listen_self (req : AcceptedReq) :
    (w.listen now req).sessionManager.getSession req.clientId
      = some (.own (w.newSession now req)) :=
  SessionManager.getSession_addSession_self _ _ _ req.issued.1

theorem getSession_listen_ne {c : ClientId} (h : c ≠ req.clientId) :
    (w.listen now req).sessionManager.getSession c = w.sessionManager.getSession c :=
  SessionManager.getSession_addSession_ne _ _ _ h

/-! ### Running the close listeners -/

theorem foldl_onClose_toMaster : ∀ (l : List Session) (w : SpdyServer),
    (l.foldl (onClose now) w).toMaster
      = w.toMaster ++ l.map fun s => .delClient s.clientId s.pushId
  | [], w => by simp
  | s :: l, w => by
      rw [List.foldl_cons, foldl_onClose_toMaster l]
      simp [onClose, notifyMasterDelClient, sendMsgToMaster]

theorem foldl_onClose_ids : ∀ (l : List Session) (w : SpdyServer),
    (l.foldl (onClose now) w).serverId = w.serverId ∧
      (l.foldl (onClose now) w).workerId = w.workerId
  | [], _ => ⟨rfl, rfl⟩
  | s :: l, w => by
      rw [List.foldl_cons]; exact foldl_onClose_ids l (onClose now w s)

theorem getSession_foldl_onClose_ne {c : ClientId} : ∀ (l : List Session) (w : SpdyServer),
    (∀ s ∈ l, c ≠ s.clientId) →
    (l.foldl (onClose now) w).sessionManager.getSession c = w.sessionManager.getSession c
  | [], _, _ => rfl
  | s :: l, w, h => by
      rw [List.foldl_cons,
        getSession_foldl_onClose_ne l _ fun s' hs' => h s' (List.mem_cons_of_mem _ hs')]
      exact SessionManager.getSession_deleteSession_ne _ _ (h s (List.mem_cons_self ..))

/-- Once one listener of client `c` has run, nothing the later ones do brings a session back. -/
theorem getSession_foldl_onClose_self {c : ClientId} {x : Session} :
    ∀ (l : List Session) (w : SpdyServer),
      (w.sessionManager.getSession c ≠ some (.own x) ∨ ∃ s ∈ l, s.clientId = c) →
      (l.foldl (onClose now) w).sessionManager.getSession c ≠ some (.own x)
  | [], w, h => by
      rcases h with h | ⟨s, hs, _⟩
      · exact h
      · simp at hs
  | s :: l, w, h => by
      rw [List.foldl_cons]
      refine getSession_foldl_onClose_self l _ ?_
      by_cases hc : s.clientId = c
      · subst hc
        exact Or.inl (SessionManager.getSession_deleteSession_self _ _ _ _)
      · rcases h with h | ⟨s', hs', hcs⟩
        · left
          change (w.sessionManager.deleteSession now s.clientId).1.getSession c ≠ _
          rw [SessionManager.getSession_deleteSession_ne _ _ (Ne.symm hc)]; exact h
        · rcases List.mem_cons.mp hs' with rfl | hs'
          · exact absurd hcs hc
          · exact Or.inr ⟨s', hs', hcs⟩

@[simp] theorem emitClose_closeHandlers : (w.emitClose now socket).closeHandlers
    = w.closeHandlers.filter fun h => h.1 ≠ socket := rfl

@[simp] theorem emitClose_closed : (w.emitClose now socket).closed = socket :: w.closed := rfl

theorem emitClose_toMaster : (w.emitClose now socket).toMaster
    = w.toMaster ++ (w.listenersOn socket).map fun s => .delClient s.clientId s.pushId :=
  foldl_onClose_toMaster ..

theorem emitClose_ids : (w.emitClose now socket).serverId = w.serverId ∧
    (w.emitClose now socket).workerId = w.workerId :=
  foldl_onClose_ids ..

theorem mem_listenersOn {s : Session} :
    s ∈ w.listenersOn socket ↔ (socket, s) ∈ w.closeHandlers := by
  simp [listenersOn]

end SpdyServer

/-! ### What a step does to the sessions -/

/-- A session found after a close was there before, and its client had no listener on the socket. -/
theorem SpdyServer.getSession_emitClose (w : SpdyServer) (now : ℕ) (socket : SocketId) {c : ClientId}
    {x : Session} (hget : (w.emitClose now socket).sessionManager.getSession c = some (.own x)) :
    w.sessionManager.getSession c = some (.own x) ∧
      ∀ s, (socket, s) ∈ w.closeHandlers → s.clientId ≠ c := by
  have hne : ∀ s ∈ w.listenersOn socket, s.clientId ≠ c := fun s hs hc =>
    getSession_foldl_onClose_self now _ w (Or.inr ⟨s, hs, hc⟩) hget
  refine ⟨?_, fun s hs => hne s ((w.mem_listenersOn socket).mpr hs)⟩
  rw [← hget]
  exact (getSession_foldl_onClose_ne now _ w fun s hs => (hne s hs).symm).symm

/-- Every session stays under its own client id. -/
theorem clientId_of_step {w w' : SpdyServer} {e : Event}
    (hw : ∀ c s, w.sessionManager.getSession c = some (.own s) → s.clientId = c)
    (hstep : step w e = some w') (c : ClientId) (s : Session)
    (hget : w'.sessionManager.getSession c = some (.own s)) : s.clientId = c := by
  cases e with
  | listen now req =>
    obtain ⟨-, rfl⟩ := by simpa [step] using hstep
    by_cases hc : c = req.clientId
    · subst hc
      rw [w.getSession_listen_self now req] at hget
      obtain rfl := by simpa using hget
      rfl
    · rw [w.getSession_listen_ne now req hc] at hget; exact hw c s hget
  | close now socket =>
    obtain ⟨-, rfl⟩ := by simpa [step] using hstep
    exact hw c s (w.getSession_emitClose now socket hget).1

/-! ### The session of the latest open listen -/

/-- The listens of client `c` whose socket is still open, oldest first. -/
def openListens (w : SpdyServer) (c : ClientId) : List (SocketId × Session) :=
  w.closeHandlers.filter fun h => h.2.clientId = c

/-- For every client with an open listen, `getSession` finds the session of the latest one. -/
def LatestFound (w : SpdyServer) : Prop :=
  ∀ c h, (openListens w c).getLast? = some h → w.sessionManager.getSession c = some (.own h.2)

/-- The socket that closes is the only open listen socket of each client listening on it. -/
def ClosesLast (w : SpdyServer) : Event → Prop
  | .listen _ _ => True
  | .close _ socket => ∀ s, (socket, s) ∈ w.closeHandlers →
      ∀ h ∈ w.closeHandlers, h.2.clientId = s.clientId → h.1 = socket

instance (w : SpdyServer) (e : Event) : Decidable (ClosesLast w e) := by
  cases e with
  | listen now req => exact isTrue trivial
  | close now socket =>
    exact decidable_of_iff (∀ x ∈ w.closeHandlers, x.1 = socket →
        ∀ h ∈ w.closeHandlers, h.2.clientId = x.2.clientId → h.1 = socket)
      ⟨fun h s hs => h _ hs rfl, fun h x hx hxs => h x.2 (hxs ▸ hx)⟩

theorem openListens_listen_self (w : SpdyServer) (now : ℕ) (req : ListenReq) :
    openListens (w.listen now req) req.clientId
      = openListens w req.clientId ++ [(req.socket, w.newSession now req)] := by
  have hc : (w.newSession now req).clientId = req.clientId := rfl
  simp [openListens, List.filter_append, hc]

theorem openListens_listen_ne (w : SpdyServer) (now : ℕ) {req : ListenReq} {c : ClientId}
    (h : c ≠ req.clientId) : openListens (w.listen now req) c = openListens w c := by
  have hc : (w.newSession now req).clientId = req.clientId := rfl
  simp [openListens, List.filter_append, hc, Ne.symm h]

theorem latestFound_listen {w : SpdyServer} (now : ℕ) (req : AcceptedReq) (hw : LatestFound w) :
    LatestFound (w.listen now req) := by
  intro c h hlast
  by_cases hc : c = req.clientId
  · subst hc
    rw [openListens_listen_self, List.getLast?_concat, Option.some.injEq] at hlast
    subst hlast
    exact w.getSession_listen_self now req
  · rw [openListens_listen_ne w now hc] at hlast
    rw [w.getSession_listen_ne now req hc]
    exact hw c h hlast

theorem latestFound_emitClose {w : SpdyServer} {now : ℕ} {socket : SocketId} (hw : LatestFound w)
    (hlast : ClosesLast w (.close now socket)) : LatestFound (w.emitClose now socket) := by
  intro c h hget
  -- a client with a listen left has none on the closed socket, so its deletes are of other clients
  have hmem : h ∈ openListens (w.emitClose now socket) c := List.mem_of_getLast? hget
  simp only [openListens, SpdyServer.emitClose_closeHandlers, List.mem_filter, decide_eq_true_eq,
    ne_eq] at hmem
  obtain ⟨⟨hmem, hsock⟩, hc⟩ := hmem
  have hne : ∀ s ∈ w.listenersOn socket, c ≠ s.clientId := by
    intro s hs hcs
    rw [SpdyServer.mem_listenersOn] at hs
    exact hsock (hlast s hs h hmem (hc.trans hcs))
  have hkeep : openListens (w.emitClose now socket) c = openListens w c := by
    simp only [openListens, SpdyServer.emitClose_closeHandlers, List.filter_filter]
    refine List.filter_congr fun x hx => ?_
    by_cases hxc : x.2.clientId = c
    · have hxs : x.1 ≠ socket := by
        intro hxs
        exact hne x.2 (by rw [SpdyServer.mem_listenersOn, ← hxs]; exact hx) hxc.symm
      simp [hxs, hxc]
    · simp [hxc]
  rw [hkeep] at hget
  exact (SpdyServer.getSession_foldl_onClose_ne now _ w hne).trans (hw c h hget)

/-- A close that leaves another open listen of one of its clients takes that client's session. -/
theorem not_latestFound_emitClose {w : SpdyServer} {now : ℕ} {socket : SocketId}
    (hn : ¬ ClosesLast w (.close now socket)) : ¬ LatestFound (w.emitClose now socket) := by
  intro hw
  simp only [ClosesLast, not_forall] at hn
  obtain ⟨s, hs, h, hh, hc, hsock⟩ := hn
  have hopen : h ∈ openListens (w.emitClose now socket) s.clientId := by
    simp [openListens, hh, hc, hsock]
  cases hget : (openListens (w.emitClose now socket) s.clientId).getLast? with
  | none => rw [List.getLast?_eq_none_iff] at hget; rw [hget] at hopen; simp at hopen
  | some x =>
    exact SpdyServer.getSession_foldl_onClose_self now (w.listenersOn socket) w
      (Or.inr ⟨s, (w.mem_listenersOn socket).mpr hs, rfl⟩) (hw s.clientId x hget)

/-- For every worker and every sequence of listens and closes it handles, `getSession` finds the
    latest open listen's session throughout iff every close is of a client's last open socket. -/
theorem latestFound_iff_closesLast (serverId : ServerId) (workerId : WorkerId) (es : List Event)
    (w : SpdyServer) (hrun : run step (.create serverId workerId) es = some w) :
    AllStates step LatestFound (.create serverId workerId) es ↔
      AllSteps step ClosesLast (.create serverId workerId) es := by
  refine allStates_iff_allSteps (I := LatestFound) ?_ (fun _ h => h) ?_ ?_ ⟨w, hrun⟩
  · intro w e w' hw hC hstep
    cases e with
    | listen now req =>
      obtain ⟨-, rfl⟩ := by simpa [step] using hstep
      exact latestFound_listen now req hw
    | close now socket =>
      obtain ⟨-, rfl⟩ := by simpa [step] using hstep
      exact latestFound_emitClose hw hC
  · intro w e w' _ hn hstep
    cases e with
    | listen now req => exact absurd trivial hn
    | close now socket =>
      obtain ⟨-, rfl⟩ := by simpa [step] using hstep
      exact not_latestFound_emitClose hn
  · intro c h hlast
    simp [openListens, SpdyServer.create] at hlast

/-- A listen of the client `clid-0`. -/
def AcceptedReq.ofFirst (socket : SocketId) (pushId : PushId) : AcceptedReq :=
  ⟨⟨socket, "clid-0", pushId, true⟩, by simp⟩

/-- A client that reconnects only after its old socket has closed. -/
def reconnectAfterClose : List Event :=
  [.listen 0 (.ofFirst 1 "puid-0"), .close 1500 1, .listen 2000 (.ofFirst 2 "puid-0")]

theorem latestFound_reconnectAfterClose :
    AllStates step LatestFound (.create "10.0.0.1:8443" 1) reconnectAfterClose :=
  (latestFound_iff_closesLast "10.0.0.1:8443" 1 reconnectAfterClose _ rfl).mpr (by decide)

/-- A client that reconnects on a second socket before the first one is seen to close. -/
def reconnectBeforeClose : List Event :=
  [.listen 0 (.ofFirst 1 "puid-0"), .listen 1500 (.ofFirst 2 "puid-0"), .close 2000 1]

/-- Closing the older socket deletes the session of the newer listen. -/
theorem not_latestFound_reconnectBeforeClose :
    ¬ AllStates step LatestFound (.create "10.0.0.1:8443" 1) reconnectBeforeClose := by
  intro h
  have hend := h reconnectBeforeClose _ (List.prefix_refl _) rfl "clid-0" _ rfl
  exact absurd hend (by decide)

end Elephant.Listen
