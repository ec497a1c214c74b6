import Elephant.Listen.Worker
import Elephant.Schemes.Pool

/-! The listen handler stage by stage (`Listen.handle`).

    The stages of the waterfall run in separate turns of the event loop, and the validations wait for
    the database, so the socket may close between any two of them. Each request advances on its own;
    any number of requests, also of one client or on one socket, are under way at once. A session is
    identified by the request that created it (`ref` is the request's number), and `sent` records
    every message to the master together with the request it belongs to.

        validate ─▶ createClientInfo ─▶ createSession ─▶ notifyMaster ─▶ setCloseHandler ─▶ listening
           │
           ╰─▶ rejected

    The main result: sessions and `ADD_CLIENT` messages are cleaned up after every closed socket
    exactly when every `close` listener is registered before its socket closes. -/

namespace Elephant.Listen
open Elephant.Schemes Elephant.Model

/-- Where a listen request is in the waterfall: the stage that runs next, or how it ended. -/
inductive Stage where
  | validate
  | createClientInfo
  | createSession (clientInfo : ClientInfo)
  | notifyMaster (clientInfo : ClientInfo) (session : Session)
  | setCloseHandler (session : Session)
  | listening (session : Session)
  | rejected
  deriving DecidableEq, Repr

namespace Stage

/-- The session the request has created so far. -/
def session? : Stage → Option Session
  | notifyMaster _ s => some s
  | setCloseHandler s => some s
  | listening s => some s
  | _ => none

/-- The session the master was told about. -/
def announced? : Stage → Option Session
  | setCloseHandler s => some s
  | listening s => some s
  | _ => none

/-- All steps of the request have run. -/
def finished : Stage → Bool
  | listening _ => true
  | rejected => true
  | _ => false

theorem session?_of_announced? {st : Stage} {s : Session} (h : st.announced? = some s) :
    st.session? = some s := by
  cases st <;> simp_all [announced?, session?]

end Stage

structure Request where
  req : ListenReq
  stage : Stage
  deriving DecidableEq, Repr

/-- A worker with its listen requests; request number `i` is `requests[i]`. -/
structure Pipeline where
  server : SpdyServer
  requests : List Request
  sent : List (ℕ × WorkerMsg)
  deriving DecidableEq

def Pipeline.create (serverId : ServerId) (workerId : WorkerId) : Pipeline :=
  ⟨.create serverId workerId, [], []⟩

/-- `advance` runs the next stage of request `i`; `valid` is the verdict of `Listen.validate`, read
    only at that stage. -/
inductive PipelineEvent where
  | request (req : ListenReq)
  | advance (i now : ℕ) (valid : Bool)
  | close (now : ℕ) (socket : SocketId)
  deriving DecidableEq, Repr

/-- The `ADD_CLIENT` and `DEL_CLIENT` messages about a session. -/
def addMsg (s : Session) : WorkerMsg := .addClient s.clientId s.pushId s.serverId s.workerId
def delMsg (s : Session) : WorkerMsg := .delClient s.clientId s.pushId

/-- One stage of request `i`: the worker, the request's next stage and the message sent, if any. -/
def runStage (w : SpdyServer) (i now : ℕ) (valid : Bool) (req : ListenReq) :
    Stage → Option (SpdyServer × Stage × List WorkerMsg)
  | .validate => some (w, if valid then .createClientInfo else .rejected, [])
  | .createClientInfo => some (w, .createSession (w.createClientInfo req), [])
  | .createSession info =>
    let (w', session) := w.createSession i now info
    some (w', .notifyMaster info session, [])
  | .notifyMaster info session =>
    some (w.notifyMasterAddClient info, .setCloseHandler session,
      [.addClient info.clientId info.pushId info.serverId info.workerId])
  | .setCloseHandler session =>
    -- on a socket that has closed already the listener is registered all the same, and never runs
    some (w.setReqSocketCloseHandler req.socket session, .listening session, [])
  | .listening _ => none
  | .rejected => none

def pipelineStep (p : Pipeline) : PipelineEvent → Option Pipeline
  | .request req =>
    if req.socket ∈ p.server.closed then none
    else some { p with requests := p.requests ++ [⟨req, .validate⟩] }
  | .advance i now valid =>
    p.requests[i]?.bind fun r =>
      (runStage p.server i now valid r.req r.stage).map fun (w, stage, msgs) =>
        ⟨w, p.requests.set i ⟨r.req, stage⟩, p.sent ++ msgs.map fun m => (i, m)⟩
  | .close now socket =>
    if socket ∈ p.server.closed then none
    else some { p with
      server := p.server.emitClose now socket
      sent := p.sent ++ (p.server.listenersOn socket).map fun s => (s.ref, delMsg s) }

/-- Once a request's socket is closed and its steps have run, none of its sessions is left, and an
    `ADD_CLIENT` sent for it is followed by the matching `DEL_CLIENT`. -/
def Cleaned (p : Pipeline) : Prop :=
  ∀ i r, p.requests[i]? = some r → r.stage.finished = true → r.req.socket ∈ p.server.closed →
    (∀ c s, p.server.sessionManager.getSession c = some (.own s) → s.ref ≠ i) ∧
    ∀ c puid serverId workerId, (i, .addClient c puid serverId workerId) ∈ p.sent →
      [(i, .addClient c puid serverId workerId), (i, .delClient c puid)].Sublist p.sent

/-- The step does not register a `close` listener on a socket that has closed. -/
def RegistersOpen (p : Pipeline) : PipelineEvent → Prop
  | .advance i _ _ => ∀ r ∈ p.requests[i]?, ∀ s, r.stage = .setCloseHandler s →
      r.req.socket ∉ p.server.closed
  | _ => True

instance (p : Pipeline) (e : PipelineEvent) : Decidable (RegistersOpen p e) :=
  match e with
  | .request _ => isTrue trivial
  | .close _ _ => isTrue trivial
  | .advance i _ _ =>
    match h : p.requests[i]? with
    | none => isTrue fun r hr => by simp [h] at hr
    | some r =>
      decidable_of_iff (∀ s ∈ r.stage.announced?, r.stage = .setCloseHandler s →
          r.req.socket ∉ p.server.closed) <| by
        constructor
        · intro hC r' hr' s hs
          rw [h, Option.mem_some_iff] at hr'; subst hr'
          exact hC s (by rw [hs]; rfl) hs
        · intro hC s _ hs
          exact hC r h s hs

/-! ### The invariant of runs that register in time -/

structure PipelineInv (p : Pipeline) : Prop where
  refs : ∀ (i : ℕ) (r : Request) (s : Session),
    p.requests[i]? = some r → r.stage.session? = some s → s.ref = i
  info : ∀ (i : ℕ) (r : Request) (a : ClientInfo) (s : Session),
    p.requests[i]? = some r → r.stage = .notifyMaster a s →
      .addClient a.clientId a.pushId a.serverId a.workerId = addMsg s
  stored : ∀ (c : ClientId) (s : Session), p.server.sessionManager.getSession c = some (.own s) →
    s.clientId = c ∧ ∃ r, p.requests[s.ref]? = some r ∧ r.stage.session? = some s
  handlers : ∀ h ∈ p.server.closeHandlers,
    ∃ r, p.requests[h.2.ref]? = some r ∧ r.stage = .listening h.2
  sentBy : ∀ m ∈ p.sent, ∃ r s, p.requests[m.1]? = some r ∧ r.stage.announced? = some s ∧
    (m.2 = addMsg s ∨ m.2 = delMsg s ∧ r.stage = .listening s)
  told : ∀ (i : ℕ) (r : Request) (s : Session),
    p.requests[i]? = some r → r.stage.announced? = some s → (i, addMsg s) ∈ p.sent
  watched : ∀ (i : ℕ) (r : Request) (s : Session), p.requests[i]? = some r →
    r.stage = .listening s → r.req.socket ∉ p.server.closed →
      (r.req.socket, s) ∈ p.server.closeHandlers
  cleaned : Cleaned p

theorem pipelineInv_create (serverId : ServerId) (workerId : WorkerId) :
    PipelineInv (.create serverId workerId) := by
  constructor <;> simp [Pipeline.create, SpdyServer.create, SessionManager.create, Cleaned,
    SessionManager.getSession, PlainObject.read_eq_own]

namespace PipelineInv

variable {p : Pipeline} {i : ℕ} {r : Request}

/-- A request with a property that request `i` lacks is still there after request `i` moved. -/
theorem get_other {Q : Request → Prop} (hr : p.requests[i]? = some r) (hn : ¬ Q r) {r₁ r' : Request}
    {j : ℕ} (hr' : p.requests[j]? = some r') (hq : Q r') : (p.requests.set i r₁)[j]? = some r' := by
  rw [getElem?_set_some]
  refine Or.inr ⟨?_, hr'⟩
  rintro rfl
  rw [hr, Option.some.injEq] at hr'; subst hr'
  exact hn hq

/-- A request with a session is still there after one without a session moved. -/
theorem get_of_session (hr : p.requests[i]? = some r) (hn : r.stage.session? = none) {st : Stage}
    {j : ℕ} {r' : Request} {x : Session} (hr' : p.requests[j]? = some r')
    (hx : r'.stage.session? = some x) : (p.requests.set i ⟨r.req, st⟩)[j]? = some r' :=
  get_other (Q := fun r => r.stage.session? ≠ none) hr (by simp [hn]) hr' (by simp [hx])

/-- A request that has created no session owns no session and has sent nothing. -/
theorem owns_nothing (h : PipelineInv p) (hr : p.requests[i]? = some r)
    (hn : r.stage.session? = none) :
    (∀ c s, p.server.sessionManager.getSession c = some (.own s) → s.ref ≠ i) ∧
      ∀ m ∈ p.sent, m.1 ≠ i := by
  constructor
  · rintro c s hget rfl
    obtain ⟨-, r', hr', hs⟩ := h.stored c s hget
    rw [hr, Option.some.injEq] at hr'; subst hr'
    rw [hn] at hs; simp at hs
  · rintro m hm rfl
    obtain ⟨r', s, hr', hs, -⟩ := h.sentBy m hm
    rw [hr, Option.some.injEq] at hr'; subst hr'
    rw [Stage.session?_of_announced? hs] at hn; simp at hn

/-! ### Request `i` moves to the stage `st`: what is known of the others stays -/

section Moves

variable (h : PipelineInv p) {st : Stage}
include h

theorem info_set (hst : ∀ a x, st ≠ .notifyMaster a x) (j : ℕ) (r' : Request) (a : ClientInfo)
    (x : Session) (hj : (p.requests.set i ⟨r.req, st⟩)[j]? = some r')
    (hx : r'.stage = .notifyMaster a x) :
    .addClient a.clientId a.pushId a.serverId a.workerId = addMsg x := by
  rcases getElem?_set_some.mp hj with ⟨-, -, rfl⟩ | ⟨-, hj⟩
  · exact absurd hx (hst a x)
  · exact h.info j r' a x hj hx

theorem watched_set (hst : ∀ x, st ≠ .listening x) (j : ℕ) (r' : Request) (x : Session)
    (hj : (p.requests.set i ⟨r.req, st⟩)[j]? = some r') (hx : r'.stage = .listening x) :
    r'.req.socket ∉ p.server.closed → (r'.req.socket, x) ∈ p.server.closeHandlers := by
  rcases getElem?_set_some.mp hj with ⟨-, -, rfl⟩ | ⟨-, hj⟩
  · exact absurd hx (hst x)
  · exact h.watched j r' x hj hx

theorem told_set (hst : st.announced? = none) (j : ℕ) (r' : Request) (x : Session)
    (hj : (p.requests.set i ⟨r.req, st⟩)[j]? = some r') (hx : r'.stage.announced? = some x) :
    (j, addMsg x) ∈ p.sent := by
  rcases getElem?_set_some.mp hj with ⟨-, -, rfl⟩ | ⟨-, hj⟩
  · rw [hst] at hx; simp at hx
  · exact h.told j r' x hj hx

theorem handlers_set (hr : p.requests[i]? = some r) (hn : r.stage.session? = none)
    (x : SocketId × Session) (hx : x ∈ p.server.closeHandlers) :
    ∃ r', (p.requests.set i ⟨r.req, st⟩)[x.2.ref]? = some r' ∧ r'.stage = .listening x.2 := by
  obtain ⟨r', hr', hst'⟩ := h.handlers x hx
  exact ⟨r', get_of_session hr hn hr' (by rw [hst']; rfl), hst'⟩

theorem sentBy_set (hr : p.requests[i]? = some r) (hn : r.stage.session? = none)
    (m : ℕ × WorkerMsg) (hm : m ∈ p.sent) :
    ∃ r' x, (p.requests.set i ⟨r.req, st⟩)[m.1]? = some r' ∧ r'.stage.announced? = some x ∧
      (m.2 = addMsg x ∨ m.2 = delMsg x ∧ r'.stage = .listening x) := by
  obtain ⟨r', x, hr', hx, hm'⟩ := h.sentBy m hm
  exact ⟨r', x, get_of_session hr hn hr' (Stage.session?_of_announced? hx), hx, hm'⟩

/-- The request keeps its session. -/
theorem refs_set {s : Session} (hr : p.requests[i]? = some r) (hs : r.stage.session? = some s)
    (hst : st.session? = some s) (j : ℕ) (r' : Request) (x : Session)
    (hj : (p.requests.set i ⟨r.req, st⟩)[j]? = some r') (hx : r'.stage.session? = some x) :
    x.ref = j := by
  rcases getElem?_set_some.mp hj with ⟨rfl, -, rfl⟩ | ⟨-, hj⟩
  · exact h.refs i r x hr (hs.trans (hst.symm.trans hx))
  · exact h.refs j r' x hj hx

end Moves

/-! ### The stages -/

/-- A stage that neither has nor makes a session. -/
theorem quiet (h : PipelineInv p) (hr : p.requests[i]? = some r) (hn : r.stage.session? = none)
    {st : Stage} (hst : st.session? = none) :
    PipelineInv { p with requests := p.requests.set i ⟨r.req, st⟩ } := by
  have hann : st.announced? = none := by
    cases hx : st.announced? with
    | none => rfl
    | some x => rw [Stage.session?_of_announced? hx] at hst; simp at hst
  constructor
  · intro j r' x hj hx
    rcases getElem?_set_some.mp hj with ⟨-, -, rfl⟩ | ⟨-, hj⟩
    · rw [hst] at hx; simp at hx
    · exact h.refs j r' x hj hx
  · exact h.info_set fun a x hx => by rw [hx] at hst; simp [Stage.session?] at hst
  · intro c x hget
    obtain ⟨hc, r', hr', hx⟩ := h.stored c x hget
    exact ⟨hc, r', get_of_session hr hn hr' hx, hx⟩
  · exact h.handlers_set hr hn
  · exact h.sentBy_set hr hn
  · exact h.told_set hann
  · exact h.watched_set fun x hx => by rw [hx] at hst; simp [Stage.session?] at hst
  · intro j r' hj hfin hclosed
    rcases getElem?_set_some.mp hj with ⟨rfl, -, rfl⟩ | ⟨-, hj⟩
    · obtain ⟨hsess, hsent⟩ := h.owns_nothing hr hn
      exact ⟨hsess, fun _ _ _ _ hm => absurd rfl (hsent _ hm)⟩
    · exact h.cleaned j r' hj hfin hclosed

/-- `createSession`: the new session is the request's own and goes under its client id. -/
theorem createSession (h : PipelineInv p) {info : ClientInfo} (hr : p.requests[i]? = some r)
    (hst : r.stage = .createSession info) (now : ℕ) :
    PipelineInv { p with
      server := (p.server.createSession i now info).1
      requests := p.requests.set i ⟨r.req, .notifyMaster info (.createSession i now info)⟩ } := by
  have hn : r.stage.session? = none := by rw [hst]; rfl
  have hi : i < p.requests.length := (List.getElem?_eq_some_iff.mp hr).1
  have hget : ∀ c x, (p.server.createSession i now info).1.sessionManager.getSession c
      = some (.own x) → (c = info.clientId ∧ x = .createSession i now info) ∨
        p.server.sessionManager.getSession c = some (.own x) :=
    fun c x hx => SessionManager.getSession_of_addSession hx
  constructor
  · intro j r' x hj hx
    rcases getElem?_set_some.mp hj with ⟨rfl, -, rfl⟩ | ⟨-, hj⟩
    · simp only [Stage.session?, Option.some.injEq] at hx; subst hx; rfl
    · exact h.refs j r' x hj hx
  · intro j r' a x hj hx
    rcases getElem?_set_some.mp hj with ⟨-, -, rfl⟩ | ⟨-, hj⟩
    · simp only [Stage.notifyMaster.injEq] at hx
      obtain ⟨rfl, rfl⟩ := hx; rfl
    · exact h.info j r' a x hj hx
  · intro c x hx
    rcases hget c x hx with ⟨rfl, rfl⟩ | hx
    · exact ⟨rfl, _, getElem?_set_some.mpr (Or.inl ⟨rfl, hi, rfl⟩), rfl⟩
    · obtain ⟨hc, r', hr', hx⟩ := h.stored c x hx
      exact ⟨hc, r', get_of_session hr hn hr' hx, hx⟩
  · exact h.handlers_set hr hn
  · exact h.sentBy_set hr hn
  · exact h.told_set rfl
  · exact h.watched_set fun x => by simp
  · intro j r' hj hfin hclosed
    rcases getElem?_set_some.mp hj with ⟨-, -, rfl⟩ | ⟨hne, hj⟩
    · simp [Stage.finished] at hfin
    · obtain ⟨hsess, hsent⟩ := h.cleaned j r' hj hfin hclosed
      refine ⟨fun c x hx => ?_, hsent⟩
      rcases hget c x hx with ⟨-, rfl⟩ | hx
      · exact hne
      · exact hsess c x hx

/-- A request that keeps its session when it moves is found with it again. -/
theorem get_same {st : Stage} {s : Session} (hr : p.requests[i]? = some r)
    (hs : r.stage.session? = some s) (hst : st.session? = some s) {j : ℕ} {x : Session}
    (hj : ∃ r', p.requests[j]? = some r' ∧ r'.stage.session? = some x) :
    ∃ r', (p.requests.set i ⟨r.req, st⟩)[j]? = some r' ∧ r'.stage.session? = some x := by
  obtain ⟨r', hr', hx⟩ := hj
  by_cases hij : i = j
  · subst hij
    rw [hr, Option.some.injEq] at hr'; subst hr'
    have hi : i < p.requests.length := (List.getElem?_eq_some_iff.mp hr).1
    rw [hs, Option.some.injEq] at hx; subst hx
    exact ⟨_, getElem?_set_some.mpr (Or.inl ⟨rfl, hi, rfl⟩), hst⟩
  · exact ⟨r', getElem?_set_some.mpr (Or.inr ⟨hij, hr'⟩), hx⟩

/-- `notifyMasterAddClient`: the request's `ADD_CLIENT` goes out. -/
theorem notifyMaster (h : PipelineInv p) {info : ClientInfo} {s : Session}
    (hr : p.requests[i]? = some r) (hst : r.stage = .notifyMaster info s) :
    PipelineInv ⟨p.server.notifyMasterAddClient info,
      p.requests.set i ⟨r.req, .setCloseHandler s⟩,
      p.sent ++ [(i, .addClient info.clientId info.pushId info.serverId info.workerId)]⟩ := by
  have hs : r.stage.session? = some s := by rw [hst]; rfl
  have hi : i < p.requests.length := (List.getElem?_eq_some_iff.mp hr).1
  have hmsg := h.info i r info s hr hst
  -- a request the master was told about is not request `i`
  have hother : ∀ {j : ℕ} {r' : Request} {x : Session}, p.requests[j]? = some r' →
      r'.stage.announced? = some x → (p.requests.set i ⟨r.req, .setCloseHandler s⟩)[j]? = some r' := by
    intro j r' x hj hx
    refine get_other (Q := fun r => r.stage.announced? = some x) hr ?_ hj hx
    simp [hst, Stage.announced?]
  constructor
  · exact h.refs_set hr hs rfl
  · exact h.info_set fun a x => by simp
  · intro c x hget
    obtain ⟨hc, hx⟩ := h.stored c x hget
    exact ⟨hc, get_same hr hs rfl hx⟩
  · intro x hx
    obtain ⟨r', hr', hst'⟩ := h.handlers x hx
    exact ⟨r', hother (x := x.2) hr' (by rw [hst']; rfl), hst'⟩
  · intro m hm
    rcases List.mem_append.mp hm with hm | hm
    · obtain ⟨r', x, hr', hx, hm'⟩ := h.sentBy m hm
      exact ⟨r', x, hother hr' hx, hx, hm'⟩
    · rw [List.mem_singleton] at hm; subst hm
      exact ⟨_, s, getElem?_set_some.mpr (Or.inl ⟨rfl, hi, rfl⟩), rfl, Or.inl hmsg⟩
  · intro j r' x hj hx
    rcases getElem?_set_some.mp hj with ⟨rfl, -, rfl⟩ | ⟨-, hj⟩
    · simp only [Stage.announced?, Option.some.injEq] at hx; subst hx
      rw [hmsg]; exact List.mem_append_right _ (List.mem_singleton_self _)
    · exact List.mem_append_left _ (h.told j r' x hj hx)
  · exact h.watched_set fun x => by simp
  · intro j r' hj hfin hclosed
    rcases getElem?_set_some.mp hj with ⟨-, -, rfl⟩ | ⟨hne, hj⟩
    · simp [Stage.finished] at hfin
    · obtain ⟨hsess, hsent⟩ := h.cleaned j r' hj hfin hclosed
      refine ⟨hsess, fun c puid sv wk hm => ?_⟩
      rcases List.mem_append.mp hm with hm | hm
      · exact (hsent c puid sv wk hm).trans (List.sublist_append_left _ _)
      · simp only [List.mem_singleton, Prod.mk.injEq] at hm
        exact absurd hm.1.symm hne

/-- `setReqSocketCloseHandler` on a socket that is still open. -/
theorem setCloseHandler (h : PipelineInv p) {s : Session} (hr : p.requests[i]? = some r)
    (hst : r.stage = .setCloseHandler s) (hopen : r.req.socket ∉ p.server.closed) :
    PipelineInv { p with
      server := p.server.setReqSocketCloseHandler r.req.socket s
      requests := p.requests.set i ⟨r.req, .listening s⟩ } := by
  have hs : r.stage.session? = some s := by rw [hst]; rfl
  have hann : r.stage.announced? = some s := by rw [hst]; rfl
  have hi : i < p.requests.length := (List.getElem?_eq_some_iff.mp hr).1
  have hself : (p.requests.set i ⟨r.req, .listening s⟩)[i]? = some ⟨r.req, .listening s⟩ :=
    getElem?_set_some.mpr (Or.inl ⟨rfl, hi, rfl⟩)
  have hlist : ∀ {j : ℕ} {r' : Request} {x : Session}, p.requests[j]? = some r' →
      r'.stage = .listening x → (p.requests.set i ⟨r.req, .listening s⟩)[j]? = some r' := by
    intro j r' x hj hx
    refine get_other (Q := fun r => r.stage = .listening x) hr ?_ hj hx
    simp [hst]
  constructor
  · exact h.refs_set hr hs rfl
  · exact h.info_set fun a x => by simp
  · intro c x hget
    obtain ⟨hc, hx⟩ := h.stored c x hget
    exact ⟨hc, get_same hr hs rfl hx⟩
  · intro x hx
    rcases List.mem_append.mp hx with hx | hx
    · obtain ⟨r', hr', hst'⟩ := h.handlers x hx
      exact ⟨r', hlist hr' hst', hst'⟩
    · rw [List.mem_singleton] at hx; subst hx
      rw [h.refs i r s hr hs]; exact ⟨_, hself, rfl⟩
  · intro m hm
    obtain ⟨r', x, hr', hx, hm'⟩ := h.sentBy m hm
    by_cases him : i = m.1
    · rw [← him, hr, Option.some.injEq] at hr'; subst hr'
      rw [hann, Option.some.injEq] at hx; subst hx
      refine ⟨_, s, getElem?_set_some.mpr (Or.inl ⟨him, hi, rfl⟩), rfl, ?_⟩
      rcases hm' with hm' | ⟨hm', -⟩
      · exact Or.inl hm'
      · exact Or.inr ⟨hm', rfl⟩
    · exact ⟨r', x, getElem?_set_some.mpr (Or.inr ⟨him, hr'⟩), hx, hm'⟩
  · intro j r' x hj hx
    rcases getElem?_set_some.mp hj with ⟨rfl, -, rfl⟩ | ⟨-, hj⟩
    · exact h.told i r x hr (hann.trans hx)
    · exact h.told j r' x hj hx
  · intro j r' x hj hx hnc
    rcases getElem?_set_some.mp hj with ⟨-, -, rfl⟩ | ⟨-, hj⟩
    · simp only [Stage.listening.injEq] at hx; subst hx
      exact List.mem_append_right _ (List.mem_singleton_self _)
    · exact List.mem_append_left _ (h.watched j r' x hj hx hnc)
  · intro j r' hj hfin hclosed
    rcases getElem?_set_some.mp hj with ⟨-, -, rfl⟩ | ⟨-, hj⟩
    · exact absurd hclosed hopen
    · exact h.cleaned j r' hj hfin hclosed

/-- The socket closes. -/
theorem close (h : PipelineInv p) (now : ℕ) (socket : SocketId) :
    PipelineInv { p with
      server := p.server.emitClose now socket
      sent := p.sent ++ (p.server.listenersOn socket).map fun s => (s.ref, delMsg s) } := by
  have hadd : ∀ {j a b c d},
      (j, .addClient a b c d) ∈ p.sent ++ (p.server.listenersOn socket).map
        (fun s => (s.ref, delMsg s)) → (j, .addClient a b c d) ∈ p.sent := by
    intro j a b c d hm
    rcases List.mem_append.mp hm with hm | hm
    · exact hm
    · simp [delMsg] at hm
  constructor
  · exact h.refs
  · exact h.info
  · intro c x hget
    exact h.stored c x (SpdyServer.getSession_emitClose _ _ _ hget).1
  · intro x hx
    exact h.handlers x (List.mem_of_mem_filter hx)
  · intro m hm
    rcases List.mem_append.mp hm with hm | hm
    · exact h.sentBy m hm
    · obtain ⟨s, hs, rfl⟩ := List.mem_map.mp hm
      obtain ⟨r', hr', hst'⟩ := h.handlers _ ((p.server.mem_listenersOn socket).mp hs)
      exact ⟨r', s, hr', by rw [hst']; rfl, Or.inr ⟨rfl, hst'⟩⟩
  · intro j r' x hj hx
    exact List.mem_append_left _ (h.told j r' x hj hx)
  · intro j r' x hj hx hnc
    simp only [SpdyServer.emitClose_closed, List.mem_cons, not_or] at hnc
    simpa [hnc.1] using h.watched j r' x hj hx hnc.2
  · intro j r' hj hfin hclosed
    by_cases hbefore : r'.req.socket ∈ p.server.closed
    · obtain ⟨hsess, hsent⟩ := h.cleaned j r' hj hfin hbefore
      refine ⟨fun c x hx => hsess c x (SpdyServer.getSession_emitClose _ _ _ hx).1, fun a b c d hm => ?_⟩
      exact (hsent a b c d (hadd hm)).trans (List.sublist_append_left _ _)
    · -- the socket that closes now carries request `j`: either it was rejected or its listener runs
      have hsock : r'.req.socket = socket := by
        simpa [SpdyServer.emitClose_closed, hbefore] using hclosed
      cases hst : r'.stage with
      | rejected =>
        obtain ⟨hsess, hsent⟩ := h.owns_nothing hj (by rw [hst]; rfl)
        exact ⟨fun c x hx => hsess c x (SpdyServer.getSession_emitClose _ _ _ hx).1,
          fun _ _ _ _ hm => absurd rfl (hsent _ (hadd hm))⟩
      | listening s =>
        have hmem : (socket, s) ∈ p.server.closeHandlers := hsock ▸ h.watched j r' s hj hst hbefore
        refine ⟨fun c x hx hxj => ?_, fun a b c d hm => ?_⟩
        · obtain ⟨hx, hne⟩ := SpdyServer.getSession_emitClose _ _ _ hx
          obtain ⟨hc, r'', hr'', hxs⟩ := h.stored c x hx
          rw [hxj, hj, Option.some.injEq] at hr''; subst hr''
          rw [hst, Stage.session?, Option.some.injEq] at hxs; subst hxs
          exact hne s hmem hc
        · obtain ⟨r'', x, hr'', hx, hmx⟩ := h.sentBy _ (hadd hm)
          rw [hj, Option.some.injEq] at hr''; subst hr''
          rw [hst, Stage.announced?, Option.some.injEq] at hx; subst hx
          have hmsg : WorkerMsg.addClient a b c d = addMsg s := by
            simpa [delMsg] using hmx
          obtain ⟨rfl, rfl, -, -⟩ := WorkerMsg.addClient.inj hmsg
          refine (List.singleton_sublist.mpr (hadd hm)).append (List.singleton_sublist.mpr ?_)
          refine List.mem_map.mpr ⟨s, (p.server.mem_listenersOn socket).mpr hmem, ?_⟩
          rw [h.refs j r' s hj (by rw [hst]; rfl)]; rfl
      | _ => rw [hst] at hfin; simp [Stage.finished] at hfin

/-- A new request has created nothing. -/
theorem request (h : PipelineInv p) (req : ListenReq) :
    PipelineInv { p with requests := p.requests ++ [⟨req, .validate⟩] } := by
  have hnew : ∀ {j : ℕ} {r' : Request}, (p.requests ++ [⟨req, .validate⟩])[j]? = some r' →
      p.requests[j]? = some r' ∨ r'.stage = .validate := by
    intro j r' hj
    rcases getElem?_concat_some hj with hj | ⟨-, rfl⟩
    · exact Or.inl hj
    · exact Or.inr rfl
  constructor
  · intro j r' x hj hx
    rcases hnew hj with hj | hv
    · exact h.refs j r' x hj hx
    · rw [hv] at hx; simp [Stage.session?] at hx
  · intro j r' a x hj hx
    rcases hnew hj with hj | hv
    · exact h.info j r' a x hj hx
    · rw [hv] at hx; simp at hx
  · intro c x hget
    obtain ⟨hc, r', hr', hx⟩ := h.stored c x hget
    exact ⟨hc, r', getElem?_concat_of_some hr', hx⟩
  · intro x hx
    obtain ⟨r', hr', hst'⟩ := h.handlers x hx
    exact ⟨r', getElem?_concat_of_some hr', hst'⟩
  · intro m hm
    obtain ⟨r', x, hr', hx, hm'⟩ := h.sentBy m hm
    exact ⟨r', x, getElem?_concat_of_some hr', hx, hm'⟩
  · intro j r' x hj hx
    rcases hnew hj with hj | hv
    · exact h.told j r' x hj hx
    · rw [hv] at hx; simp [Stage.announced?] at hx
  · intro j r' x hj hx
    rcases hnew hj with hj | hv
    · exact h.watched j r' x hj hx
    · rw [hv] at hx; simp at hx
  · intro j r' hj hfin hclosed
    rcases hnew hj with hj | hv
    · exact h.cleaned j r' hj hfin hclosed
    · rw [hv] at hfin; simp [Stage.finished] at hfin

end PipelineInv

theorem pipelineInv_step {p p' : Pipeline} {e : PipelineEvent} (h : PipelineInv p)
    (hC : RegistersOpen p e) (hstep : pipelineStep p e = some p') : PipelineInv p' := by
  cases e with
  | request req =>
    obtain ⟨-, rfl⟩ := by simpa [pipelineStep] using hstep
    exact h.request req
  | close now socket =>
    obtain ⟨-, rfl⟩ := by simpa [pipelineStep] using hstep
    exact h.close now socket
  | advance i now valid =>
    obtain ⟨r, hr, hstage⟩ := Option.bind_eq_some_iff.mp hstep
    obtain ⟨⟨w, st, msgs⟩, hrun, rfl⟩ := Option.map_eq_some_iff.mp hstage
    cases hst : r.stage with
    | validate =>
      rw [hst, runStage, Option.some.injEq, Prod.mk.injEq, Prod.mk.injEq] at hrun
      obtain ⟨rfl, rfl, rfl⟩ := hrun
      simpa using h.quiet hr (by rw [hst]; rfl) (by cases valid <;> rfl)
    | createClientInfo =>
      rw [hst, runStage, Option.some.injEq, Prod.mk.injEq, Prod.mk.injEq] at hrun
      obtain ⟨rfl, rfl, rfl⟩ := hrun
      simpa using h.quiet hr (by rw [hst]; rfl) rfl
    | createSession info =>
      rw [hst, runStage, Option.some.injEq, Prod.mk.injEq, Prod.mk.injEq] at hrun
      obtain ⟨rfl, rfl, rfl⟩ := hrun
      simp only [List.map_nil, List.append_nil]
      exact h.createSession hr hst now
    | notifyMaster info s =>
      rw [hst, runStage, Option.some.injEq, Prod.mk.injEq, Prod.mk.injEq] at hrun
      obtain ⟨rfl, rfl, rfl⟩ := hrun
      exact h.notifyMaster hr hst
    | setCloseHandler s =>
      rw [hst, runStage, Option.some.injEq, Prod.mk.injEq, Prod.mk.injEq] at hrun
      obtain ⟨rfl, rfl, rfl⟩ := hrun
      simpa using h.setCloseHandler hr hst (hC r hr s hst)
    | listening s => rw [hst] at hrun; simp [runStage] at hrun
    | rejected => rw [hst] at hrun; simp [runStage] at hrun

/-- A listener registered on a closed socket leaves an `ADD_CLIENT` that nothing takes back. -/
theorem not_cleaned_of_late {p p' : Pipeline} {e : PipelineEvent} (h : PipelineInv p)
    (hn : ¬ RegistersOpen p e) (hstep : pipelineStep p e = some p') : ¬ Cleaned p' := by
  cases e with
  | request req => exact absurd trivial hn
  | close now socket => exact absurd trivial hn
  | advance i now valid =>
    simp only [RegistersOpen, Option.mem_def, not_forall, not_not] at hn
    obtain ⟨r, hr, s, hst, hclosed⟩ := hn
    simp only [pipelineStep, hr, hst, runStage, Option.bind_some, Option.map_some,
      Option.some.injEq] at hstep
    subst hstep
    intro hcl
    have hi : i < p.requests.length := (List.getElem?_eq_some_iff.mp hr).1
    have hself : (p.requests.set i ⟨r.req, .listening s⟩)[i]? = some ⟨r.req, .listening s⟩ :=
      getElem?_set_some.mpr (Or.inl ⟨rfl, hi, rfl⟩)
    have hadd : (i, addMsg s) ∈ p.sent := h.told i r s hr (by rw [hst]; rfl)
    have hsub := (hcl i _ hself rfl hclosed).2 _ _ _ _ (List.mem_append_left _ hadd)
    have hdel : (i, delMsg s) ∈ p.sent := by
      simpa [delMsg] using hsub.subset (List.mem_cons_of_mem _ (List.mem_singleton_self _))
    obtain ⟨r', x, hr', -, hm⟩ := h.sentBy _ hdel
    rw [hr, Option.some.injEq] at hr'; subst hr'
    simp [delMsg, addMsg, hst] at hm

/-- For every worker and every interleaving of listen stages and socket closes, every closed socket
    is cleaned up after throughout iff no `close` listener is registered on a closed socket. -/
theorem cleaned_iff_registersOpen (serverId : ServerId) (workerId : WorkerId)
    (es : List PipelineEvent) (p : Pipeline)
    (hrun : run pipelineStep (.create serverId workerId) es = some p) :
    AllStates pipelineStep Cleaned (.create serverId workerId) es ↔
      AllSteps pipelineStep RegistersOpen (.create serverId workerId) es :=
  allStates_iff_allSteps (I := PipelineInv) (fun _ _ _ => pipelineInv_step) (fun _ h => h.cleaned)
    (fun _ _ _ => not_cleaned_of_late) (pipelineInv_create serverId workerId) ⟨p, hrun⟩

/-- A listen whose socket closes after its last stage. -/
def closeAfterListen : List PipelineEvent :=
  [.request ⟨1, "clid-0", "puid-0", true⟩, .advance 0 10 true, .advance 0 10 true,
    .advance 0 10 true, .advance 0 10 true, .advance 0 10 true, .close 900 1]

theorem cleaned_closeAfterListen :
    AllStates pipelineStep Cleaned (.create "10.0.0.1:8443" 1) closeAfterListen :=
  (cleaned_iff_registersOpen "10.0.0.1:8443" 1 closeAfterListen _ rfl).mpr (by decide)

/-- A listen whose socket closes while the validations wait for the database. -/
def closeDuringValidate : List PipelineEvent :=
  [.request ⟨1, "clid-0", "puid-0", true⟩, .close 5 1, .advance 0 10 true, .advance 0 10 true,
    .advance 0 10 true, .advance 0 10 true, .advance 0 10 true]

/-- The session outlives its socket, and no `DEL_CLIENT` follows the `ADD_CLIENT`. -/
theorem not_cleaned_closeDuringValidate :
    ¬ AllStates pipelineStep Cleaned (.create "10.0.0.1:8443" 1) closeDuringValidate := by
  intro h
  have hend := h closeDuringValidate _ (List.prefix_refl _) rfl 0 _ rfl rfl (by decide)
  exact absurd rfl (hend.1 "clid-0" _ rfl)

end Elephant.Listen
