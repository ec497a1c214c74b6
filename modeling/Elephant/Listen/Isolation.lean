import Elephant.Listen.Pipeline

/-! What the clients of a worker have to do with each other (`Listen.handle`, `SessionManager`).

    All listens of a worker write to one session map, to the listeners of shared sockets and to one
    channel to the master, and their stages interleave freely:

        client c    validate ─▶ info ───────────▶ session ──────────▶ ADD_CLIENT ─▶ close listener
        client d          validate ─▶ info ─▶ session ─▶ ADD_CLIENT ────────▶ close listener

    The main result says that a client does not see the others: leave out every stage of their
    requests, and what the worker has of the client and tells of it is the same. -/

namespace Elephant.Listen
open Elephant.Schemes Elephant.Model

def msgClientId : WorkerMsg → ClientId
  | .addClient c _ _ _ => c
  | .delClient c _ => c

/-- What a worker has of one client. -/
@[ext]
structure View where
  requests : ℕ → Option Request
  session : Option Session
  listeners : List (SocketId × Session)
  messages : List WorkerMsg

def Pipeline.view (p : Pipeline) (c : ClientId) : View where
  requests i := p.requests[i]?.filter fun r => r.req.clientId = c
  session := p.server.sessionManager.sessionMap.lookup c
  listeners := p.server.closeHandlers.filter fun h => h.2.clientId = c
  messages := p.server.toMaster.filter fun m => msgClientId m = c

/-- The event is no stage of another client's request. -/
def concerns (c : ClientId) (p : Pipeline) : PipelineEvent → Bool
  | .advance i _ _ => p.requests[i]?.any fun r => r.req.clientId = c
  | _ => true

/-- What a stage has made is of the client of its request. -/
def Stage.Of (req : ListenReq) : Stage → Prop
  | .createSession info => info.clientId = req.clientId
  | .notifyMaster info session => info.clientId = req.clientId ∧ session.clientId = req.clientId
  | .setCloseHandler session => session.clientId = req.clientId
  | _ => True

/-- Two workers that have the same of the client. -/
structure WorkerAlike (c : ClientId) (w v : SpdyServer) : Prop where
  ids : v.serverId = w.serverId ∧ v.workerId = w.workerId
  closed : v.closed = w.closed
  session : v.sessionManager.sessionMap.lookup c = w.sessionManager.sessionMap.lookup c
  listeners : (v.closeHandlers.filter fun h => h.2.clientId = c)
    = w.closeHandlers.filter fun h => h.2.clientId = c
  messages : (v.toMaster.filter fun m => msgClientId m = c)
    = w.toMaster.filter fun m => msgClientId m = c

section

variable {c : ClientId} {w v : SpdyServer} {i now : ℕ} {valid : Bool} {req : ListenReq} {st : Stage}

theorem WorkerAlike.refl (c : ClientId) (w : SpdyServer) : WorkerAlike c w w :=
  ⟨⟨rfl, rfl⟩, rfl, rfl, rfl, rfl⟩

theorem WorkerAlike.trans {u : SpdyServer} (h : WorkerAlike c w v) (h' : WorkerAlike c v u) :
    WorkerAlike c w u where
  ids := ⟨h'.ids.1.trans h.ids.1, h'.ids.2.trans h.ids.2⟩
  closed := h'.closed.trans h.closed
  session := h'.session.trans h.session
  listeners := h'.listeners.trans h.listeners
  messages := h'.messages.trans h.messages

theorem WorkerAlike.symm (h : WorkerAlike c w v) : WorkerAlike c v w :=
  ⟨⟨h.ids.1.symm, h.ids.2.symm⟩, h.closed.symm, h.session.symm, h.listeners.symm, h.messages.symm⟩

/-! ### The stages -/

theorem Stage.Of.next {out : SpdyServer × Stage × List WorkerMsg} (hst : st.Of req)
    (h : runStage w i now valid req st = some out) : out.2.1.Of req := by
  cases st with
  | validate =>
    obtain rfl := Option.some.inj h
    cases valid <;> trivial
  | createClientInfo => obtain rfl := Option.some.inj h; rfl
  | createSession info => obtain rfl := Option.some.inj h; exact ⟨hst, hst⟩
  | notifyMaster info session => obtain rfl := Option.some.inj h; exact hst.2
  | setCloseHandler session => obtain rfl := Option.some.inj h; trivial
  | listening session => simp [runStage] at h
  | rejected => simp [runStage] at h

/-- A stage of another client's request. -/
theorem WorkerAlike.of_other {out : SpdyServer × Stage × List WorkerMsg} (hst : st.Of req)
    (hc : req.clientId ≠ c) (h : runStage w i now valid req st = some out) :
    WorkerAlike c w out.1 := by
  cases st with
  | validate => obtain rfl := Option.some.inj h; exact .refl c w
  | createClientInfo => obtain rfl := Option.some.inj h; exact .refl c w
  | createSession info =>
    obtain rfl := Option.some.inj h
    have hne : c ≠ info.clientId := fun heq => hc (hst.symm.trans heq.symm)
    refine ⟨⟨rfl, rfl⟩, rfl, ?_, rfl, rfl⟩
    exact (PlainObject.lookup_assign ..).trans (if_neg fun h => hne h.1)
  | notifyMaster info session =>
    obtain rfl := Option.some.inj h
    refine ⟨⟨rfl, rfl⟩, rfl, rfl, rfl, ?_⟩
    have hne : info.clientId ≠ c := fun heq => hc (hst.1.symm.trans heq)
    simp [SpdyServer.notifyMasterAddClient, SpdyServer.sendMsgToMaster, msgClientId, hne]
  | setCloseHandler session =>
    obtain rfl := Option.some.inj h
    refine ⟨⟨rfl, rfl⟩, rfl, rfl, ?_, rfl⟩
    have hne : session.clientId ≠ c := fun heq => hc (hst.symm.trans heq)
    simp [SpdyServer.setReqSocketCloseHandler, hne]
  | listening session => simp [runStage] at h
  | rejected => simp [runStage] at h

/-- A stage of the client's own request does the same at both workers. -/
theorem WorkerAlike.own {out : SpdyServer × Stage × List WorkerMsg} (hw : WorkerAlike c w v)
    (h : runStage w i now valid req st = some out) :
    ∃ v', runStage v i now valid req st = some (v', out.2) ∧ WorkerAlike c out.1 v' := by
  cases st with
  | validate => obtain rfl := Option.some.inj h; exact ⟨v, rfl, hw⟩
  | createClientInfo =>
    obtain rfl := Option.some.inj h
    refine ⟨v, ?_, hw⟩
    simp [runStage, SpdyServer.createClientInfo, hw.ids]
  | createSession info =>
    obtain rfl := Option.some.inj h
    refine ⟨_, rfl, ⟨hw.ids, hw.closed, ?_, hw.listeners, hw.messages⟩⟩
    refine (PlainObject.lookup_assign ..).trans (Eq.trans ?_ (PlainObject.lookup_assign ..).symm)
    rw [hw.session]
  | notifyMaster info session =>
    obtain rfl := Option.some.inj h
    refine ⟨_, rfl, ⟨hw.ids, hw.closed, hw.session, hw.listeners, ?_⟩⟩
    show List.filter _ (v.toMaster ++ _) = List.filter _ (w.toMaster ++ _)
    rw [List.filter_append, List.filter_append, hw.messages]
  | setCloseHandler session =>
    obtain rfl := Option.some.inj h
    refine ⟨_, rfl, ⟨hw.ids, hw.closed, hw.session, ?_, hw.messages⟩⟩
    show List.filter _ (v.closeHandlers ++ _) = List.filter _ (w.closeHandlers ++ _)
    rw [List.filter_append, List.filter_append, hw.listeners]
  | listening session => simp [runStage] at h
  | rejected => simp [runStage] at h

/-! ### A socket that closes -/

/-- The listeners of the client on a socket. -/
theorem listenersOn_filter (w : SpdyServer) (c : ClientId) (socket : SocketId) :
    ((w.listenersOn socket).filter fun s => s.clientId = c)
      = ((w.closeHandlers.filter fun h => h.2.clientId = c).filter fun h => h.1 = socket).map
        Prod.snd := by
  rw [SpdyServer.listenersOn, List.filter_map, List.filter_filter, List.filter_filter]
  congr 1
  refine List.filter_congr fun h _ => ?_
  simp [Bool.and_comm]

theorem lookup_deleteSession (m : SessionManager) (now : ℕ) (c c' : ClientId) :
    (m.deleteSession now c').1.sessionMap.lookup c
      = if c' = c then none else m.sessionMap.lookup c := by
  have herase : (m.sessionMap.erase c').lookup c
      = if c' = c then none else m.sessionMap.lookup c := by
    split
    · rename_i heq
      rw [heq, AList.lookup_erase]
    · rename_i hne
      exact AList.lookup_erase_ne (Ne.symm hne)
  unfold SessionManager.deleteSession
  split
  · exact herase
  · exact herase
  · rename_i hnone
    have habsent : c' ∉ m.sessionMap := (PlainObject.read_eq_none.mp hnone).1
    split
    · rename_i heq
      rw [← heq]
      exact AList.lookup_eq_none.mpr habsent
    · rfl

/-- Running listeners deletes the session of the client iff one of them is its own. -/
theorem lookup_foldl_onClose (now : ℕ) (c : ClientId) : ∀ (l : List Session) (w : SpdyServer),
    (l.foldl (SpdyServer.onClose now) w).sessionManager.sessionMap.lookup c
      = if (l.filter fun s => s.clientId = c) = [] then w.sessionManager.sessionMap.lookup c
        else none := by
  intro l
  induction l with
  | nil => intro w; rfl
  | cons s l ih =>
    intro w
    have hstep : (SpdyServer.onClose now w s).sessionManager.sessionMap.lookup c
        = if s.clientId = c then none else w.sessionManager.sessionMap.lookup c :=
      lookup_deleteSession w.sessionManager now c s.clientId
    rw [List.foldl_cons, ih, hstep]
    by_cases hc : s.clientId = c
    · rw [if_pos hc, List.filter_cons_of_pos (by simpa using hc), if_neg (List.cons_ne_nil _ _)]
      exact ite_self none
    · rw [if_neg hc, List.filter_cons_of_neg (by simpa using hc)]

theorem WorkerAlike.emitClose (hw : WorkerAlike c w v) (now : ℕ) (socket : SocketId) :
    WorkerAlike c (w.emitClose now socket) (v.emitClose now socket) := by
  have hown : ((v.listenersOn socket).filter fun s => s.clientId = c)
      = (w.listenersOn socket).filter fun s => s.clientId = c := by
    rw [listenersOn_filter, listenersOn_filter, hw.listeners]
  refine ⟨?_, ?_, ?_, ?_, ?_⟩
  · obtain ⟨hserver, hworker⟩ := w.emitClose_ids now socket
    obtain ⟨hserver', hworker'⟩ := v.emitClose_ids now socket
    rw [hserver, hworker, hserver', hworker']
    exact hw.ids
  · rw [SpdyServer.emitClose_closed, SpdyServer.emitClose_closed, hw.closed]
  · refine (lookup_foldl_onClose now c _ v).trans (Eq.trans ?_ (lookup_foldl_onClose now c _ w).symm)
    rw [hown, hw.session]
  · rw [SpdyServer.emitClose_closeHandlers, SpdyServer.emitClose_closeHandlers, List.filter_comm,
      hw.listeners, List.filter_comm]
  · have htold (u : SpdyServer) : ((u.listenersOn socket).map fun s =>
        WorkerMsg.delClient s.clientId s.pushId).filter (fun m => msgClientId m = c)
        = ((u.listenersOn socket).filter fun s => s.clientId = c).map fun s =>
          WorkerMsg.delClient s.clientId s.pushId := by
      rw [List.filter_map]
      rfl
    rw [SpdyServer.emitClose_toMaster, SpdyServer.emitClose_toMaster, List.filter_append,
      List.filter_append, hw.messages, htold v, htold w, hown]

end

/-! ### Whole workers -/

/-- Two pipelines that have the same of the client; those of the others may be at other stages. -/
structure Alike (c : ClientId) (p q : Pipeline) : Prop where
  server : WorkerAlike c p.server q.server
  reqs : q.requests.map Request.req = p.requests.map Request.req
  requests : ∀ (i : ℕ) (r : Request), p.requests[i]? = some r → r.req.clientId = c →
    q.requests[i]? = some r
  proper : ∀ r ∈ p.requests, r.stage.Of r.req

section

variable {c : ClientId} {p p' q : Pipeline}

theorem Alike.refl_create (c : ClientId) (serverId : ServerId) (workerId : WorkerId) :
    Alike c (.create serverId workerId) (.create serverId workerId) :=
  ⟨.refl c _, rfl, fun _ _ h _ => h, fun _ h => absurd h List.not_mem_nil⟩

theorem Alike.view (h : Alike c p q) : q.view c = p.view c := by
  refine View.ext (funext fun i => ?_) h.server.session h.server.listeners h.server.messages
  have hreq : (q.requests[i]?).map Request.req = (p.requests[i]?).map Request.req := by
    rw [← List.getElem?_map, ← List.getElem?_map, h.reqs]
  show Option.filter _ q.requests[i]? = Option.filter _ p.requests[i]?
  cases hp : p.requests[i]? with
  | none =>
    rw [hp, Option.map_none, Option.map_eq_none_iff] at hreq
    rw [hreq]
  | some r =>
    by_cases hc : r.req.clientId = c
    · rw [h.requests i r hp hc]
    · rw [hp, Option.map_some, Option.map_eq_some_iff] at hreq
      obtain ⟨r', hr', hreq'⟩ := hreq
      rw [hr', Option.filter_some_neg (by simpa [hreq'] using hc),
        Option.filter_some_neg (by simpa using hc)]

/-- The requests with the stage of one of them changed. -/
theorem map_req_set {l : List Request} {i : ℕ} {r : Request} (hr : l[i]? = some r) (st : Stage) :
    (l.set i ⟨r.req, st⟩).map Request.req = l.map Request.req := by
  obtain ⟨hi, rfl⟩ := List.getElem?_eq_some_iff.mp hr
  have hself := List.set_getElem_self (show i < (l.map Request.req).length by simpa using hi)
  rw [List.map_set]
  simpa using hself

theorem Alike.request (h : Alike c p q) (req : ListenReq) :
    Alike c { p with requests := p.requests ++ [⟨req, .validate⟩] }
      { q with requests := q.requests ++ [⟨req, .validate⟩] } where
  server := h.server
  reqs := by simp [h.reqs]
  requests i r hr hc := by
    have hlen : q.requests.length = p.requests.length := by
      simpa using congrArg List.length h.reqs
    rcases getElem?_concat_some hr with hold | ⟨rfl, rfl⟩
    · exact getElem?_concat_of_some (h.requests i r hold hc)
    · show (q.requests ++ _)[p.requests.length]? = _
      rw [← hlen, List.getElem?_concat_length]
  proper r hr := by
    rcases List.mem_append.mp hr with hold | hnew
    · exact h.proper r hold
    · obtain rfl := List.mem_singleton.mp hnew
      trivial

/-- A stage has run at both. -/
theorem Alike.own {i : ℕ} {r : Request} (h : Alike c p q) (hr : p.requests[i]? = some r)
    (hc : r.req.clientId = c) {w v : SpdyServer} (hw : WorkerAlike c w v) {st : Stage}
    (hst : st.Of r.req) (sent sent' : List (ℕ × WorkerMsg)) :
    Alike c ⟨w, p.requests.set i ⟨r.req, st⟩, sent⟩ ⟨v, q.requests.set i ⟨r.req, st⟩, sent'⟩ where
  server := hw
  reqs := (map_req_set (h.requests i r hr hc) st).trans (h.reqs.trans (map_req_set hr st).symm)
  requests j r' hr' hc' := by
    obtain ⟨hi, -⟩ := List.getElem?_eq_some_iff.mp (h.requests i r hr hc)
    rcases getElem?_set_some.mp hr' with ⟨rfl, -, rfl⟩ | ⟨hne, hold⟩
    · exact List.getElem?_set_self hi
    · exact getElem?_set_some.mpr (.inr ⟨hne, h.requests j r' hold hc'⟩)
  proper r' hr' := by
    rcases List.mem_or_eq_of_mem_set hr' with hold | rfl
    · exact h.proper r' hold
    · exact hst

/-- A stage of another client has run at the first. -/
theorem Alike.other {i : ℕ} {r : Request} (h : Alike c p q) (hr : p.requests[i]? = some r)
    (hc : r.req.clientId ≠ c) {w : SpdyServer} (hw : WorkerAlike c p.server w) {st : Stage}
    (hst : st.Of r.req) (sent : List (ℕ × WorkerMsg)) :
    Alike c ⟨w, p.requests.set i ⟨r.req, st⟩, sent⟩ q where
  server := hw.symm.trans h.server
  reqs := h.reqs.trans (map_req_set hr st).symm
  requests j r' hr' hc' := by
    rcases getElem?_set_some.mp hr' with ⟨-, -, rfl⟩ | ⟨-, hold⟩
    · exact absurd hc' hc
    · exact h.requests j r' hold hc'
  proper r' hr' := by
    rcases List.mem_or_eq_of_mem_set hr' with hold | rfl
    · exact h.proper r' hold
    · exact hst

theorem step_advance {i now : ℕ} {valid : Bool} {r : Request}
    {out : SpdyServer × Stage × List WorkerMsg} (hr : p.requests[i]? = some r)
    (hout : runStage p.server i now valid r.req r.stage = some out) :
    pipelineStep p (.advance i now valid) = some
      ⟨out.1, p.requests.set i ⟨r.req, out.2.1⟩, p.sent ++ out.2.2.map fun m => (i, m)⟩ := by
  simp [pipelineStep, hr, hout]

theorem Alike.kept {e : PipelineEvent} (h : Alike c p q) (hkeep : concerns c p e = true)
    (hstep : pipelineStep p e = some p') : ∃ q', pipelineStep q e = some q' ∧ Alike c p' q' := by
  cases e with
  | request req =>
    simp only [pipelineStep] at hstep
    split at hstep
    · simp at hstep
    · rename_i hopen
      obtain rfl := Option.some.inj hstep
      exact ⟨_, if_neg (h.server.closed ▸ hopen), h.request req⟩
  | advance i now valid =>
    simp only [pipelineStep, Option.bind_eq_some_iff, Option.map_eq_some_iff] at hstep
    obtain ⟨r, hr, out, hout, rfl⟩ := hstep
    have hc : r.req.clientId = c := by simpa [concerns, hr] using hkeep
    have hst := h.proper r (List.mem_of_getElem? hr)
    obtain ⟨v, hv, hw⟩ := h.server.own hout
    exact ⟨_, step_advance (h.requests i r hr hc) hv, h.own hr hc hw (hst.next hout) _ _⟩
  | close now socket =>
    simp only [pipelineStep] at hstep
    split at hstep
    · simp at hstep
    · rename_i hopen
      obtain rfl := Option.some.inj hstep
      exact ⟨_, if_neg (h.server.closed ▸ hopen),
        h.server.emitClose now socket, h.reqs, h.requests, h.proper⟩

theorem Alike.purged {e : PipelineEvent} (h : Alike c p q) (hkeep : concerns c p e = false)
    (hstep : pipelineStep p e = some p') : Alike c p' q := by
  cases e with
  | request req => simp [concerns] at hkeep
  | advance i now valid =>
    simp only [pipelineStep, Option.bind_eq_some_iff, Option.map_eq_some_iff] at hstep
    obtain ⟨r, hr, out, hout, rfl⟩ := hstep
    have hc : r.req.clientId ≠ c := by simpa [concerns, hr] using hkeep
    have hst := h.proper r (List.mem_of_getElem? hr)
    exact h.other hr hc (.of_other hst hc hout) (hst.next hout) _
  | close now socket => simp [concerns] at hkeep

end

/-- Run in one go, the stages of a listen that passes validation are the listen of
    `Elephant.Listen.Worker`. -/
theorem run_stages {p : Pipeline} {req : ListenReq}
    (hr : p.requests[p.server.nextRef]? = some ⟨req, .validate⟩) (now : ℕ) :
    ∃ p', run pipelineStep p (List.replicate 5 (.advance p.server.nextRef now true)) = some p' ∧
      p'.server = { p.server.listen now req with nextRef := p.server.nextRef } ∧
      p'.requests[p.server.nextRef]? = some ⟨req, .listening (p.server.newSession now req)⟩ := by
  obtain ⟨hi, -⟩ := List.getElem?_eq_some_iff.mp hr
  have hget {l : List Request} {r : Request} (hlen : l.length = p.requests.length) :
      (l.set p.server.nextRef r)[p.server.nextRef]? = some r :=
    List.getElem?_set_self (hlen ▸ hi)
  exact ⟨_, run_cons_some.mpr ⟨_, step_advance hr rfl, run_cons_some.mpr
    ⟨_, step_advance (hget rfl) rfl, run_cons_some.mpr ⟨_, step_advance (hget (by simp)) rfl,
      run_cons_some.mpr ⟨_, step_advance (hget (by simp)) rfl, run_cons_some.mpr
        ⟨_, step_advance (hget (by simp)) rfl, rfl⟩⟩⟩⟩⟩, rfl, hget (by simp)⟩

/-- Two clients on one socket, stage by stage in turns, until the socket closes. -/
def inTurns : List PipelineEvent :=
  [.request ⟨1, "clid-0", "puid-0", true⟩, .request ⟨1, "clid-1", "puid-1", true⟩,
    .advance 0 1000 true, .advance 1 1000 true, .advance 1 1001 true, .advance 0 1001 true,
    .advance 0 1002 true, .advance 1 1002 true, .advance 1 1003 true, .advance 1 1004 true,
    .advance 0 1003 true, .close 2000 1]

end Elephant.Listen
