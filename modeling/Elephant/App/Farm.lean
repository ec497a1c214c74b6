import Elephant.App.LocalPush
import Elephant.ClientMap.Ordering

/-! All servers with their workers, and pushes on their way through them.

    A server is a master with the workers it has forked; when a worker exits its id is not used again.
    The servers share the client map. Everything below runs in turns, and any number of the following
    are under way at once: `ADD_CLIENT` and `DEL_CLIENT` handlers, one database operation at a time,
    and local pushes, which read the client map once and act on what they have read.

        listen, close ─▶ toMaster ─▶ handlers ─▶ connected_push_id
                                                   │         ▲
        push: lookedUp ◀──────────────────────────╯         │ removing
                 │                                           │
                 ╰▶ stored ─▶ worker gone ───────────────────╯
                       ╰────▶ handedOver ─▶ delivered, failed, broken -/

namespace Elephant.App
open Elephant.Schemes Elephant.Model Elephant.Listen Elephant.ClientMap Elephant.Api
open Elephant.Push (HttpError World PushMsg)

/-- How far a local push is. One that has `failed` was not written anywhere, one that is `broken` was
    handed to the stream of the session before the stream emitted `error`. -/
inductive PushStage where
  | lookedUp
  | refused
  | stored
  | handedOver (workerId : WorkerId)
  | delivered (session : Session)
  | failed (error : HttpError)
  | broken (session : Session) (error : HttpError)
  | removing
  | removed
  deriving DecidableEq, Repr

/-- The session that the push was written to. -/
def PushStage.writtenTo : PushStage → Option Session
  | .delivered session => some session
  | .broken session _ => some session
  | _ => none

/-- A push at a server, with the row that its lookup has found. -/
structure LocalPush where
  serverId : ServerId
  client : Row
  stage : PushStage
  deriving DecidableEq, Repr

/-- `forked` counts the workers a server has forked so far, `clusterWorkers` is the `cluster.workers`
    of each master, and push number `n` is `pushes[n]`. -/
structure Farm where
  refreshCounts : ClientId → ℕ
  clientmap : ClientTable
  handlers : List Handler
  forked : ServerId → ℕ
  clusterWorkers : ServerId → PlainObject WorkerId
  workers : ServerId → WorkerId → SpdyServer
  pushes : List LocalPush

def Farm.create : Farm where
  refreshCounts _ := 0
  clientmap := .empty
  handlers := []
  forked _ := 0
  clusterWorkers _ := ∅
  workers serverId workerId := .create serverId workerId
  pushes := []

/-- What comes of a message that has a session to be pushed to: the socket is not writable, `res.push`
    calls back with an error, or the stream that has got the data emits `error` or `finish`. -/
inductive StreamOutcome where
  | notWriteable
  | pushError
  | streamError
  | finished
  deriving DecidableEq, Repr

/-- One turn of a local push. -/
inductive PushOp where
  | store
  | refuse
  | send
  | remove
  | receive (outcome : StreamOutcome)
  deriving DecidableEq, Repr

/-- When a worker exits, `kept` of the messages in its channel still arrive. -/
inductive FarmEvent where
  | refresh (clientId : ClientId)
  | fork (serverId : ServerId)
  | exit (serverId : ServerId) (workerId : WorkerId) (kept : ℕ)
  | worker (serverId : ServerId) (workerId : WorkerId) (e : Event)
  | deliver (serverId : ServerId) (workerId : WorkerId)
  | exec (n : ℕ)
  | lookup (serverId : ServerId) (pushId : PushId)
  | push (n : ℕ) (op : PushOp)
  deriving DecidableEq, Repr

/-- `SpdyHandler.serverPush`. -/
def serverPush (session : Session) : StreamOutcome → PushStage
  | .notWriteable => .failed Push.SendPush.notWriteable
  | .pushError => .failed Push.SendPush.streamPushError
  | .streamError => .broken session Push.SendPush.spdyStreamPushError
  | .finished => .delivered session

/-- `SendPush._pushToClient` with `Session.serverPush`; `none` where the process throws. -/
def pushToClient (w : SpdyServer) (clientId : ClientId) (outcome : StreamOutcome) :
    Option PushStage :=
  match w.sessionManager.getSession clientId with
  | none => some (.failed Push.SendPush.noSession)
  | some .inherited => none
  | some (.own session) =>
    if session.isSpdy then some (serverPush session outcome)
    else some (.failed Push.SendPush.noPush)

namespace Farm

def isAlive (s : Farm) (serverId : ServerId) (workerId : WorkerId) : Bool :=
  decide ((s.clusterWorkers serverId).lookup (toString workerId) = some workerId)

/-- The client map and the stage after one turn of the push `q`. -/
def pushOp (s : Farm) (q : LocalPush) : PushOp → PushStage → Option (ClientTable × PushStage)
  | .store, .lookedUp => some (s.clientmap, .stored)
  | .refuse, .lookedUp => some (s.clientmap, .refused)
  | .send, .stored =>
    match (s.clusterWorkers q.serverId).read q.client.workerid with
    | some (.own workerId) => some (s.clientmap, .handedOver workerId)
    | some .inherited => none
    | none => some (s.clientmap, .removing)
  | .remove, .removing => some (MySqlClientMap.remove s.clientmap q.client.pushid, .removed)
  | .receive outcome, .handedOver workerId =>
    if s.isAlive q.serverId workerId then
      (pushToClient (s.workers q.serverId workerId) q.client.clientid outcome).map fun stage =>
        (s.clientmap, stage)
    else none
  | _, _ => none

def setWorker (s : Farm) (serverId : ServerId) (workerId : WorkerId) (w : SpdyServer) : Farm :=
  { s with
    workers := Function.update s.workers serverId
      (Function.update (s.workers serverId) workerId w) }

/-- `PoolLayer.fork`; worker ids count up. -/
def fork (s : Farm) (serverId : ServerId) : Farm :=
  let workerId := s.forked serverId + 1
  { s with
    forked := Function.update s.forked serverId workerId
    clusterWorkers := Function.update s.clusterWorkers serverId
      ((s.clusterWorkers serverId).insert (toString workerId) workerId) }

def exit (s : Farm) (serverId : ServerId) (workerId : WorkerId) (kept : ℕ) : Farm :=
  let w := s.workers serverId workerId
  { s.setWorker serverId workerId { w with toMaster := w.toMaster.take kept } with
    clusterWorkers := Function.update s.clusterWorkers serverId
      ((s.clusterWorkers serverId).erase (toString workerId)) }

def setStage (s : Farm) (n : ℕ) (q : LocalPush) (t : ClientTable) (stage : PushStage) : Farm :=
  { s with clientmap := t, pushes := s.pushes.set n { q with stage := stage } }

end Farm

section

variable (digest : String → String) (salt : String)

/-- A listen comes under the push id that the client has at its count, or had when the listen was
    checked. -/
def accepted (s : Farm) : Event → Bool
  | .listen _ req => (List.range (s.refreshCounts req.clientId + 1)).any fun count =>
      decide (req.pushId = Refresh.generatePushId digest salt req.clientId count)
  | .close _ _ => true

def farmStep (s : Farm) : FarmEvent → Option Farm
  | .refresh clientId => some { s with
      refreshCounts := Function.update s.refreshCounts clientId (s.refreshCounts clientId + 1) }
  | .fork serverId => some (s.fork serverId)
  | .exit serverId workerId kept =>
    if s.isAlive serverId workerId then some (s.exit serverId workerId kept) else none
  | .worker serverId workerId e =>
    if s.isAlive serverId workerId ∧ accepted digest salt s e then
      (Listen.step (s.workers serverId workerId) e).map (s.setWorker serverId workerId)
    else none
  | .deliver serverId workerId =>
    match (s.workers serverId workerId).toMaster with
    | [] => none
    | m :: rest => some { s.setWorker serverId workerId
          { s.workers serverId workerId with toMaster := rest } with
        handlers := s.handlers ++ [⟨m, .start⟩] }
  | .exec n => s.handlers[n]?.bind fun h =>
      (runOp s.clientmap h.msg h.phase).map fun (t, phase, _) =>
        { s with clientmap := t, handlers := s.handlers.set n ⟨h.msg, phase⟩ }
  | .lookup serverId pushId => (MySqlClientMap.getClient s.clientmap pushId).bind fun client =>
      if includesText client.hostname serverId then
        some { s with pushes := s.pushes ++ [⟨serverId, client, .lookedUp⟩] }
      else none
  | .push n op => s.pushes[n]?.bind fun q =>
      (s.pushOp q op q.stage).map fun (t, stage) => s.setStage n q t stage

end

/-! ### What one event does -/

theorem read_fork (s : Farm) (σ σ' : ServerId) (w : String) :
    ((s.fork σ).clusterWorkers σ').read w
      = if σ' = σ ∧ w = toString (s.forked σ + 1) then some (.own (s.forked σ + 1))
        else (s.clusterWorkers σ').read w := by
  simp only [Farm.fork]
  by_cases hσ : σ' = σ
  · subst hσ
    rw [Function.update_self]
    by_cases hw : w = toString (s.forked σ' + 1)
    · subst hw; rw [PlainObject.read_insert_self, if_pos ⟨rfl, rfl⟩]
    · rw [PlainObject.read_insert_ne hw, if_neg fun h => hw h.2]
  · rw [Function.update_of_ne hσ, if_neg fun h => hσ h.1]

theorem read_exit (s : Farm) (σ σ' : ServerId) (k : WorkerId) (kept : ℕ) (w : String) :
    ((s.exit σ k kept).clusterWorkers σ').read w
      = if σ' = σ ∧ w = toString k then none else (s.clusterWorkers σ').read w := by
  simp only [Farm.exit]
  by_cases hσ : σ' = σ
  · subst hσ
    rw [Function.update_self]
    by_cases hw : w = toString k
    · subst hw; rw [PlainObject.read_erase_toString, if_pos ⟨rfl, rfl⟩]
    · rw [PlainObject.read_erase_ne hw, if_neg fun h => hw h.2]
  · rw [Function.update_of_ne hσ, if_neg fun h => hσ h.1]

/-- Everything that one turn of the push `q` can do: the operation, its stage before, the client map
    and its stage after. -/
inductive Advance (s : Farm) (q : LocalPush) :
    PushOp → PushStage → ClientTable → PushStage → Prop
  | stored : Advance s q .store .lookedUp s.clientmap .stored
  | refused : Advance s q .refuse .lookedUp s.clientmap .refused
  | handedOver {k : WorkerId}
      (hworker : (s.clusterWorkers q.serverId).read q.client.workerid = some (.own k)) :
      Advance s q .send .stored s.clientmap (.handedOver k)
  | workerGone (hgone : (s.clusterWorkers q.serverId).read q.client.workerid = none) :
      Advance s q .send .stored s.clientmap .removing
  | removed :
      Advance s q .remove .removing (MySqlClientMap.remove s.clientmap q.client.pushid) .removed
  | delivered {k : WorkerId} {x : Session} (halive : s.isAlive q.serverId k = true)
      (hsession : (s.workers q.serverId k).sessionManager.getSession q.client.clientid = some (.own x))
      (hspdy : x.isSpdy = true) :
      Advance s q (.receive .finished) (.handedOver k) s.clientmap (.delivered x)
  | failed {k : WorkerId} (outcome : StreamOutcome) (e : HttpError) :
      Advance s q (.receive outcome) (.handedOver k) s.clientmap (.failed e)
  | broken {k : WorkerId} {x : Session} (halive : s.isAlive q.serverId k = true)
      (hsession : (s.workers q.serverId k).sessionManager.getSession q.client.clientid = some (.own x))
      (hspdy : x.isSpdy = true) (e : HttpError) :
      Advance s q (.receive .streamError) (.handedOver k) s.clientmap (.broken x e)

section

variable {digest : String → String} {salt : String} {s s' : Farm}

/-- A push that gets as far as a session of a SPDY client fails, breaks or is delivered. -/
theorem pushToClient_cases {w : SpdyServer} {c : ClientId} {outcome : StreamOutcome}
    {stage : PushStage} (h : pushToClient w c outcome = some stage) :
    (∃ e, stage = .failed e) ∨ ∃ x, w.sessionManager.getSession c = some (.own x) ∧ x.isSpdy = true ∧
      stage = serverPush x outcome := by
  unfold pushToClient at h
  split at h
  · exact .inl ⟨_, (Option.some.inj h).symm⟩
  · simp at h
  · rename_i x hget
    split at h
    next hspdy => exact .inr ⟨x, hget, hspdy, (Option.some.inj h).symm⟩
    next => exact .inl ⟨_, (Option.some.inj h).symm⟩

theorem advance_of_pushOp {q : LocalPush} {op : PushOp} {stage stage' : PushStage} {t : ClientTable}
    (h : s.pushOp q op stage = some (t, stage')) : Advance s q op stage t stage' := by
  unfold Farm.pushOp at h
  split at h
  · obtain ⟨rfl, rfl⟩ := by simpa using h
    exact .stored
  · obtain ⟨rfl, rfl⟩ := by simpa using h
    exact .refused
  · split at h
    · rename_i k hworker
      obtain ⟨rfl, rfl⟩ := by simpa using h
      exact .handedOver hworker
    · simp at h
    · rename_i hgone
      obtain ⟨rfl, rfl⟩ := by simpa using h
      exact .workerGone hgone
  · obtain ⟨rfl, rfl⟩ := by simpa using h
    exact .removed
  · split at h
    · rename_i outcome k halive
      obtain ⟨result, hresult, hout⟩ := Option.map_eq_some_iff.mp h
      obtain ⟨rfl, rfl⟩ := Prod.mk.inj hout
      rcases pushToClient_cases hresult with ⟨e, rfl⟩ | ⟨x, hget, hspdy, rfl⟩
      · exact .failed outcome e
      · cases outcome with
        | notWriteable => exact .failed _ _
        | pushError => exact .failed _ _
        | streamError => exact .broken halive hget hspdy _
        | finished => exact .delivered halive hget hspdy
    · simp at h
  · simp at h

/-- A turn writes no row. -/
theorem Advance.find_of_find {q : LocalPush} {op : PushOp} {t : ClientTable}
    {stage stage' : PushStage} (h : Advance s q op stage t stage') {p : PushId} {r : Row}
    (hfind : t.find p = some r) :
    s.clientmap.find p = some r := by
  cases h with
  | removed => exact Table.find_of_destroy hfind
  | stored => exact hfind
  | refused => exact hfind
  | handedOver hworker => exact hfind
  | workerGone hgone => exact hfind
  | delivered halive hsession hspdy => exact hfind
  | failed outcome e => exact hfind
  | broken halive hsession hspdy e => exact hfind

/-- Data is written only to the session that the worker finds under the client id. -/
theorem Advance.session_of_written {q : LocalPush} {op : PushOp} {t : ClientTable}
    {stage stage' : PushStage} (h : Advance s q op stage t stage') {x : Session}
    (hx : stage'.writtenTo = some x) :
    ∃ k, stage = .handedOver k ∧ s.isAlive q.serverId k = true ∧
      (s.workers q.serverId k).sessionManager.getSession q.client.clientid = some (.own x) ∧
      x.isSpdy = true := by
  cases h with
  | delivered halive hsession hspdy =>
    obtain rfl := Option.some.inj hx
    exact ⟨_, rfl, halive, hsession, hspdy⟩
  | broken halive hsession hspdy e =>
    obtain rfl := Option.some.inj hx
    exact ⟨_, rfl, halive, hsession, hspdy⟩
  | _ => simp [PushStage.writtenTo] at hx

theorem farmStep_push {n : ℕ} {op : PushOp} (h : farmStep digest salt s (.push n op) = some s') :
    ∃ q t stage, s.pushes[n]? = some q ∧ Advance s q op q.stage t stage ∧
      s' = s.setStage n q t stage := by
  simp only [farmStep, Option.bind_eq_some_iff, Option.map_eq_some_iff] at h
  obtain ⟨q, hq, ⟨t, stage⟩, hop, rfl⟩ := h
  exact ⟨q, t, stage, hq, advance_of_pushOp hop, rfl⟩

theorem setStage_pushes {n : ℕ} {q : LocalPush} (hq : s.pushes[n]? = some q) (t : ClientTable)
    (stage : PushStage) : (s.setStage n q t stage).pushes[n]? = some { q with stage := stage } := by
  obtain ⟨hn, -⟩ := List.getElem?_eq_some_iff.mp hq
  exact List.getElem?_set_self hn

theorem farmStep_exit {σ : ServerId} {k : WorkerId} {kept : ℕ}
    (h : farmStep digest salt s (.exit σ k kept) = some s') : s' = s.exit σ k kept := by
  simp only [farmStep] at h
  split at h
  · exact (Option.some.inj h).symm
  · simp at h

theorem farmStep_worker {σ : ServerId} {k : WorkerId} {e : Event}
    (h : farmStep digest salt s (.worker σ k e) = some s') :
    ∃ w, s.isAlive σ k = true ∧ Listen.step (s.workers σ k) e = some w ∧ s' = s.setWorker σ k w := by
  simp only [farmStep] at h
  split at h
  · rename_i hguard
    obtain ⟨w, hw, rfl⟩ := Option.map_eq_some_iff.mp h
    exact ⟨w, hguard.1, hw, rfl⟩
  · simp at h

theorem farmStep_deliver {σ : ServerId} {k : WorkerId}
    (h : farmStep digest salt s (.deliver σ k) = some s') :
    ∃ m rest, (s.workers σ k).toMaster = m :: rest ∧
      s' = { s.setWorker σ k { s.workers σ k with toMaster := rest } with
        handlers := s.handlers ++ [⟨m, .start⟩] } := by
  simp only [farmStep] at h
  split at h
  · simp at h
  · rename_i m rest hqueue
    exact ⟨m, rest, hqueue, (Option.some.inj h).symm⟩

theorem farmStep_exec {n : ℕ} (h : farmStep digest salt s (.exec n) = some s') :
    ∃ m phase out, s.handlers[n]? = some ⟨m, phase⟩ ∧ runOp s.clientmap m phase = some out ∧
      s' = { s with clientmap := out.1, handlers := s.handlers.set n ⟨m, out.2.1⟩ } := by
  simp only [farmStep, Option.bind_eq_some_iff, Option.map_eq_some_iff] at h
  obtain ⟨⟨m, phase⟩, hn, ⟨t, phase', err⟩, hop, rfl⟩ := h
  exact ⟨m, phase, _, hn, hop, rfl⟩

theorem farmStep_lookup {serverId : ServerId} {p : PushId}
    (h : farmStep digest salt s (.lookup serverId p) = some s') :
    ∃ client, s.clientmap.find p = some client ∧ includesText client.hostname serverId = true ∧
      s' = { s with pushes := s.pushes ++ [⟨serverId, client, .lookedUp⟩] } := by
  simp only [farmStep, Option.bind_eq_some_iff] at h
  obtain ⟨client, hfind, hstep⟩ := h
  split at hstep
  · rename_i hlocal
    exact ⟨client, hfind, hlocal, (Option.some.inj hstep).symm⟩
  · simp at hstep

/-- A handler's operation is about one push id. -/
theorem find_runOp_ne {t : ClientTable} {m : WorkerMsg} {phase : Phase}
    {out : ClientTable × Phase × Bool} {p : PushId} (h : runOp t m phase = some out)
    (hp : msgPushId m ≠ p) : out.1.find p = t.find p := by
  unfold runOp at h
  split at h
  · obtain rfl := Option.some.inj h; rfl
  · split at h <;> obtain rfl := Option.some.inj h
    · rename_i hinsert; exact Table.find_insert_ne hinsert (Ne.symm hp)
    · rfl
  · split at h <;> obtain rfl := Option.some.inj h
    · rename_i hupdate; exact Table.find_update_ne hupdate (Ne.symm hp)
    · rfl
  · obtain rfl := Option.some.inj h
    exact Table.find_destroy_ne (Ne.symm hp)
  · simp at h

end

/-! ### The code that runs in one go -/

section

open Elephant.Push (Outcome Turn exec)

variable {ι : Type*} [DecidableEq ι]

/-- What the push world is told of the socket and the stream, turn by turn. -/
def StreamOutcome.answers : StreamOutcome → List Outcome
  | .notWriteable => [.error]
  | .pushError => [.ok, .error]
  | .streamError => [.ok, .ok, .error]
  | .finished => [.ok, .ok, .ok]

/-- The turns of the push world that a task and those it leaves take, down to the last one. -/
def follow (world : World ι) (t : Push.Task ι) : List Outcome → Option (Turn ι)
  | [] => none
  | [outcome] => exec 0 world t outcome
  | outcome :: rest => (exec 0 world t outcome).bind fun turn =>
      turn.next.head?.bind fun t' => follow turn.world t' rest

/-- The push world ends such a push in the same way: it goes on to the timer of the session, or it is
    handled as a failure with the same error. -/
theorem follow_serverPush (world : World ι) (i : ι) (msg : PushMsg) {x : Session}
    (hsession : (world.workers i).sessionManager.getSession msg.clientId = some (.own x))
    (hspdy : x.isSpdy = true) (outcome : StreamOutcome) :
    ∃ turn, follow world (.message i msg) outcome.answers = some turn ∧
      (serverPush x outcome = .delivered x → turn.next = [.startTimer i msg x]) ∧
      ∀ e, serverPush x outcome = .failed e ∨ serverPush x outcome = .broken x e →
        turn = Push.SendPush.handleFailure world msg e := by
  have hopen : exec 0 world (.message i msg) .ok = some ⟨world, [.serverPush i msg x], none, []⟩ := by
    simp [exec, Push.SendPush.pushToClient, hsession, hspdy]
  cases outcome with
  | notWriteable =>
    refine ⟨Push.SendPush.handleFailure world msg Push.SendPush.notWriteable, ?_, ?_, ?_⟩
    · simp [StreamOutcome.answers, follow, exec, Push.SendPush.pushToClient, hsession, hspdy]
    · simp [serverPush]
    · simp [serverPush]
  | pushError =>
    refine ⟨Push.SendPush.handleFailure world msg Push.SendPush.streamPushError, ?_, ?_, ?_⟩
    · show (exec 0 world (.message i msg) .ok).bind _ = _
      rw [hopen]; rfl
    · simp [serverPush]
    · simp [serverPush]
  | streamError =>
    refine ⟨Push.SendPush.handleFailure world msg Push.SendPush.spdyStreamPushError, ?_, ?_, ?_⟩
    · show (exec 0 world (.message i msg) .ok).bind _ = _
      rw [hopen]; rfl
    · simp [serverPush]
    · simp [serverPush]
  | finished =>
    refine ⟨⟨world, [.startTimer i msg x], none, []⟩, ?_, fun _ => rfl, ?_⟩
    · show (exec 0 world (.message i msg) .ok).bind _ = _
      rw [hopen]; rfl
    · simp [serverPush]

end

section

variable (digest : String → String) (salt : String) {s : Farm} {σ : ServerId} {client : Row}

/-- A push that has looked up `client`. -/
def Farm.entered (s : Farm) (σ : ServerId) (client : Row) : Farm :=
  { s with pushes := s.pushes ++ [⟨σ, client, .lookedUp⟩] }

theorem entered_pushes (s : Farm) (σ : ServerId) (client : Row) :
    (s.entered σ client).pushes[s.pushes.length]? = some ⟨σ, client, .lookedUp⟩ := by
  simp [Farm.entered]

theorem step_lookup {p : PushId} (hfind : s.clientmap.find p = some client)
    (hlocal : includesText client.hostname σ = true) :
    farmStep digest salt s (.lookup σ p) = some (s.entered σ client) := by
  simp [farmStep, MySqlClientMap.getClient, hfind, hlocal, Farm.entered]

section Turns

variable {n : ℕ} {q : LocalPush} (hq : s.pushes[n]? = some q)
include hq

theorem step_store (hstage : q.stage = .lookedUp) :
    farmStep digest salt s (.push n .store) = some (s.setStage n q s.clientmap .stored) := by
  simp [farmStep, hq, Farm.pushOp, hstage]

theorem step_send_gone (hstage : q.stage = .stored)
    (hgone : (s.clusterWorkers q.serverId).read q.client.workerid = none) :
    farmStep digest salt s (.push n .send) = some (s.setStage n q s.clientmap .removing) := by
  simp [farmStep, hq, Farm.pushOp, hstage, hgone]

theorem step_send_own {k : WorkerId} (hstage : q.stage = .stored)
    (hworker : (s.clusterWorkers q.serverId).read q.client.workerid = some (.own k)) :
    farmStep digest salt s (.push n .send) = some (s.setStage n q s.clientmap (.handedOver k)) := by
  simp [farmStep, hq, Farm.pushOp, hstage, hworker]

theorem step_remove (hstage : q.stage = .removing) :
    farmStep digest salt s (.push n .remove)
      = some (s.setStage n q (MySqlClientMap.remove s.clientmap q.client.pushid) .removed) := by
  simp [farmStep, hq, Farm.pushOp, hstage]

theorem step_receive {k : WorkerId} {x : Session} (hstage : q.stage = .handedOver k)
    (halive : s.isAlive q.serverId k = true)
    (hsession : (s.workers q.serverId k).sessionManager.getSession q.client.clientid = some (.own x))
    (hspdy : x.isSpdy = true) : farmStep digest salt s (.push n (.receive .finished))
      = some (s.setStage n q s.clientmap (.delivered x)) := by
  simp [farmStep, hq, Farm.pushOp, hstage, halive, pushToClient, hsession, hspdy, serverPush]

end Turns

/-- From the lookup to a push that is stored. -/
theorem run_stored {p : PushId} (hfind : s.clientmap.find p = some client)
    (hlocal : includesText client.hostname σ = true) :
    ∃ t, run (farmStep digest salt) s [.lookup σ p, .push s.pushes.length .store] = some t ∧
      t.pushes[s.pushes.length]? = some ⟨σ, client, .stored⟩ ∧
      t.clientmap = s.clientmap ∧ t.clusterWorkers = s.clusterWorkers ∧ t.workers = s.workers := by
  have hlookup := step_lookup digest salt hfind hlocal
  have hstore := step_store digest salt (entered_pushes s σ client) rfl
  exact ⟨_, run_cons_some.mpr ⟨_, hlookup, run_cons_some.mpr ⟨_, hstore, rfl⟩⟩,
    setStage_pushes (entered_pushes s σ client) _ _, rfl, rfl, rfl⟩

theorem run_handedOver {p : PushId} {k : WorkerId} (hfind : s.clientmap.find p = some client)
    (hlocal : includesText client.hostname σ = true)
    (hworker : (s.clusterWorkers σ).read client.workerid = some (.own k)) :
    ∃ t, run (farmStep digest salt) s [.lookup σ p, .push s.pushes.length .store,
        .push s.pushes.length .send] = some t ∧
      t.pushes[s.pushes.length]? = some ⟨σ, client, .handedOver k⟩ ∧
      t.clientmap = s.clientmap ∧ t.clusterWorkers = s.clusterWorkers ∧ t.workers = s.workers := by
  obtain ⟨u, hrun, hpush, hmap, hcluster, hworkers⟩ := run_stored digest salt hfind hlocal
  have hsend := step_send_own digest salt hpush rfl (hcluster ▸ hworker)
  exact ⟨_, run_append_some.mpr ⟨u, hrun, run_cons_some.mpr ⟨_, hsend, rfl⟩⟩,
    setStage_pushes hpush _ _, hmap, hcluster, hworkers⟩

theorem run_removed {p : PushId} (hfind : s.clientmap.find p = some client)
    (hlocal : includesText client.hostname σ = true)
    (hgone : (s.clusterWorkers σ).read client.workerid = none) :
    ∃ t, run (farmStep digest salt) s [.lookup σ p, .push s.pushes.length .store,
        .push s.pushes.length .send, .push s.pushes.length .remove] = some t ∧
      t.clientmap = MySqlClientMap.remove s.clientmap client.pushid := by
  obtain ⟨u, hrun, hpush, hmap, hcluster, -⟩ := run_stored digest salt hfind hlocal
  have hsend := step_send_gone digest salt hpush rfl (hcluster ▸ hgone)
  have hremove := step_remove digest salt (setStage_pushes hpush u.clientmap .removing) rfl
  refine ⟨_, run_append_some.mpr ⟨u, hrun, run_cons_some.mpr ⟨_, hsend, run_cons_some.mpr
    ⟨_, hremove, rfl⟩⟩⟩, ?_⟩
  show MySqlClientMap.remove u.clientmap client.pushid = _
  rw [hmap]

/-- Every answer of `Push.handle` is one of these schedules run without a break: the push is refused,
    handed over, or the row is removed. -/
theorem handle_schedule (L : Library) (config : Config) (req : Api.Request) (db : PushAnswers)
    {m : Master} {p : PushId} (hmap : m.clientmap = s.clientmap)
    (hworkers : ∀ w, w ∈ m.workers ↔ w ∈ s.clusterWorkers σ)
    (hclient : db.client = .ok (s.clientmap.find p))
    (hlocal : ∀ r, s.clientmap.find p = some r → includesText r.hostname σ = true)
    (hout : (Push.handle L config req db m).2 ≠ none) :
    ∃ es s', (∀ e ∈ es, e = .lookup σ p ∨ ∃ op, e = .push s.pushes.length op) ∧
      run (farmStep digest salt) s es = some s' ∧
      s'.clientmap = (Push.handle L config req db m).1.settled.clientmap ∧
      ((Push.handle L config req db m).1.settled.sent ≠ m.sent →
        ∃ q k, s'.pushes[s.pushes.length]? = some q ∧ q.stage = .handedOver k) := by
  have houtcome := Push.tasks_outcome L config req db m
  unfold Push.handle at hout ⊢
  generalize Push.tasks L config req db ⟨m, []⟩ = result at houtcome hout ⊢
  cases houtcome with
  | refused e => exact ⟨[], s, by simp, rfl, hmap.symm, fun h => absurd rfl h⟩
  | thrown hsent => exact absurd rfl hout
  | @workerGone client row t hfound hrow ht hgone =>
    have hfind : s.clientmap.find p = some client := by simpa using hclient.symm.trans hfound
    have hread : (s.clusterWorkers σ).read client.workerid = none := by
      obtain ⟨hne, hproto⟩ := PlainObject.read_eq_none.mp hgone
      exact PlainObject.read_eq_none.mpr ⟨mt (hworkers _).mpr hne, hproto⟩
    obtain ⟨u, hrun, hclients⟩ := run_removed digest salt hfind (hlocal _ hfind) hread
    refine ⟨_, u, by simp, hrun, hclients.trans ?_, fun h => absurd rfl h⟩
    show _ = MySqlClientMap.remove m.clientmap row.pushId
    rw [hmap, hrow.pushId]
  | @handedOver client params row t hfound hpassed hrow ht halive =>
    have hfind : s.clientmap.find p = some client := by simpa using hclient.symm.trans hfound
    obtain ⟨k, hread⟩ := PlainObject.exists_read_own.mpr
      ((hworkers _).mp (PlainObject.exists_read_own.mp ⟨(), halive⟩))
    obtain ⟨u, hrun, hpush, hclients, -⟩ := run_handedOver digest salt hfind (hlocal _ hfind) hread
    exact ⟨_, u, by simp, hrun, hclients.trans hmap.symm, fun _ => ⟨_, k, hpush, rfl⟩⟩

end

end Elephant.App
