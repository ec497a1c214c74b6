import Elephant.Listen.Isolation
import Elephant.Model.ClientPushId
import Elephant.Schemes.Queue

/-! The number of connected clients (`model/session.coffee`, `SessionManager`; `api/spdyserver.coffee`,
    `reportConnectedClients`).

    The counter is kept by hand next to the map of sessions:

        addSession c      c in the map ──▶ replaced            count
                          otherwise    ──▶ added               count + 1
        deleteSession c   own          ──▶ deleted, duration   count - 1
                          inherited    ──▶ nothing, NaN        count - 1
                          otherwise    ──▶ nothing, -1         count

    The inherited case is never met: a client id has 88 characters, and no inherited name is that
    long. With fewer random bytes `toString` could be a client id. -/

namespace Elephant.Model
open Elephant.Schemes

inductive SessionCall where
  | addSession (ref now : ℕ) (options : ClientInfo)
  | deleteSession (now : ℕ) (clientId : ClientId)
  deriving DecidableEq, Repr

namespace SessionCall

/-- The time of the call. -/
def now : SessionCall → ℕ
  | .addSession _ now _ => now
  | .deleteSession now _ => now

def clientId : SessionCall → ClientId
  | .addSession _ _ options => options.clientId
  | .deleteSession _ clientId => clientId

def Adds (c : ClientId) : SessionCall → Prop
  | .addSession _ _ options => options.clientId = c
  | .deleteSession _ _ => False

def Deletes (c : ClientId) : SessionCall → Prop
  | .addSession _ _ _ => False
  | .deleteSession _ clientId => clientId = c

end SessionCall

/-- The property that `sessionMap[clientId]` names. -/
def ClientId.propertyName : Option ClientId → String
  | some clientId => clientId
  | none => "null"

/-- What `generateClientId` returns for as many random bytes as are asked for, `null` included. -/
def ClientId.Produced (c : ClientId) : Prop :=
  ∃ randomBytes, (∀ n bs, randomBytes n = some bs → bs.length = n) ∧
    propertyName (generateClientId randomBytes) = c

namespace SessionManager

def call (m : SessionManager) : SessionCall → SessionManager
  | .addSession ref now options => (m.addSession ref now options).1
  | .deleteSession now clientId => (m.deleteSession now clientId).1

/-- The session manager after the calls, oldest first. -/
def after (calls : List SessionCall) : SessionManager := calls.foldl call create

/-- The counter is the number of keys. -/
def Counted (m : SessionManager) : Prop := m.numSessions = m.sessionMap.keys.length

/-- What the calls so far leave: the counter is the number of keys and not negative, and a client has
    a session iff it was added after it was last deleted. -/
structure Accounts (calls : List SessionCall) : Prop where
  counted : (after calls).Counted
  nonneg : 0 ≤ (after calls).getLength
  has_iff : ∀ c, (after calls).hasSession c = true ↔
    SinceLast (SessionCall.Adds c) (SessionCall.Deletes c) calls

/-- What a delete returns after the calls so far. -/
structure Answers (calls : List SessionCall) (now : ℕ) (c : ClientId) : Prop where
  duration : (after calls).hasSession c = true →
    ∃ sec, 0 ≤ sec ∧ ((after calls).deleteSession now c).2 = .fin sec
  absent : (after calls).hasSession c = false →
    (after calls).deleteSession now c = (after calls, .fin (-1))

/-! ### One call -/

section

variable {m : SessionManager} {c : ClientId}

theorem hasSession_iff : m.hasSession c = true ↔ c ∈ m.sessionMap := decide_eq_true_iff

theorem getSession_of_hasSession (h : m.hasSession c = true) :
    ∃ s, m.getSession c = some (.own s) :=
  PlainObject.exists_read_own.mpr (hasSession_iff.mp h)

theorem getSession_eq_none (hc : c ∉ protoNames) (h : m.hasSession c = false) :
    m.getSession c = none :=
  PlainObject.read_eq_none.mpr ⟨of_decide_eq_false h, hc⟩

theorem deleteSession_own {s : Session} (h : m.getSession c = some (.own s)) (now : ℕ) :
    m.deleteSession now c = (⟨m.sessionMap.erase c, m.numSessions - 1⟩,
      .fin (((now : ℤ) - (s.startTime : ℤ) : ℤ) / 1000)) := by
  rw [deleteSession, h]

theorem deleteSession_none (h : m.getSession c = none) (now : ℕ) :
    m.deleteSession now c = (m, .fin (-1)) := by
  rw [deleteSession, h]

theorem mem_deleteSession (m : SessionManager) (now : ℕ) (c c' : ClientId) :
    c ∈ (m.deleteSession now c').1.sessionMap ↔ c ≠ c' ∧ c ∈ m.sessionMap := by
  cases hget : m.getSession c' with
  | none =>
    have hnot : c' ∉ m.sessionMap := (PlainObject.read_eq_none.mp hget).1
    rw [deleteSession_none hget]
    exact ⟨fun h => ⟨fun heq => hnot (heq ▸ h), h⟩, And.right⟩
  | some found =>
    rw [deleteSession, hget]
    cases found with
    | own s => exact AList.mem_erase
    | inherited => exact AList.mem_erase

theorem ne_proto_of_notMem (hc : c ∉ protoNames) : c ≠ "__proto__" := by
  rintro rfl
  exact hc (by decide)

/-- An add makes a session and a delete unmakes it. -/
theorem hasSession_call (m : SessionManager) {call : SessionCall} (hcall : call.clientId ∉ protoNames)
    (c : ClientId) : (m.call call).hasSession c = true ↔
      call.Adds c ∨ ¬ call.Deletes c ∧ m.hasSession c = true := by
  rw [hasSession_iff, hasSession_iff]
  cases call with
  | addSession ref now options =>
    have hmem : c ∈ (m.addSession ref now options).1.sessionMap ↔
        c = options.clientId ∨ c ∈ m.sessionMap :=
      PlainObject.mem_assign.trans (or_congr_left (and_iff_left (ne_proto_of_notMem hcall)))
    rw [SessionManager.call, hmem, SessionCall.Adds, SessionCall.Deletes, not_false_iff, true_and,
      eq_comm]
  | deleteSession now clientId =>
    rw [SessionManager.call, mem_deleteSession, SessionCall.Adds, SessionCall.Deletes, false_or,
      ne_comm]

theorem Counted.addSession (h : m.Counted) (ref now : ℕ) {options : ClientInfo}
    (hc : options.clientId ∉ protoNames) : (m.addSession ref now options).1.Counted := by
  have hlen := PlainObject.length_keys_insert m.sessionMap options.clientId
    (Session.createSession ref now options)
  rw [← PlainObject.assign_eq_insert (ne_proto_of_notMem hc)] at hlen
  show (if m.hasSession options.clientId then m.numSessions else m.numSessions + 1) = _
  cases hhas : m.hasSession options.clientId with
  | true =>
    rw [if_pos (hasSession_iff.mp hhas)] at hlen
    rw [if_pos rfl, h]
    exact congrArg Nat.cast hlen.symm
  | false =>
    rw [if_neg (of_decide_eq_false hhas)] at hlen
    rw [if_neg Bool.false_ne_true, h]
    exact congrArg Nat.cast hlen.symm

theorem Counted.deleteSession (h : m.Counted) (now : ℕ) (hc : c ∉ protoNames) :
    (m.deleteSession now c).1.Counted := by
  cases hhas : m.hasSession c with
  | true =>
    obtain ⟨s, hs⟩ := getSession_of_hasSession hhas
    have hlen := PlainObject.length_keys_erase (hasSession_iff.mp hhas)
    rw [deleteSession_own hs, Counted, h, ← hlen, Nat.cast_add_one, add_sub_cancel_right]
  | false =>
    rw [deleteSession_none (getSession_eq_none hc hhas)]
    exact h

theorem Counted.call (h : m.Counted) {call : SessionCall} (hc : call.clientId ∉ protoNames) :
    (m.call call).Counted := by
  cases call with
  | addSession ref now options => exact h.addSession ref now hc
  | deleteSession now clientId => exact h.deleteSession now hc

/-- No session is younger than `t`. -/
def StartedBy (m : SessionManager) (t : ℕ) : Prop :=
  ∀ c s, m.getSession c = some (.own s) → s.startTime ≤ t

theorem StartedBy.call {t : ℕ} (h : m.StartedBy t) {call : SessionCall} (ht : call.now ≤ t) :
    (m.call call).StartedBy t := by
  intro c s hs
  cases call with
  | addSession ref now options =>
    rcases getSession_of_addSession hs with ⟨-, rfl⟩ | hold
    · exact ht
    · exact h c s hold
  | deleteSession now clientId =>
    by_cases hc : c = clientId
    · subst hc
      exact absurd hs (getSession_deleteSession_self m now c s)
    · exact h c s ((getSession_deleteSession_ne m now hc).symm.trans hs)

end

/-! ### All calls -/

section

variable {calls : List SessionCall}

theorem counted_after (hnames : ∀ call ∈ calls, call.clientId ∉ protoNames) : (after calls).Counted :=
  List.foldlRecOn (motive := Counted) calls call rfl fun _ h _ hmem => h.call (hnames _ hmem)

theorem startedBy_after {t : ℕ} (ht : ∀ call ∈ calls, call.now ≤ t) : (after calls).StartedBy t :=
  List.foldlRecOn (motive := fun m => m.StartedBy t) calls call
    (fun c s hs => absurd hs (getSession_create c s)) fun _ h _ hmem => h.call (ht _ hmem)

theorem hasSession_after (hnames : ∀ call ∈ calls, call.clientId ∉ protoNames) (c : ClientId) :
    (after calls).hasSession c = true ↔
      SinceLast (SessionCall.Adds c) (SessionCall.Deletes c) calls :=
  foldl_iff_sinceLast (P := fun m => m.hasSession c = true) (by simp [hasSession, create]) calls
    fun m call hcall => hasSession_call m (hnames call hcall) c

theorem accounts_of_names (hnames : ∀ call ∈ calls, call.clientId ∉ protoNames) : Accounts calls where
  counted := counted_after hnames
  nonneg := by
    rw [getLength, counted_after hnames]
    exact Int.natCast_nonneg _
  has_iff := hasSession_after hnames

theorem answers_of_name {now : ℕ} {c : ClientId} (hc : c ∉ protoNames)
    (hnow : ∀ call ∈ calls, call.now ≤ now) : Answers calls now c where
  duration h := by
    obtain ⟨s, hs⟩ := getSession_of_hasSession h
    have hle := startedBy_after hnow c s hs
    rw [deleteSession_own hs]
    refine ⟨_, div_nonneg (Int.cast_nonneg ?_) (by norm_num), rfl⟩
    omega
  absent h := deleteSession_none (getSession_eq_none hc h) now

end

end SessionManager

/-! ### The client ids of the service -/

namespace ClientId

theorem Produced.notMem_protoNames {c : ClientId} (h : Produced c) : c ∉ protoNames := by
  obtain ⟨randomBytes, hlen, rfl⟩ := h
  cases hid : generateClientId randomBytes with
  | none => decide
  | some id => exact Generated.notMem_protoNames ⟨randomBytes, hlen, hid⟩

theorem Generated.produced {c : ClientId} (h : Generated c) : Produced c := by
  obtain ⟨randomBytes, hlen, hid⟩ := h
  exact ⟨randomBytes, hlen, by rw [hid, propertyName]⟩

end ClientId

/-- For every sequence of calls with client ids of the service and a clock that does not go back: what
    every initial part of it leaves, and what every delete in it returns. -/
theorem sessionManager_accounts (calls : List SessionCall)
    (hids : ∀ call ∈ calls, ClientId.Produced call.clientId)
    (hclock : (calls.map SessionCall.now).Pairwise (· ≤ ·)) :
    (∀ before, before <+: calls → SessionManager.Accounts before) ∧
      ∀ before now c, before ++ [.deleteSession now c] <+: calls →
        SessionManager.Answers before now c := by
  refine ⟨fun before hpre => ?_, fun before now c hpre => ?_⟩
  · exact SessionManager.accounts_of_names fun call hcall =>
      (hids call (hpre.subset hcall)).notMem_protoNames
  · have hmem : SessionCall.deleteSession now c ∈ calls := hpre.subset (by simp)
    have hsorted := hclock.sublist (hpre.map SessionCall.now).sublist
    rw [List.map_append, List.pairwise_append] at hsorted
    refine SessionManager.answers_of_name (hids _ hmem).notMem_protoNames fun call hcall => ?_
    exact hsorted.2.2 call.now (List.mem_map_of_mem hcall) now (List.mem_singleton_self now)

/-- A client that reconnects before its old socket closes, next to another client. -/
def reconnect : List SessionCall :=
  let c := String.ofList (Base64.urlSafe (Base64.encode (List.replicate 64 0)))
  let c' := String.ofList (Base64.urlSafe (Base64.encode (List.replicate 64 1)))
  [.addSession 0 0 ⟨c, true, "", "", none, 0, 1⟩, .addSession 1 10 ⟨c', true, "", "", none, 1, 1⟩,
    .addSession 2 20 ⟨c, true, "", "", none, 2, 1⟩, .deleteSession 1020 c, .deleteSession 1030 c]

theorem sessionManager_accounts_reconnect :
    (∀ call ∈ reconnect, ClientId.Produced call.clientId) ∧
      (reconnect.map SessionCall.now).Pairwise (· ≤ ·) ∧ SessionManager.Accounts reconnect ∧
      (SessionManager.after reconnect).getLength = 1 := by
  have hids : ∀ call ∈ reconnect, ClientId.Produced call.clientId := by
    have hproduced := fun b => (ClientId.Generated.repeated b).produced
    simp only [reconnect, List.forall_mem_cons, SessionCall.clientId]
    exact ⟨hproduced 0, hproduced 1, hproduced 0, hproduced 0, hproduced 0,
      fun call hcall => absurd hcall List.not_mem_nil⟩
  have hclock : (reconnect.map SessionCall.now).Pairwise (· ≤ ·) := by
    simp [reconnect, SessionCall.now]
  exact ⟨hids, hclock, (sessionManager_accounts reconnect hids hclock).1 _ (List.prefix_refl _),
    by decide +kernel⟩

/-- For an inherited name the counter would be wrong. -/
example : (SessionManager.after [.deleteSession 0 "toString"]).getLength = -1 := by decide

end Elephant.Model

/-! ### The gauge of a worker -/

namespace Elephant.Listen
open Elephant.Schemes Elephant.Model

/-- The value that `reportConnectedClients` sets the gauge to. -/
def SpdyServer.reportConnectedClients (w : SpdyServer) : ℤ := w.sessionManager.getLength

/-- The session is made, and `notifyMasterAddClient` has still to report. -/
def Stage.unreported : Stage → Bool
  | notifyMaster _ _ => true
  | _ => false

/-- The listens whose session is not reported yet. -/
def Pipeline.unreported (p : Pipeline) : ℕ := p.requests.countP fun r => r.stage.unreported

/-- `notifyMasterAddClient` reports, and so does every listener of a `close` event. -/
def Pipeline.reports (p : Pipeline) : PipelineEvent → Bool
  | .request _ => false
  | .advance i _ _ => p.requests[i]?.any fun r => r.stage.unreported
  | .close _ socket => !(p.server.listenersOn socket).isEmpty

/-- A listen that passes validation has a client id that the service produced. -/
def OfService (p : Pipeline) : PipelineEvent → Prop
  | .advance i _ true => ∀ r ∈ p.requests[i]?, r.stage = .validate → ClientId.Produced r.req.clientId
  | _ => True

/-! ### What a step asks of the session manager -/

def Stage.sessionCalls (i now : ℕ) : Stage → List SessionCall
  | createSession info => [.addSession i now info]
  | _ => []

/-- The calls that a step makes of the session manager. -/
def Pipeline.sessionCalls (p : Pipeline) : PipelineEvent → List SessionCall
  | .request _ => []
  | .advance i now _ => (p.requests[i]?.map fun r => r.stage.sessionCalls i now).getD []
  | .close now socket => (p.server.listenersOn socket).map fun s => .deleteSession now s.clientId

theorem SpdyServer.foldl_onClose_sessionManager (now : ℕ) : ∀ (l : List Session) (w : SpdyServer),
    (l.foldl (onClose now) w).sessionManager
      = (l.map fun s => SessionCall.deleteSession now s.clientId).foldl SessionManager.call
        w.sessionManager
  | [], _ => rfl
  | s :: l, w => by
      rw [List.foldl_cons, foldl_onClose_sessionManager now l, List.map_cons, List.foldl_cons]
      rfl

theorem sessionManager_runStage {w : SpdyServer} {i now : ℕ} {valid : Bool} {req : ListenReq}
    {st : Stage} {out : SpdyServer × Stage × List WorkerMsg}
    (h : runStage w i now valid req st = some out) :
    out.1.sessionManager = (st.sessionCalls i now).foldl SessionManager.call w.sessionManager := by
  cases st with
  | listening session => simp [runStage] at h
  | rejected => simp [runStage] at h
  | _ => obtain rfl := Option.some.inj h; rfl

/-- Everything a step can do. -/
inductive Moved (p : Pipeline) : PipelineEvent → Pipeline → Prop
  | request (req : ListenReq) :
      Moved p (.request req) { p with requests := p.requests ++ [⟨req, .validate⟩] }
  | advance {i now : ℕ} {valid : Bool} {r : Request} {out : SpdyServer × Stage × List WorkerMsg}
      (hr : p.requests[i]? = some r) (hout : runStage p.server i now valid r.req r.stage = some out) :
      Moved p (.advance i now valid)
        ⟨out.1, p.requests.set i ⟨r.req, out.2.1⟩, p.sent ++ out.2.2.map fun m => (i, m)⟩
  | close (now : ℕ) (socket : SocketId) : Moved p (.close now socket) { p with
      server := p.server.emitClose now socket
      sent := p.sent ++ (p.server.listenersOn socket).map fun s => (s.ref, delMsg s) }

section

variable {p p' : Pipeline} {e : PipelineEvent}

theorem moved_of_step (h : pipelineStep p e = some p') : Moved p e p' := by
  cases e with
  | request req =>
    obtain ⟨-, rfl⟩ := by simpa [pipelineStep] using h
    exact .request req
  | advance i now valid =>
    simp only [pipelineStep, Option.bind_eq_some_iff, Option.map_eq_some_iff] at h
    obtain ⟨r, hr, out, hout, rfl⟩ := h
    exact .advance hr hout
  | close now socket =>
    obtain ⟨-, rfl⟩ := by simpa [pipelineStep] using h
    exact .close now socket

theorem sessionManager_step (h : pipelineStep p e = some p') :
    p'.server.sessionManager
      = (p.sessionCalls e).foldl SessionManager.call p.server.sessionManager := by
  cases moved_of_step h with
  | request req => rfl
  | advance hr hout =>
    rw [Pipeline.sessionCalls, hr]
    exact sessionManager_runStage hout
  | close now socket => exact SpdyServer.foldl_onClose_sessionManager now _ p.server

/-! ### Sessions have client ids of the service -/

/-- What the request has made is of its own client, and past validation that is one of the service. -/
structure Request.Issued (r : Request) : Prop where
  own : r.stage.Of r.req
  produced : r.stage ≠ .validate → r.stage ≠ .rejected → ClientId.Produced r.req.clientId

/-- The sessions come from calls with client ids of the service. -/
structure Managed (p : Pipeline) : Prop where
  calls : ∃ calls, p.server.sessionManager = .after calls ∧
    ∀ call ∈ calls, ClientId.Produced call.clientId
  handlers : ∀ h ∈ p.server.closeHandlers, ClientId.Produced h.2.clientId
  requests : ∀ r ∈ p.requests, r.Issued

theorem Managed.create (serverId : ServerId) (workerId : WorkerId) :
    Managed (.create serverId workerId) where
  calls := ⟨[], rfl, fun _ hcall => absurd hcall List.not_mem_nil⟩
  handlers _ hh := absurd hh List.not_mem_nil
  requests _ hr := absurd hr List.not_mem_nil

theorem Managed.sessionCalls (hp : Managed p) (e : PipelineEvent) :
    ∀ call ∈ p.sessionCalls e, ClientId.Produced call.clientId := by
  intro call hcall
  cases e with
  | request req => exact absurd hcall List.not_mem_nil
  | advance i now valid =>
    cases hr : p.requests[i]? with
    | none => simp [Pipeline.sessionCalls, hr] at hcall
    | some r =>
      have hissued := hp.requests r (List.mem_of_getElem? hr)
      rw [Pipeline.sessionCalls, hr, Option.map_some, Option.getD_some] at hcall
      obtain ⟨req, stage⟩ := r
      cases stage with
      | createSession info =>
        rw [List.mem_singleton.mp hcall]
        have hown : info.clientId = req.clientId := hissued.own
        rw [SessionCall.clientId, hown]
        exact hissued.produced (by simp) (by simp)
      | _ => exact absurd hcall List.not_mem_nil
  | close now socket =>
    obtain ⟨s, hs, rfl⟩ := List.mem_map.mp hcall
    exact hp.handlers _ ((p.server.mem_listenersOn socket).mp hs)

theorem Request.Issued.next {w : SpdyServer} {i now : ℕ} {valid : Bool} {r : Request}
    {out : SpdyServer × Stage × List WorkerMsg} (hr : r.Issued)
    (hvalid : valid = true → r.stage = .validate → ClientId.Produced r.req.clientId)
    (hout : runStage w i now valid r.req r.stage = some out) : Request.Issued ⟨r.req, out.2.1⟩ := by
  refine ⟨hr.own.next hout, fun _ hrejected => ?_⟩
  by_cases hstage : r.stage = .validate
  · -- the verdict is what decides here
    rw [hstage] at hout
    obtain rfl := Option.some.inj hout
    cases valid with
    | false => exact absurd rfl hrejected
    | true => exact hvalid rfl hstage
  · refine hr.produced hstage fun hend => ?_
    rw [hend] at hout
    simp [runStage] at hout

theorem Managed.handlers_runStage (hp : Managed p) {i now : ℕ} {valid : Bool} {r : Request}
    (hr : r.Issued) {out : SpdyServer × Stage × List WorkerMsg}
    (hout : runStage p.server i now valid r.req r.stage = some out) :
    ∀ h ∈ out.1.closeHandlers, ClientId.Produced h.2.clientId := by
  intro h hh
  obtain ⟨req, stage⟩ := r
  cases stage with
  | setCloseHandler session =>
    obtain rfl := Option.some.inj hout
    rcases List.mem_append.mp hh with hh | hh
    · exact hp.handlers h hh
    · rw [List.mem_singleton.mp hh]
      have hown : session.clientId = req.clientId := hr.own
      exact hown ▸ hr.produced (by simp) (by simp)
  | listening session => simp [runStage] at hout
  | rejected => simp [runStage] at hout
  | _ => obtain rfl := Option.some.inj hout; exact hp.handlers h hh

theorem Managed.step (hp : Managed p) (he : OfService p e) (hstep : pipelineStep p e = some p') :
    Managed p' := by
  obtain ⟨calls, hcalls, hids⟩ := hp.calls
  refine ⟨⟨calls ++ p.sessionCalls e, ?_, fun call hcall => ?_⟩, ?_, ?_⟩
  · rw [sessionManager_step hstep, hcalls, SessionManager.after, SessionManager.after,
      List.foldl_append]
  · rcases List.mem_append.mp hcall with hcall | hcall
    · exact hids call hcall
    · exact hp.sessionCalls e call hcall
  · cases moved_of_step hstep with
    | request req => exact hp.handlers
    | advance hr hout => exact hp.handlers_runStage (hp.requests _ (List.mem_of_getElem? hr)) hout
    | close now socket => exact fun h hh => hp.handlers h (List.mem_of_mem_filter hh)
  · intro r' hr'
    cases moved_of_step hstep with
    | request req =>
      rcases List.mem_append.mp hr' with hold | hnew
      · exact hp.requests r' hold
      · rw [List.mem_singleton.mp hnew]
        exact ⟨trivial, fun hvalidate _ => absurd rfl hvalidate⟩
    | @advance i now valid r out hr hout =>
      rcases List.mem_or_eq_of_mem_set hr' with hold | rfl
      · exact hp.requests r' hold
      · refine (hp.requests r (List.mem_of_getElem? hr)).next (fun hvalid => ?_) hout
        subst hvalid
        exact he r hr
    | close now socket => exact hp.requests r' hr'

theorem Managed.reportConnectedClients_eq (hp : Managed p) :
    p.server.reportConnectedClients = p.server.sessionManager.sessionMap.keys.length := by
  obtain ⟨calls, hcalls, hids⟩ := hp.calls
  rw [SpdyServer.reportConnectedClients, hcalls]
  exact SessionManager.counted_after fun call hcall => (hids call hcall).notMem_protoNames

/-! ### The gauge lags by the listens that have not reported -/

/-- A number that is behind by at most what is not reported. -/
structure Lagging (reported sessions unreported : ℤ) : Prop where
  le : reported ≤ sessions
  lag : sessions ≤ reported + unreported

def Pipeline.Gauged (g : ℤ) (p : Pipeline) : Prop :=
  Lagging g p.server.reportConnectedClients p.unreported

theorem Pipeline.gauged_report (p : Pipeline) : p.Gauged p.server.reportConnectedClients :=
  ⟨le_rfl, le_add_of_nonneg_right (Int.natCast_nonneg _)⟩

theorem unreported_set {i : ℕ} {r : Request} (hr : p.requests[i]? = some r)
    (hstage : r.stage.unreported = false) (w : SpdyServer) (st : Stage) (sent : List (ℕ × WorkerMsg)) :
    Pipeline.unreported ⟨w, p.requests.set i ⟨r.req, st⟩, sent⟩
      = p.unreported + if st.unreported then 1 else 0 := by
  obtain ⟨hi, rfl⟩ := List.getElem?_eq_some_iff.mp hr
  rw [Pipeline.unreported, List.countP_set hi, hstage]
  rfl

theorem reportConnectedClients_createSession (w : SpdyServer) (ref now : ℕ) (info : ClientInfo) :
    w.reportConnectedClients ≤ (w.createSession ref now info).1.reportConnectedClients ∧
      (w.createSession ref now info).1.reportConnectedClients ≤ w.reportConnectedClients + 1 := by
  simp only [SpdyServer.reportConnectedClients, SpdyServer.createSession, SessionManager.getLength,
    SessionManager.addSession]
  split <;> omega

/-- A step that does not report keeps the gauge where it is. -/
theorem Pipeline.Gauged.silent {g : ℤ} (hg : p.Gauged g) (hsilent : p.reports e = false)
    (hstep : pipelineStep p e = some p') : p'.Gauged g := by
  have hmanager := sessionManager_step hstep
  cases moved_of_step hstep with
  | request req =>
    refine ⟨hg.le, hg.lag.trans_eq ?_⟩
    simp [Pipeline.unreported, Stage.unreported]
  | @advance i now valid r out hr hout =>
    have hstage : r.stage.unreported = false := by simpa [Pipeline.reports, hr] using hsilent
    have hcount := unreported_set hr hstage out.1 out.2.1 (p.sent ++ out.2.2.map fun m => (i, m))
    obtain ⟨req, stage⟩ := r
    cases stage with
    | createSession info =>
      -- the session may be a new one, and it is not reported
      obtain rfl := Option.some.inj hout
      obtain ⟨hlow, hhigh⟩ := reportConnectedClients_createSession p.server i now info
      have hlag := hg.lag
      refine ⟨hg.le.trans hlow, hhigh.trans ?_⟩
      rw [hcount]
      simp only [Stage.unreported, if_true]
      omega
    | notifyMaster info session => exact absurd hstage (by simp [Stage.unreported])
    | listening session => simp [runStage] at hout
    | rejected => simp [runStage] at hout
    | _ =>
      have hsame : out.1.reportConnectedClients = p.server.reportConnectedClients :=
        congrArg SessionManager.getLength (sessionManager_runStage hout)
      refine ⟨hg.le.trans_eq hsame.symm, hsame.le.trans (hg.lag.trans ?_)⟩
      rw [hcount]
      omega
  | close now socket =>
    have hnone : p.server.listenersOn socket = [] := by simpa [Pipeline.reports] using hsilent
    rw [Pipeline.sessionCalls, hnone] at hmanager
    have hsame := congrArg SessionManager.getLength hmanager
    exact ⟨hg.le.trans_eq hsame.symm, hsame.le.trans hg.lag⟩

end

end Elephant.Listen
