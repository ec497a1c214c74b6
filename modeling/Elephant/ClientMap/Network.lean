import Elephant.ClientMap.Store
import Elephant.Schemes.Queue
import Mathlib.Data.Fintype.Basic

/-! All workers of all servers over one client map.

    Every worker handles listens and closes and sends `ADD_CLIENT` and `DEL_CLIENT` to its master. A
    worker's messages are delivered in the order they were sent, messages of different workers in any
    order, and each is applied to the shared table in one step.

        worker i ──ADD/DEL──▶ toMaster i ──deliver i──▶ connected_push_id ◀── … ◀── worker j

    What decides whether the map is right once everything is delivered is the last message about a
    push id in each queue: it may be an `ADD_CLIENT` only while that worker holds an open listen under
    the push id, and a `DEL_CLIENT` only while nobody does. The first half always holds; the second
    is where a close that is not the last one, or a listen that overtakes a `DEL_CLIENT`, breaks. -/

namespace Elephant.ClientMap
open Elephant.Schemes Elephant.Model Elephant.Listen

/-- The client map and the workers. -/
structure Net (ι : Type*) where
  clientmap : ClientTable
  workers : ι → SpdyServer

/-- Worker `i` runs on the server `(ids i).1` under the worker id `(ids i).2`. -/
def Net.create {ι : Type*} (ids : ι → ServerId × WorkerId) : Net ι :=
  ⟨.empty, fun i => .create (ids i).1 (ids i).2⟩

inductive NetEvent (ι : Type*) where
  | worker (i : ι) (e : Event)
  | deliver (i : ι)

/-- A listen is accepted under the client's push id only. -/
def accepts (puid : ClientId → PushId) : Event → Bool
  | .listen _ req => req.pushId = puid req.clientId
  | .close _ _ => true

section Step

variable {ι : Type*} [DecidableEq ι] (puid : ClientId → PushId)

def netStep (n : Net ι) : NetEvent ι → Option (Net ι)
  | .worker i e =>
    if accepts puid e then
      (step (n.workers i) e).map fun w => { n with workers := Function.update n.workers i w }
    else none
  | .deliver i =>
    match (n.workers i).toMaster with
    | [] => none
    | m :: rest => some ⟨processMsg n.clientmap m,
        Function.update n.workers i { n.workers i with toMaster := rest }⟩

end Step

section Properties

variable {ι : Type*}

/-- Worker `i` holds an open listen socket registered under push id `p`. -/
def Holds (n : Net ι) (i : ι) (p : PushId) : Prop :=
  ∃ h ∈ (n.workers i).closeHandlers, h.2.pushId = p

/-- No message is in flight. -/
def Quiet (n : Net ι) : Prop := ∀ i, (n.workers i).toMaster = []

/-- The map has an entry for `p` iff some worker holds an open listen under `p`, and the entry names
    such a worker and its server. -/
def Matches (n : Net ι) (p : PushId) : Prop :=
  ((n.clientmap.find p).isSome ↔ ∃ i, Holds n i p) ∧
    ∀ r, n.clientmap.find p = some r → ∃ i, Holds n i p ∧
      r.hostname = (n.workers i).serverId ∧ r.workerid = toString (n.workers i).workerId

/-- The map is right whenever nothing is in flight. -/
def RightWhenQuiet (n : Net ι) : Prop := Quiet n → ∀ p, Matches n p

/-- However the messages now in flight are delivered, the map is right once they all are. -/
def Settles [DecidableEq ι] (puid : ClientId → PushId) (n : Net ι) : Prop :=
  ∀ (ds : List ι) (n' : Net ι),
    run (netStep puid) n (ds.map .deliver) = some n' → RightWhenQuiet n'

/-- A listen comes only when no other worker's last message in flight about the push id is a
    `DEL_CLIENT`; a close is of the only open socket under each push id registered on it. -/
def InOrder (n : Net ι) : NetEvent ι → Prop
  | .worker i (.listen _ req) => ∀ j, j ≠ i →
      ∀ m, lastAbout msgPushId req.pushId (n.workers j).toMaster = some m → isDel m = false
  | .worker i (.close _ socket) => ∀ s, (socket, s) ∈ (n.workers i).closeHandlers →
      ∀ j, ∀ h ∈ (n.workers j).closeHandlers, h.2.pushId = s.pushId → j = i ∧ h.1 = socket
  | .deliver _ => True

/-- The last message about `p` in worker `i`'s queue agrees with the sockets that are open. -/
structure Agrees (n : Net ι) (p : PushId) (i : ι) (m : WorkerMsg) : Prop where
  add : isDel m = false → Holds n i p
  del : isDel m = true → ∀ j, ¬ Holds n j p

/-- What the steps in order keep, and what makes the map right in the end. -/
structure NetInv (puid : ClientId → PushId) (n : Net ι) : Prop where
  rows : OnePushId puid n.clientmap
  adds : ∀ i c p s w, .addClient c p s w ∈ (n.workers i).toMaster →
    p = puid c ∧ s = (n.workers i).serverId ∧ w = (n.workers i).workerId
  last : ∀ i p m, lastAbout msgPushId p (n.workers i).toMaster = some m → Agrees n p i m
  settled : ∀ p, (∀ i, lastAbout msgPushId p (n.workers i).toMaster = none) → Matches n p

end Properties

/-! ### What one step does -/

section Steps

variable {ι : Type*} [DecidableEq ι] {puid : ClientId → PushId} {n n' : Net ι} {i : ι}

/-- A worker's step replaces that worker and nothing else. -/
theorem netStep_worker {e : Event} (h : netStep puid n (.worker i e) = some n') :
    accepts puid e = true ∧ ∃ w, step (n.workers i) e = some w ∧
      n' = { n with workers := Function.update n.workers i w } := by
  simp only [netStep] at h
  split at h
  · rename_i hacc
    obtain ⟨w, hw, rfl⟩ := Option.map_eq_some_iff.mp h
    exact ⟨hacc, w, hw, rfl⟩
  · simp at h

/-- An accepted listen: one more socket is open under the push id, and the worker's queue ends with
    the `ADD_CLIENT`. -/
theorem netStep_listen {now : ℕ} {req : AcceptedReq}
    (h : netStep puid n (.worker i (.listen now req)) = some n') :
    req.pushId = puid req.clientId ∧ n'.clientmap = n.clientmap ∧
      (∀ j p, Holds n' j p ↔ Holds n j p ∨ j = i ∧ req.pushId = p) ∧
      (∀ j, (n'.workers j).serverId = (n.workers j).serverId ∧
        (n'.workers j).workerId = (n.workers j).workerId) ∧
      (n'.workers i).toMaster = (n.workers i).toMaster ++ [.addClient req.clientId req.pushId
        (n.workers i).serverId (n.workers i).workerId] ∧
      ∀ j, j ≠ i → (n'.workers j).toMaster = (n.workers j).toMaster := by
  obtain ⟨hacc, w, hw, rfl⟩ := netStep_worker h
  obtain ⟨-, rfl⟩ := by simpa [step] using hw
  refine ⟨by simpa [accepts] using hacc, rfl, fun j p => ?_, fun j => ?_, ?_, fun j hj => ?_⟩
  · by_cases hj : j = i
    · subst hj
      have hp : ((n.workers j).newSession now req).pushId = req.pushId := rfl
      simp [Holds, or_and_right, exists_or, hp]
    · simp [Holds, hj]
  · by_cases hj : j = i
    · subst hj; simp
    · simp [hj]
  · simp
  · simp [hj]

/-- A close: the sockets at that number are gone, and the queue ends with their `DEL_CLIENT`s. -/
theorem netStep_close {now : ℕ} {socket : SocketId}
    (h : netStep puid n (.worker i (.close now socket)) = some n') :
    n'.clientmap = n.clientmap ∧
      (∀ j p, Holds n' j p ↔ ∃ x ∈ (n.workers j).closeHandlers, x.2.pushId = p ∧
        ¬ (j = i ∧ x.1 = socket)) ∧
      (∀ j, (n'.workers j).serverId = (n.workers j).serverId ∧
        (n'.workers j).workerId = (n.workers j).workerId) ∧
      (n'.workers i).toMaster = (n.workers i).toMaster ++
        ((n.workers i).listenersOn socket).map (fun s => .delClient s.clientId s.pushId) ∧
      ∀ j, j ≠ i → (n'.workers j).toMaster = (n.workers j).toMaster := by
  obtain ⟨-, w, hw, rfl⟩ := netStep_worker h
  obtain ⟨-, rfl⟩ := by simpa [step] using hw
  refine ⟨rfl, fun j p => ?_, fun j => ?_, ?_, fun j hj => ?_⟩
  · by_cases hj : j = i
    · subst hj; simp [Holds, and_assoc, and_comm]
    · simp [Holds, hj]
  · by_cases hj : j = i
    · subst hj; simpa using (n.workers j).emitClose_ids now socket
    · simp [hj]
  · simp [SpdyServer.emitClose_toMaster]
  · simp [hj]

/-- A delivery takes the oldest message off one queue and applies it. -/
theorem netStep_deliver (h : netStep puid n (.deliver i) = some n') :
    ∃ m rest, (n.workers i).toMaster = m :: rest ∧ n'.clientmap = processMsg n.clientmap m ∧
      (∀ j, (n'.workers j).closeHandlers = (n.workers j).closeHandlers) ∧
      (∀ j, (n'.workers j).serverId = (n.workers j).serverId ∧
        (n'.workers j).workerId = (n.workers j).workerId) ∧
      (n'.workers i).toMaster = rest ∧
      ∀ j, j ≠ i → n'.workers j = n.workers j := by
  simp only [netStep] at h
  split at h
  · simp at h
  · rename_i m rest hq
    rw [Option.some.injEq] at h; subst h
    refine ⟨m, rest, hq, rfl, fun j => ?_, fun j => ?_, by simp, fun j hj => by simp [hj]⟩ <;>
      · by_cases hj : j = i
        · subst hj; simp
        · simp [hj]

/-! ### The last message about a push id -/

/-- A listen's `ADD_CLIENT` becomes the last message about its push id in that worker's queue. -/
theorem lastAbout_listen {now : ℕ} {req : AcceptedReq}
    (h : netStep puid n (.worker i (.listen now req)) = some n') :
    (∃ m, lastAbout msgPushId req.pushId (n'.workers i).toMaster = some m ∧ isDel m = false) ∧
      ∀ j p, ¬ (j = i ∧ req.pushId = p) → lastAbout msgPushId p (n'.workers j).toMaster
        = lastAbout msgPushId p (n.workers j).toMaster := by
  obtain ⟨-, -, -, -, hqi, hqj⟩ := netStep_listen h
  refine ⟨⟨_, by rw [hqi]; exact lastAbout_concat_self _ rfl, rfl⟩, fun j p hne => ?_⟩
  by_cases hj : j = i
  · subst hj
    have hp : req.pushId ≠ p := fun hp => hne ⟨rfl, hp⟩
    rw [hqi]; exact lastAbout_concat_ne _ hp
  · rw [hqj j hj]

/-- A close makes a `DEL_CLIENT` the last message about each push id registered on the socket. -/
theorem lastAbout_close {now : ℕ} {socket : SocketId}
    (h : netStep puid n (.worker i (.close now socket)) = some n') (p : PushId) :
    ((∃ s, (socket, s) ∈ (n.workers i).closeHandlers ∧ s.pushId = p) →
      ∃ m, lastAbout msgPushId p (n'.workers i).toMaster = some m ∧ isDel m = true) ∧
    ∀ j, (j = i → ∀ s, (socket, s) ∈ (n.workers i).closeHandlers → s.pushId ≠ p) →
      lastAbout msgPushId p (n'.workers j).toMaster
        = lastAbout msgPushId p (n.workers j).toMaster := by
  obtain ⟨-, -, -, hqi, hqj⟩ := netStep_close h
  constructor
  · rintro ⟨s, hs, hp⟩
    rw [hqi, lastAbout_append]
    cases hlast : lastAbout msgPushId p (((n.workers i).listenersOn socket).map
        fun s => WorkerMsg.delClient s.clientId s.pushId) with
    | none =>
      rw [lastAbout_eq_none] at hlast
      rw [← SpdyServer.mem_listenersOn] at hs
      exact absurd hp (hlast _ (List.mem_map_of_mem hs))
    | some m =>
      obtain ⟨s', -, rfl⟩ := List.mem_map.mp (mem_of_lastAbout hlast).1
      exact ⟨_, rfl, rfl⟩
  · intro j hj
    by_cases hji : j = i
    · subst hji
      have hnone : lastAbout msgPushId p (((n.workers j).listenersOn socket).map
          fun s => WorkerMsg.delClient s.clientId s.pushId) = none := by
        rw [lastAbout_eq_none]
        intro m hm
        obtain ⟨s, hs, rfl⟩ := List.mem_map.mp hm
        exact hj rfl s (((n.workers j).mem_listenersOn socket).mp hs)
      rw [hqi, lastAbout_append, hnone]; rfl
    · rw [hqj j hji]

end Steps

/-! ### The invariant -/

theorem Matches.congr {ι : Type*} {n n' : Net ι} {p : PushId}
    (hfind : n'.clientmap.find p = n.clientmap.find p)
    (hholds : ∀ j, Holds n' j p ↔ Holds n j p)
    (hids : ∀ j, (n'.workers j).serverId = (n.workers j).serverId ∧
      (n'.workers j).workerId = (n.workers j).workerId) (h : Matches n p) : Matches n' p := by
  refine ⟨by simp only [hfind, hholds]; exact h.1, fun r hr => ?_⟩
  obtain ⟨j, hj, hs, hw⟩ := h.2 r (hfind ▸ hr)
  exact ⟨j, (hholds j).mpr hj, by rw [hs, (hids j).1], by rw [hw, (hids j).2]⟩

theorem NetInv.create {ι : Type*} (puid : ClientId → PushId) (ids : ι → ServerId × WorkerId) :
    NetInv puid (.create ids) := by
  have hempty : ∀ p, (Net.create ids).clientmap.find p = none := fun p => rfl
  refine ⟨fun p r hr => ?_, fun i c p s w hm => ?_, fun i p m hm => ?_, fun p _ => ⟨?_, fun r hr => ?_⟩⟩
  · rw [hempty] at hr; simp at hr
  · simp [Net.create, SpdyServer.create] at hm
  · simp [Net.create, SpdyServer.create, lastAbout] at hm
  · rw [hempty]; simp [Holds, Net.create, SpdyServer.create]
  · rw [hempty] at hr; simp at hr

namespace NetInv

variable {ι : Type*} [DecidableEq ι] {puid : ClientId → PushId} {n n' : Net ι} {i : ι}

/-- New messages at the end of one queue. -/
theorem adds_append {msgs : List WorkerMsg} (h : NetInv puid n)
    (hids : ∀ j, (n'.workers j).serverId = (n.workers j).serverId ∧
      (n'.workers j).workerId = (n.workers j).workerId)
    (hqi : (n'.workers i).toMaster = (n.workers i).toMaster ++ msgs)
    (hqj : ∀ j, j ≠ i → (n'.workers j).toMaster = (n.workers j).toMaster)
    (hnew : ∀ c p s w, .addClient c p s w ∈ msgs →
      p = puid c ∧ s = (n.workers i).serverId ∧ w = (n.workers i).workerId)
    {j : ι} {c : ClientId} {p : PushId} {s : ServerId} {w : WorkerId}
    (hm : .addClient c p s w ∈ (n'.workers j).toMaster) :
    p = puid c ∧ s = (n'.workers j).serverId ∧ w = (n'.workers j).workerId := by
  rw [(hids j).1, (hids j).2]
  by_cases hj : j = i
  · subst hj
    rw [hqi, List.mem_append] at hm
    exact hm.elim (h.adds j c p s w) (hnew c p s w)
  · rw [hqj j hj] at hm
    exact h.adds j c p s w hm

theorem listen {now : ℕ} {req : AcceptedReq} (h : NetInv puid n)
    (hC : InOrder n (.worker i (.listen now req)))
    (hstep : netStep puid n (.worker i (.listen now req)) = some n') : NetInv puid n' := by
  obtain ⟨hpuid, hmap, hholds, hids, hqi, hqj⟩ := netStep_listen hstep
  obtain ⟨⟨a, ha, hadd⟩, hsame⟩ := lastAbout_listen hstep
  -- a push id other than the request's has the same open sockets
  have hother : ∀ {p}, req.pushId ≠ p → ∀ j, Holds n' j p ↔ Holds n j p :=
    fun hp j => by simp [hholds, hp]
  refine ⟨hmap ▸ h.rows, fun j c p s w => h.adds_append hids hqi hqj fun c p s w hm => ?_,
    fun j p m hlast => ?_, fun p hnone => ?_⟩
  · obtain ⟨rfl, rfl, rfl, rfl⟩ := by simpa using hm
    exact ⟨hpuid, rfl, rfl⟩
  · by_cases hjp : j = i ∧ req.pushId = p
    · obtain ⟨rfl, rfl⟩ := hjp
      rw [ha, Option.some.injEq] at hlast; subst hlast
      exact ⟨fun _ => (hholds j _).mpr (Or.inr ⟨rfl, rfl⟩), fun hd => by simp [hadd] at hd⟩
    · rw [hsame j p hjp] at hlast
      obtain ⟨hold, hdel⟩ := h.last j p m hlast
      refine ⟨fun hm => (hholds j p).mpr (Or.inl (hold hm)), fun hm => ?_⟩
      by_cases hp : req.pushId = p
      · subst hp
        have hj : j ≠ i := fun hj => hjp ⟨hj, rfl⟩
        rw [hC j hj m hlast] at hm; simp at hm
      · intro k; rw [hother hp k]; exact hdel hm k
  · have hp : req.pushId ≠ p := by
      rintro rfl
      rw [hnone i] at ha; simp at ha
    refine Matches.congr (by rw [hmap]) (hother hp) hids (h.settled p fun j => ?_)
    rw [← hsame j p fun hjp => hp hjp.2]; exact hnone j

theorem close {now : ℕ} {socket : SocketId} (h : NetInv puid n)
    (hC : InOrder n (.worker i (.close now socket)))
    (hstep : netStep puid n (.worker i (.close now socket)) = some n') : NetInv puid n' := by
  obtain ⟨hmap, hholds, hids, hqi, hqj⟩ := netStep_close hstep
  have hsub : ∀ {j p}, Holds n' j p → Holds n j p := by
    intro j p hj
    obtain ⟨x, hx, hp, -⟩ := (hholds j p).mp hj
    exact ⟨x, hx, hp⟩
  -- a push id with no listen on the socket has the same open sockets
  have hother : ∀ {p}, (∀ s, (socket, s) ∈ (n.workers i).closeHandlers → s.pushId ≠ p) →
      ∀ j, Holds n' j p ↔ Holds n j p := by
    intro p hp j
    refine ⟨hsub, fun ⟨x, hx, hxp⟩ => (hholds j p).mpr ⟨x, hx, hxp, ?_⟩⟩
    rintro ⟨rfl, rfl⟩
    exact hp x.2 hx hxp
  refine ⟨hmap ▸ h.rows, fun j c p s w => h.adds_append hids hqi hqj fun c p s w hm => ?_,
    fun j p m hlast => ?_, fun p hnone => ?_⟩
  · simp at hm
  · by_cases hreg : ∃ s, (socket, s) ∈ (n.workers i).closeHandlers ∧ s.pushId = p
    · -- the socket was the only one under `p`, and it is gone
      obtain ⟨s, hs, hp⟩ := hreg
      have hgone : ∀ k, ¬ Holds n' k p := by
        intro k hk
        obtain ⟨x, hx, hxp, hne⟩ := (hholds k p).mp hk
        exact hne (hC s hs k x hx (hxp.trans hp.symm))
      refine ⟨fun hm => ?_, fun _ => hgone⟩
      by_cases hj : j = i
      · subst hj
        obtain ⟨d, hd, hdel⟩ := (lastAbout_close hstep p).1 ⟨s, hs, hp⟩
        rw [hd, Option.some.injEq] at hlast; subst hlast
        rw [hm] at hdel; simp at hdel
      · rw [(lastAbout_close hstep p).2 j fun hji => absurd hji hj] at hlast
        obtain ⟨x, hx, hxp⟩ := (h.last j p m hlast).add hm
        exact absurd (hC s hs j x hx (hxp.trans hp.symm)).1 hj
    · simp only [not_exists, not_and] at hreg
      rw [(lastAbout_close hstep p).2 j fun _ => hreg] at hlast
      obtain ⟨hold, hdel⟩ := h.last j p m hlast
      exact ⟨fun hm => (hother hreg j).mpr (hold hm), fun hm k hk => hdel hm k (hsub hk)⟩
  · have hreg : ∀ s, (socket, s) ∈ (n.workers i).closeHandlers → s.pushId ≠ p := by
      intro s hs hp
      obtain ⟨d, hd, -⟩ := (lastAbout_close hstep p).1 ⟨s, hs, hp⟩
      rw [hnone i] at hd; simp at hd
    refine Matches.congr (by rw [hmap]) (hother hreg) hids (h.settled p fun j => ?_)
    rw [← (lastAbout_close hstep p).2 j fun _ => hreg]; exact hnone j

theorem deliver (h : NetInv puid n) (hstep : netStep puid n (.deliver i) = some n') :
    NetInv puid n' := by
  obtain ⟨m, rest, hq, hmap, hhandlers, hids, hqi, hqj⟩ := netStep_deliver hstep
  have hholds : ∀ {j p}, Holds n' j p ↔ Holds n j p := by simp only [Holds, hhandlers, implies_true]
  -- a message still last about `p` was so before
  have hback : ∀ {j p x}, lastAbout msgPushId p (n'.workers j).toMaster = some x →
      lastAbout msgPushId p (n.workers j).toMaster = some x := by
    intro j p x hx
    by_cases hj : j = i
    · subst hj; rw [hqi] at hx; rw [hq, lastAbout_cons, hx]; rfl
    · rw [hqj j hj] at hx; exact hx
  have hok : msgOk puid m = true := by
    cases m with
    | delClient c q => rfl
    | addClient c q s w =>
      have := h.adds i c q s w (by rw [hq]; exact List.mem_cons_self ..)
      simpa [msgOk] using this.1
  refine ⟨hmap ▸ h.rows.processMsg hok, fun j c p s w hm => ?_, fun j p x hx => ?_, fun p hnone => ?_⟩
  · rw [(hids j).1, (hids j).2]
    refine h.adds j c p s w ?_
    by_cases hj : j = i
    · subst hj; rw [hqi] at hm; rw [hq]; exact List.mem_cons_of_mem _ hm
    · rw [hqj j hj] at hm; exact hm
  · obtain ⟨hadd, hdel⟩ := h.last j p x (hback hx)
    exact ⟨fun hx => hholds.mpr (hadd hx), fun hx k hk => hdel hx k (hholds.mp hk)⟩
  · have hrest : lastAbout msgPushId p rest = none := hqi ▸ hnone i
    by_cases hp : msgPushId m = p
    · -- the delivered message was the last one about `p` anywhere
      have hlast : lastAbout msgPushId p (n.workers i).toMaster = some m := by
        rw [hq, lastAbout_cons, hrest, if_pos hp]; rfl
      have hfind : n'.clientmap.find p = outcome m := by
        rw [hmap, ← hp]; exact find_processMsg_self h.rows hok
      obtain ⟨hadd, hdel⟩ := h.last i p m hlast
      cases m with
      | delClient c q =>
        refine ⟨?_, fun r hr => by simp [hfind, outcome] at hr⟩
        simp only [hfind, outcome, Option.isSome_none, Bool.false_eq_true, false_iff, not_exists]
        exact fun j hj => hdel rfl j (hholds.mp hj)
      | addClient c q s w =>
        obtain ⟨-, rfl, rfl⟩ := h.adds i c q s w (by rw [hq]; exact List.mem_cons_self ..)
        have hi : Holds n' i p := hholds.mpr (hadd rfl)
        refine ⟨by simp only [hfind, outcome, Option.isSome_some, true_iff]; exact ⟨i, hi⟩, ?_⟩
        intro r hr
        obtain rfl := by simpa [hfind, outcome] using hr
        exact ⟨i, hi, (hids i).1.symm, congrArg toString (hids i).2.symm⟩
    · refine Matches.congr (by rw [hmap, find_processMsg_ne _ hp]) (fun _ => hholds) hids ?_
      refine h.settled p fun j => ?_
      by_cases hj : j = i
      · subst hj; rw [hq, lastAbout_cons, hrest, if_neg hp]; rfl
      · rw [← hqj j hj]; exact hnone j

theorem step {e : NetEvent ι} (h : NetInv puid n) (hC : InOrder n e)
    (hstep : netStep puid n e = some n') : NetInv puid n' := by
  match e with
  | .worker i (.listen now req) => exact h.listen hC hstep
  | .worker i (.close now socket) => exact h.close hC hstep
  | .deliver i => exact h.deliver hstep

/-- Deliveries keep the invariant, and without messages in flight it gives the entries. -/
theorem settles (h : NetInv puid n) : Settles puid n := by
  intro ds n' hrun hquiet p
  have hdel : ∀ (ds : List ι) (n : Net ι), AllSteps (netStep puid) InOrder n (ds.map .deliver) := by
    intro ds
    induction ds with
    | nil => exact fun _ => trivial
    | cons i ds ih => exact fun n => ⟨trivial, fun n' _ => ih n'⟩
  have h' : NetInv puid n' := inv_run (fun _ _ _ h hC hs => h.step hC hs) h (hdel ds n) hrun
  exact h'.settled p fun i => by rw [hquiet i]; rfl

end NetInv

/-! ### Delivering everything -/

section Drain

variable {ι : Type*} [DecidableEq ι] (puid : ClientId → PushId)

/-- The whole queue of worker `i` can be delivered, oldest first. -/
theorem run_deliver_queue (i : ι) : ∀ (q : List WorkerMsg) (n : Net ι),
    (n.workers i).toMaster = q →
    ∃ (ds : List ι) (n' : Net ι), run (netStep puid) n (ds.map .deliver) = some n' ∧
      n'.clientmap = q.foldl processMsg n.clientmap ∧ (n'.workers i).toMaster = [] ∧
      (∀ j, j ≠ i → n'.workers j = n.workers j) ∧
      ∀ j, (n'.workers j).closeHandlers = (n.workers j).closeHandlers
  | [], n, hq => ⟨[], n, rfl, rfl, hq, fun _ _ => rfl, fun _ => rfl⟩
  | m :: q, n, hq => by
      have hstep : ∃ n₁, netStep puid n (.deliver i) = some n₁ := by simp [netStep, hq]
      obtain ⟨n₁, hstep⟩ := hstep
      obtain ⟨m', rest, hq', hmap, hhandlers, -, hqi, hqj⟩ := netStep_deliver hstep
      obtain ⟨rfl, rfl⟩ : m = m' ∧ q = rest := by rw [hq] at hq'; simpa using hq'
      obtain ⟨ds, n', hrun, hmap', hnil, hother, hsame⟩ := run_deliver_queue i q n₁ hqi
      refine ⟨i :: ds, n', run_cons_some.mpr ⟨n₁, hstep, hrun⟩, ?_, hnil, fun j hj => ?_, fun j => ?_⟩
      · rw [hmap', hmap]; rfl
      · rw [hother j hj, hqj j hj]
      · rw [hsame, hhandlers]

/-- The queues of a list of workers can be delivered, the others left alone. -/
theorem run_deliver_workers : ∀ (l : List ι) (n : Net ι),
    ∃ (ds : List ι) (n' : Net ι), run (netStep puid) n (ds.map .deliver) = some n' ∧
      (∀ j ∈ l, (n'.workers j).toMaster = []) ∧ (∀ j, j ∉ l → n'.workers j = n.workers j) ∧
      ∀ j, (n'.workers j).closeHandlers = (n.workers j).closeHandlers
  | [], n => ⟨[], n, rfl, by simp, fun _ _ => rfl, fun _ => rfl⟩
  | i :: l, n => by
      obtain ⟨ds, n₁, hrun, -, hnil, hother, hsame⟩ :=
        run_deliver_queue puid i _ n rfl
      obtain ⟨ds', n', hrun', hnil', hother', hsame'⟩ := run_deliver_workers l n₁
      refine ⟨ds ++ ds', n', ?_, fun j hj => ?_, fun j hj => ?_, fun j => ?_⟩
      · rw [List.map_append]; exact run_append_some.mpr ⟨n₁, hrun, hrun'⟩
      · by_cases hjl : j ∈ l
        · exact hnil' j hjl
        · obtain rfl : j = i := by simpa [hjl] using hj
          rw [hother' j hjl]; exact hnil
      · simp only [List.mem_cons, not_or] at hj
        rw [hother' j hj.2, hother j hj.1]
      · rw [hsame', hsame]

/-- A `DEL_CLIENT` that is last in some queue while a socket is open under its push id: delivered
    after everything else, it removes the entry that the socket needs. -/
theorem not_settles [Fintype ι] {puid : ClientId → PushId} {n : Net ι} {i j : ι} {p : PushId}
    {m : WorkerMsg}
    (hlast : lastAbout msgPushId p (n.workers i).toMaster = some m) (hm : isDel m = true)
    (hj : Holds n j p) : ¬ Settles puid n := by
  intro hsettles
  obtain ⟨ds, n₁, hrun, hnil, hother, hsame⟩ :=
    run_deliver_workers puid (Finset.univ.erase i).toList n
  have hi : n₁.workers i = n.workers i := hother i (by simp)
  obtain ⟨ds', n₂, hrun', hmap, hnil', hother', hsame'⟩ :=
    run_deliver_queue puid i _ n₁ rfl
  have hrun₂ : run (netStep puid) n ((ds ++ ds').map .deliver) = some n₂ := by
    rw [List.map_append]; exact run_append_some.mpr ⟨n₁, hrun, hrun'⟩
  have hquiet : Quiet n₂ := by
    intro k
    by_cases hk : k = i
    · rw [hk]; exact hnil'
    · rw [hother' k hk]; exact hnil k (by simp [hk])
  have hfind : n₂.clientmap.find p = none := by
    rw [hi] at hmap
    obtain ⟨t, ht⟩ := view_foldl (fun t : ClientTable => t.find p) n₁.clientmap hlast
      fun t _ hne => find_processMsg_ne t hne
    rw [hmap, ht, ← (mem_of_lastAbout hlast).2]; exact find_processMsg_del t hm
  have hopen : ∃ k, Holds n₂ k p := ⟨j, by simp only [Holds, hsame', hsame]; exact hj⟩
  have := (hsettles _ n₂ hrun₂ hquiet p).1.mpr hopen
  rw [hfind] at this; simp at this

/-- A step out of order leaves a `DEL_CLIENT` behind an open socket. -/
theorem not_settles_of_step [Fintype ι] {n n' : Net ι} {e : NetEvent ι} (hn : ¬ InOrder n e)
    (hstep : netStep puid n e = some n') : ¬ Settles puid n' := by
  match e with
  | .deliver i => exact absurd trivial hn
  | .worker i (.listen now req) =>
    simp only [InOrder, not_forall, Bool.not_eq_false] at hn
    obtain ⟨j, hj, m, hlast, hm⟩ := hn
    obtain ⟨-, -, hholds, -, -, -⟩ := netStep_listen hstep
    rw [← (lastAbout_listen hstep).2 j _ fun hji => hj hji.1] at hlast
    exact not_settles hlast hm ((hholds i _).mpr (Or.inr ⟨rfl, rfl⟩))
  | .worker i (.close now socket) =>
    simp only [InOrder, not_forall] at hn
    obtain ⟨s, hs, j, h, hh, hp, hne⟩ := hn
    obtain ⟨-, hholds, -, -, -⟩ := netStep_close hstep
    obtain ⟨m, hlast, hm⟩ := (lastAbout_close hstep s.pushId).1 ⟨s, hs, rfl⟩
    exact not_settles hlast hm ((hholds j _).mpr ⟨h, hh, hp, hne⟩)

end Drain

/-- Over every run of any number of workers: the map comes right however the messages in flight are
    delivered, at every point of the run, iff every listen and close is in order; and then it is
    right whenever nothing is in flight. -/
theorem settles_iff_inOrder {ι : Type*} [DecidableEq ι] [Fintype ι] (puid : ClientId → PushId)
    (ids : ι → ServerId × WorkerId) (es : List (NetEvent ι)) (n : Net ι)
    (hrun : run (netStep puid) (.create ids) es = some n) :
    (AllStates (netStep puid) (Settles puid) (.create ids) es ↔
      AllSteps (netStep puid) InOrder (.create ids) es) ∧
    (AllSteps (netStep puid) InOrder (.create ids) es →
      AllStates (netStep puid) RightWhenQuiet (.create ids) es) := by
  have hiff : AllStates (netStep puid) (Settles puid) (.create ids) es ↔
      AllSteps (netStep puid) InOrder (.create ids) es :=
    allStates_iff_allSteps (I := NetInv puid) (fun _ _ _ h hC hs => h.step hC hs)
      (fun _ h => h.settles) (fun _ _ _ _ hn hs => not_settles_of_step puid hn hs)
      (NetInv.create puid ids) ⟨n, hrun⟩
  refine ⟨hiff, fun hC pre n' hpre hn' => ?_⟩
  exact hiff.mpr hC pre n' hpre hn' [] n' rfl

instance {ι : Type*} [DecidableEq ι] [Fintype ι] (n : Net ι) (e : NetEvent ι) :
    Decidable (InOrder n e) :=
  match e with
  | .deliver _ => isTrue trivial
  | .worker i (.listen _ req) => inferInstanceAs (Decidable (∀ j, j ≠ i →
      ∀ m ∈ lastAbout msgPushId req.pushId (n.workers j).toMaster, isDel m = false))
  | .worker i (.close _ socket) =>
    decidable_of_iff (∀ x ∈ (n.workers i).closeHandlers, x.1 = socket →
        ∀ j, ∀ h ∈ (n.workers j).closeHandlers, h.2.pushId = x.2.pushId → j = i ∧ h.1 = socket)
      ⟨fun h _ hs => h _ hs rfl, fun h x hx hxs => h x.2 (hxs ▸ hx)⟩

instance {ι : Type*} [Fintype ι] (n : Net ι) : Decidable (Quiet n) :=
  inferInstanceAs (Decidable (∀ i, (n.workers i).toMaster = []))

/-- Two workers of one server. -/
def twoWorkers (i : Fin 2) : ServerId × WorkerId := ("10.0.0.1:8443", i + 1)

/-- A client that moves to the other worker once its old socket is closed and the map knows. -/
def moveAfterClose : List (NetEvent (Fin 2)) :=
  [.worker 0 (.listen 0 (.ofFirst 1 "puid-0")), .deliver 0, .worker 0 (.close 1500 1),
    .deliver 0, .worker 1 (.listen 2000 (.ofFirst 1 "puid-0")), .deliver 1]

theorem settles_moveAfterClose :
    AllStates (netStep fun _ => "puid-0") RightWhenQuiet (.create twoWorkers) moveAfterClose :=
  (settles_iff_inOrder _ twoWorkers moveAfterClose _ rfl).2 (by decide)

/-- A client that listens at the other worker before its old socket is seen to close. -/
def moveBeforeClose : List (NetEvent (Fin 2)) :=
  [.worker 0 (.listen 0 (.ofFirst 1 "puid-0")), .deliver 0,
    .worker 1 (.listen 1500 (.ofFirst 1 "puid-0")), .deliver 1,
    .worker 0 (.close 2000 1), .deliver 0]

/-- The old socket's `DEL_CLIENT` removes the entry of the newer listen. -/
theorem not_right_moveBeforeClose :
    ¬ AllStates (netStep fun _ => "puid-0") RightWhenQuiet (.create twoWorkers) moveBeforeClose := by
  intro h
  have hend := h moveBeforeClose _ (List.prefix_refl _) rfl (by decide) "puid-0"
  exact absurd (hend.1.mpr ⟨1, _, List.mem_singleton_self _, rfl⟩) (by decide)

end Elephant.ClientMap
