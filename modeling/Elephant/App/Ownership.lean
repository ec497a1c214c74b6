import Elephant.App.Delivery
import Elephant.Listen.Isolation
import Elephant.Model.ClientPushId

/-! Whose client a push reaches.

    A push id is a digest of a client id and a refresh count, and a listen is accepted only under a push
    id of its own client. What leads a push from its address to a session was written by such listens,
    however late its parts are and whichever worker or server they came through:

        listen (c, p) ─▶ ADD_CLIENT (c, p) ─▶ handler ─▶ row (p, c) ─▶ push (p, c) ─▶ session of c
              ╰───────────────────────────────────────────────────────────────────────▶ ▲

    The session that is written to may be under another push id, but it is one of the same client. -/

namespace Elephant.App
open Elephant.Schemes Elephant.Model Elephant.Listen Elephant.ClientMap Elephant.Api

section

variable (digest : String → String) (salt : String)

/-- The push id that the client has, or had, at some refresh count. -/
def IssuedTo (c : ClientId) (p : PushId) : Prop := ∃ n, p = Refresh.generatePushId digest salt c n

/-- The client that a message is about owns the push id in it. -/
def Announces (m : WorkerMsg) : Prop := IssuedTo digest salt (msgClientId m) (msgPushId m)

/-- Everything a worker has is of a client and a push id of its own. -/
structure WorkerOwned (w : SpdyServer) : Prop where
  sessions : ∀ c x, w.sessionManager.getSession c = some (.own x) →
    x.clientId = c ∧ IssuedTo digest salt c x.pushId
  listeners : ∀ h ∈ w.closeHandlers, IssuedTo digest salt h.2.clientId h.2.pushId
  queued : ∀ m ∈ w.toMaster, Announces digest salt m

/-- Everything that connects a push id with a client connects it with its owner. -/
structure Owned (s : Farm) : Prop where
  workers : ∀ σ k, WorkerOwned digest salt (s.workers σ k)
  handled : ∀ h ∈ s.handlers, Announces digest salt h.msg
  rows : ∀ r ∈ s.clientmap.rows, IssuedTo digest salt r.clientid r.pushid
  pushes : ∀ q ∈ s.pushes, IssuedTo digest salt q.client.clientid q.client.pushid
  delivered : ∀ q ∈ s.pushes, ∀ x, q.stage.writtenTo = some x → x.clientId = q.client.clientid

end

section

variable {digest : String → String} {salt : String} {s s' : Farm}

theorem Owned.create : Owned digest salt .create where
  workers _ _ := {
    sessions := fun c x h => absurd h (SessionManager.getSession_create c x)
    listeners := fun _ hh => absurd hh List.not_mem_nil
    queued := fun _ hm => absurd hm List.not_mem_nil }
  handled _ hh := absurd hh List.not_mem_nil
  rows _ hr := absurd hr List.not_mem_nil
  pushes _ hq := absurd hq List.not_mem_nil
  delivered _ hq := absurd hq List.not_mem_nil

/-- The guard of a listen asks for a push id of the client. -/
theorem issuedTo_of_accepted {now : ℕ} {req : AcceptedReq}
    (h : accepted digest salt s (.listen now req) = true) :
    IssuedTo digest salt req.clientId req.pushId := by
  obtain ⟨n, -, hn⟩ := List.any_eq_true.mp h
  exact ⟨n, of_decide_eq_true hn⟩

/-! ### A worker -/

section

variable {w : SpdyServer}

theorem WorkerOwned.listen (hw : WorkerOwned digest salt w) (now : ℕ) {req : AcceptedReq}
    (hreq : IssuedTo digest salt req.clientId req.pushId) :
    WorkerOwned digest salt (w.listen now req) where
  sessions c x hget := by
    by_cases hc : c = req.clientId
    · subst hc
      rw [SpdyServer.getSession_listen_self] at hget
      obtain rfl := Found.own.inj (Option.some.inj hget)
      exact ⟨rfl, hreq⟩
    · rw [SpdyServer.getSession_listen_ne _ _ _ hc] at hget
      exact hw.sessions c x hget
  listeners h hh := by
    rw [SpdyServer.listen_closeHandlers] at hh
    rcases List.mem_append.mp hh with hold | hnew
    · exact hw.listeners h hold
    · obtain rfl := List.mem_singleton.mp hnew
      exact hreq
  queued m hm := by
    rw [SpdyServer.listen_toMaster] at hm
    rcases List.mem_append.mp hm with hold | hnew
    · exact hw.queued m hold
    · obtain rfl := List.mem_singleton.mp hnew
      exact hreq

/-- A close takes sessions away and tells of its listeners. -/
theorem WorkerOwned.emitClose (hw : WorkerOwned digest salt w) (now : ℕ) (socket : SocketId) :
    WorkerOwned digest salt (w.emitClose now socket) where
  sessions c x hget := hw.sessions c x (w.getSession_emitClose now socket hget).1
  listeners h hh := hw.listeners h (List.mem_of_mem_filter hh)
  queued m hm := by
    rw [SpdyServer.emitClose_toMaster] at hm
    rcases List.mem_append.mp hm with hold | hnew
    · exact hw.queued m hold
    · obtain ⟨x, hx, rfl⟩ := List.mem_map.mp hnew
      exact hw.listeners _ ((w.mem_listenersOn socket).mp hx)

theorem WorkerOwned.step {w' : SpdyServer} {e : Event} (hw : WorkerOwned digest salt w)
    (he : accepted digest salt s e = true) (hstep : Listen.step w e = some w') :
    WorkerOwned digest salt w' := by
  cases e with
  | listen now req =>
    obtain ⟨-, rfl⟩ := by simpa [Listen.step] using hstep
    exact hw.listen now (issuedTo_of_accepted he)
  | close now socket =>
    obtain ⟨-, rfl⟩ := by simpa [Listen.step] using hstep
    exact hw.emitClose now socket

/-- A channel that holds less. -/
theorem WorkerOwned.queue (hw : WorkerOwned digest salt w) {queue : List WorkerMsg}
    (hsub : queue ⊆ w.toMaster) : WorkerOwned digest salt { w with toMaster := queue } :=
  ⟨hw.sessions, hw.listeners, fun m hm => hw.queued m (hsub hm)⟩

end

theorem workers_setWorker (s : Farm) (σ σ' : ServerId) (k k' : WorkerId) (w : SpdyServer) :
    (s.setWorker σ k w).workers σ' k' = if σ' = σ ∧ k' = k then w else s.workers σ' k' := by
  unfold Farm.setWorker
  by_cases hσ : σ' = σ
  · subst hσ
    by_cases hk : k' = k
    · subst hk; simp
    · simp [hk]
  · simp [hσ]

/-- A worker of the farm is replaced by one that owns what it has. -/
theorem Owned.setWorker (hs : Owned digest salt s) (σ : ServerId) (k : WorkerId) {w : SpdyServer}
    (hw : WorkerOwned digest salt w) : Owned digest salt (s.setWorker σ k w) where
  workers σ' k' := by
    rw [workers_setWorker]
    split
    · exact hw
    · exact hs.workers σ' k'
  handled := hs.handled
  rows := hs.rows
  pushes := hs.pushes
  delivered := hs.delivered

/-! ### The client map -/

/-- A handler writes the row of its own message, or none. -/
theorem rows_runOp {t : ClientTable} {m : WorkerMsg} {phase : Phase} {out : ClientTable × Phase × Bool}
    (hop : runOp t m phase = some out) (hm : Announces digest salt m)
    (ht : ∀ r ∈ t.rows, IssuedTo digest salt r.clientid r.pushid) :
    ∀ r ∈ out.1.rows, IssuedTo digest salt r.clientid r.pushid := by
  intro r hr
  unfold runOp at hop
  split at hop
  · obtain rfl := Option.some.inj hop
    exact ht r hr
  · split at hop <;> obtain rfl := Option.some.inj hop
    · rename_i hinsert
      rw [(Table.insert_eq_some hinsert).1] at hr
      rcases List.mem_append.mp hr with hold | hnew
      · exact ht r hold
      · obtain rfl := List.mem_singleton.mp hnew
        exact hm
    · exact ht r hr
  · split at hop <;> obtain rfl := Option.some.inj hop
    · rename_i hupdate
      rw [Table.update_eq_some hupdate] at hr
      obtain ⟨x, hx, rfl⟩ := List.mem_map.mp hr
      split
      · exact hm
      · exact ht x hx
    · exact ht r hr
  · obtain rfl := Option.some.inj hop
    exact ht r (List.mem_of_mem_filter hr)
  · simp at hop

/-! ### Pushes -/

/-- A push keeps its address, and a delivered one has found the session of its client id. -/
theorem Owned.setStage {n : ℕ} {q : LocalPush} {t : ClientTable} {stage : PushStage}
    (hs : Owned digest salt s) (hq : s.pushes[n]? = some q) (hadvance : Advance s q op q.stage t stage) :
    Owned digest salt (s.setStage n q t stage) where
  workers := hs.workers
  handled := hs.handled
  rows r hr := by
    have hfind := (Table.find_eq_some (k := r.pushid)).mpr ⟨hr, rfl⟩
    exact hs.rows r (Table.find_eq_some.mp (hadvance.find_of_find hfind)).1
  pushes q' hq' := by
    rcases List.mem_or_eq_of_mem_set hq' with hold | rfl
    · exact hs.pushes q' hold
    · exact hs.pushes q (List.mem_of_getElem? hq)
  delivered q' hq' x hx := by
    rcases List.mem_or_eq_of_mem_set hq' with hold | rfl
    · exact hs.delivered q' hold x hx
    · obtain ⟨k, -, -, hsession, -⟩ := hadvance.session_of_written hx
      exact ((hs.workers _ k).sessions _ x hsession).1

theorem Owned.entered (hs : Owned digest salt s) {σ : ServerId} {client : Row} {p : PushId}
    (hfind : s.clientmap.find p = some client) : Owned digest salt (s.entered σ client) where
  workers := hs.workers
  handled := hs.handled
  rows := hs.rows
  pushes q hq := by
    rcases List.mem_append.mp hq with hold | hnew
    · exact hs.pushes q hold
    · obtain rfl := List.mem_singleton.mp hnew
      exact hs.rows client (Table.find_eq_some.mp hfind).1
  delivered q hq x hx := by
    rcases List.mem_append.mp hq with hold | hnew
    · exact hs.delivered q hold x hx
    · obtain rfl := List.mem_singleton.mp hnew
      exact absurd hx (by simp [PushStage.writtenTo])

/-! ### One event -/

theorem Owned.step {e : FarmEvent} (hs : Owned digest salt s)
    (hstep : farmStep digest salt s e = some s') : Owned digest salt s' := by
  cases e with
  | refresh c =>
    obtain rfl := Option.some.inj hstep
    exact ⟨hs.workers, hs.handled, hs.rows, hs.pushes, hs.delivered⟩
  | fork σ =>
    obtain rfl := Option.some.inj hstep
    exact ⟨hs.workers, hs.handled, hs.rows, hs.pushes, hs.delivered⟩
  | exit σ k kept =>
    obtain rfl := farmStep_exit hstep
    have hworker := hs.setWorker σ k ((hs.workers σ k).queue (List.take_subset kept _))
    exact ⟨hworker.workers, hs.handled, hs.rows, hs.pushes, hs.delivered⟩
  | worker σ k e =>
    have haccepted : accepted digest salt s e = true := by
      simp only [farmStep] at hstep
      split at hstep
      · rename_i hguard
        exact hguard.2
      · simp at hstep
    obtain ⟨w, -, hw, rfl⟩ := farmStep_worker hstep
    exact hs.setWorker σ k ((hs.workers σ k).step haccepted hw)
  | deliver σ k =>
    obtain ⟨m, rest, hqueue, rfl⟩ := farmStep_deliver hstep
    have hworker := hs.setWorker σ k ((hs.workers σ k).queue (hqueue ▸ List.subset_cons_self m rest))
    refine ⟨hworker.workers, fun h hh => ?_, hs.rows, hs.pushes, hs.delivered⟩
    rcases List.mem_append.mp hh with hold | hnew
    · exact hs.handled h hold
    · obtain rfl := List.mem_singleton.mp hnew
      exact (hs.workers σ k).queued m (hqueue ▸ List.mem_cons_self)
  | exec n =>
    obtain ⟨m, phase, out, hn, hop, rfl⟩ := farmStep_exec hstep
    have hm := hs.handled _ (List.mem_of_getElem? hn)
    refine ⟨hs.workers, fun h hh => ?_, rows_runOp hop hm hs.rows, hs.pushes, hs.delivered⟩
    rcases List.mem_or_eq_of_mem_set hh with hold | rfl
    · exact hs.handled h hold
    · exact hm
  | lookup σ p =>
    obtain ⟨client, hfind, -, rfl⟩ := farmStep_lookup hstep
    exact hs.entered hfind
  | push n op =>
    obtain ⟨q, t, stage, hq, hadvance, rfl⟩ := farmStep_push hstep
    exact hs.setStage hq hadvance

/-- A push id has one owner. -/
theorem IssuedTo.iff_eq (hdigest : Function.Injective digest) (hsalt : EndsInNonDigit salt)
    {c : ClientId} {p : PushId} (h : IssuedTo digest salt c p) (c' : ClientId) :
    IssuedTo digest salt c' p ↔ c' = c := by
  obtain ⟨n, rfl⟩ := h
  constructor
  · rintro ⟨n', h'⟩
    exact (data_injective hsalt (hdigest h')).1.symm
  · rintro rfl
    exact ⟨n, rfl⟩

end

/-- The rows, the sessions and the pushes of a farm, each with the one client that its push id was ever
    issued to. -/
structure KeepsApart (digest : String → String) (salt : String) (s : Farm) : Prop where
  rows : ∀ p r, s.clientmap.find p = some r → ∀ c, IssuedTo digest salt c p ↔ c = r.clientid
  sessions : ∀ σ k c x, s.sessionOf σ k c = some (.own x) →
    ∀ c', IssuedTo digest salt c' x.pushId ↔ c' = c
  delivered : ∀ q ∈ s.pushes, ∀ x, q.stage.writtenTo = some x →
    ∀ c, IssuedTo digest salt c q.client.pushid ↔ c = x.clientId

/-- In every state of every run of the servers, with any refreshes, worker exits, delays and stale
    rows: a push is written to no client but the one that the push id it is addressed to was issued
    to, and the client map and the workers keep no push id for any other client. -/
theorem farm_keepsApart (digest : String → String) (hdigest : Function.Injective digest)
    (salt : String) (hsalt : EndsInNonDigit salt) (es : List FarmEvent) :
    AllStates (farmStep digest salt) (KeepsApart digest salt) .create es := by
  intro pre s _ hrun
  have hs : Owned digest salt s :=
    inv_run (fun _ _ _ h _ hstep => h.step hstep) .create (allSteps_true _ _) hrun
  refine ⟨fun p r hfind => ?_, fun σ k c x hget => ?_, fun q hq x hx => ?_⟩
  · obtain ⟨hr, rfl⟩ := Table.find_eq_some.mp hfind
    exact (hs.rows r hr).iff_eq hdigest hsalt
  · exact ((hs.workers σ k).sessions c x hget).2.iff_eq hdigest hsalt
  · rw [hs.delivered q hq x hx]
    exact (hs.pushes q hq).iff_eq hdigest hsalt

/-- The client that listens again after a refresh, with a push to its old push id. -/
theorem farm_keepsApart_listenAfterRefresh : Function.Injective (id : String → String) ∧
    EndsInNonDigit "salt" ∧ ∃ s, run (farmStep id "salt") .create (listenAfterRefresh ++ pushed) = some s ∧
      KeepsApart id "salt" s ∧ ∃ q ∈ s.pushes, ∃ x, q.stage = .delivered x ∧ x.pushId ≠ q.client.pushid ∧
        x.clientId = "clid-0" := by
  have hsalt : EndsInNonDigit "salt" := ⟨'t', by decide, by decide⟩
  refine ⟨Function.injective_id, hsalt, _, rfl, ?_, _, List.mem_singleton_self _, _, rfl, by decide, rfl⟩
  exact farm_keepsApart id Function.injective_id "salt" hsalt (listenAfterRefresh ++ pushed)
    _ _ (List.prefix_refl _) rfl

end Elephant.App
