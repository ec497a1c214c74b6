import Elephant.App.Ownership

/-! Which clients a push reaches.

    A client listens, its worker announces it, and from then on pushes find their way to its session:

        listen ─▶ ADD_CLIENT queued ─▶ handler ─▶ row (p, c, server, worker)
                                                    │
        push to p ─▶ lookedUp ─▶ stored ─▶ handedOver ─▶ session of the listen

    Meanwhile all the others go on: clients listen, refresh and leave, workers exit and are forked,
    messages and handlers come in any order, and pushes remove the rows of workers that are gone. The
    main result says that none of this comes between a client that stays connected and its pushes. -/

namespace Elephant.App
open Elephant.Schemes Elephant.Model Elephant.Listen Elephant.ClientMap Elephant.Api
open Elephant.Push (HttpError)

/-- A push that goes no further. -/
def PushStage.isOver : PushStage → Bool
  | .refused => true
  | .delivered _ => true
  | .failed _ => true
  | .broken _ _ => true
  | .removed => true
  | _ => false

/-- The client has no open listen, and nothing of an earlier one is left. -/
structure Absent (c : ClientId) (s : Farm) : Prop where
  rows : ∀ r ∈ s.clientmap.rows, r.clientid ≠ c
  queued : ∀ σ k, ∀ m ∈ (s.workers σ k).toMaster, msgClientId m ≠ c
  handled : ∀ h ∈ s.handlers, msgClientId h.msg = c → h.phase = .done
  listens : ∀ σ k, s.isAlive σ k = true → ∀ h ∈ (s.workers σ k).closeHandlers, h.2.clientId ≠ c
  pushes : ∀ q ∈ s.pushes, q.client.clientid = c → q.stage.isOver = true

section

variable (x : Session)

/-- The row that leads to the session. -/
def rowOf : Row := MySqlClientMap.row x.pushId x.clientId x.serverId x.workerId

def announcement : WorkerMsg := .addClient x.clientId x.pushId x.serverId x.workerId

/-- The client of the session listens nowhere else, its socket stays open and its worker alive; no
    other server takes the address of its server for its own. -/
def Stays : FarmEvent → Prop
  | .worker _ _ (.listen _ req) => req.clientId ≠ x.clientId
  | .worker σ k (.close _ socket) => ¬ (σ = x.serverId ∧ k = x.workerId ∧ socket = x.stream)
  | .exit σ k _ => ¬ (σ = x.serverId ∧ k = x.workerId)
  | .lookup σ p => p = x.pushId → includesText x.serverId σ = true → σ = x.serverId
  | _ => True

/-- A push on its way to the session: nothing but its socket and the stream that is opened for it can
    keep it from being written. -/
inductive OnItsWay : PushStage → Prop
  | lookedUp : OnItsWay .lookedUp
  | refused : OnItsWay .refused
  | stored : OnItsWay .stored
  | handedOver : OnItsWay (.handedOver x.workerId)
  | sent (outcome : StreamOutcome) : OnItsWay (serverPush x outcome)

structure Bound (q : LocalPush) : Prop where
  serverId : q.serverId = x.serverId
  client : q.client = rowOf x
  stage : OnItsWay x q.stage

/-- The events of messages and pushes. -/
def FarmEvent.isTransport : FarmEvent → Bool
  | .deliver _ _ => true
  | .exec _ => true
  | e => e.isPush

/-- The pushes to the push id of the session, from number `n` on, reach it. -/
structure Reached (digest : String → String) (salt : String) (n : ℕ) (s : Farm) : Prop where
  session : s.sessionOf x.serverId x.workerId x.clientId = some (.own x)
  settled : (∀ m ∈ (s.workers x.serverId x.workerId).toMaster, msgClientId m ≠ x.clientId) →
    (∀ h ∈ s.handlers, msgClientId h.msg = x.clientId → h.phase = .done) →
      s.clientmap.find x.pushId = some (rowOf x)
  bound : ∀ (i : ℕ) (q : LocalPush), n ≤ i → s.pushes[i]? = some q → q.client.pushid = x.pushId →
    Bound x q
  finishable : ∀ (i : ℕ) (q : LocalPush), n ≤ i → s.pushes[i]? = some q → q.client.pushid = x.pushId →
    q.stage.isOver = true ∨ ∃ (ops : List PushOp) (s' : Farm),
      run (farmStep digest salt) s (ops.map (.push i)) = some s' ∧
        s'.pushes[i]? = some { q with stage := .delivered x }
  deliverable : ∃ (es : List FarmEvent) (s' : Farm), (∀ e ∈ es, e.isTransport = true) ∧
    run (farmStep digest salt) s es = some s' ∧
      s'.pushes[s.pushes.length]? = some ⟨x.serverId, rowOf x, .delivered x⟩

end

/-! ### Where the workers are -/

/-- A worker knows where it is, and one that is not forked yet has no listens. -/
structure Placed (s : Farm) : Prop where
  counted : Counted s
  ids : ∀ σ k, (s.workers σ k).serverId = σ ∧ (s.workers σ k).workerId = k
  unforked : ∀ σ k, s.forked σ < k → (s.workers σ k).closeHandlers = []

section

variable {digest : String → String} {salt : String} {s s' : Farm}

theorem Placed.create : Placed .create := ⟨.create, fun _ _ => ⟨rfl, rfl⟩, fun _ _ _ => rfl⟩

theorem Placed.setWorker_ids (hs : Placed s) {σ : ServerId} {k : WorkerId} {w : SpdyServer}
    (hw : w.serverId = σ ∧ w.workerId = k) (σ' : ServerId) (k' : WorkerId) :
    ((s.setWorker σ k w).workers σ' k').serverId = σ' ∧
      ((s.setWorker σ k w).workers σ' k').workerId = k' := by
  rw [workers_setWorker]
  split
  · rename_i hhere
    rw [hhere.1, hhere.2]
    exact hw
  · exact hs.ids σ' k'

theorem Placed.setWorker_unforked (hs : Placed s) {σ : ServerId} {k : WorkerId} {w : SpdyServer}
    (hw : s.forked σ < k → w.closeHandlers = []) (σ' : ServerId) (k' : WorkerId)
    (hk : s.forked σ' < k') : ((s.setWorker σ k w).workers σ' k').closeHandlers = [] := by
  rw [workers_setWorker]
  split
  · rename_i hhere
    rw [hhere.1, hhere.2] at hk
    exact hw hk
  · exact hs.unforked σ' k' hk

theorem step_ids {w w' : SpdyServer} {e : Event} (h : Listen.step w e = some w') :
    w'.serverId = w.serverId ∧ w'.workerId = w.workerId := by
  cases e with
  | listen now req =>
    obtain ⟨-, rfl⟩ := by simpa [Listen.step] using h
    exact w.listen_ids now req
  | close now socket =>
    obtain ⟨-, rfl⟩ := by simpa [Listen.step] using h
    exact w.emitClose_ids now socket

theorem Placed.step {e : FarmEvent} (hs : Placed s) (hstep : farmStep digest salt s e = some s') :
    Placed s' := by
  have hcounted := hs.counted.step hstep
  cases e with
  | refresh c => obtain rfl := Option.some.inj hstep; exact ⟨hcounted, hs.ids, hs.unforked⟩
  | fork σ =>
    obtain rfl := Option.some.inj hstep
    refine ⟨hcounted, hs.ids, fun σ' k hk => hs.unforked σ' k ?_⟩
    by_cases hσ : σ' = σ
    · subst hσ
      simp only [Farm.fork, Function.update_self] at hk
      omega
    · simpa [Farm.fork, hσ] using hk
  | exit σ k kept =>
    obtain rfl := farmStep_exit hstep
    exact ⟨hcounted, hs.setWorker_ids (hs.ids σ k), hs.setWorker_unforked (hs.unforked σ k)⟩
  | worker σ k e =>
    obtain ⟨w, halive, hw, rfl⟩ := farmStep_worker hstep
    have hle := (hs.counted.keys σ _ k (isAlive_iff.mp halive)).2
    have hids := step_ids hw
    refine ⟨hcounted, hs.setWorker_ids ?_, hs.setWorker_unforked fun hk => absurd hk (not_lt.mpr hle)⟩
    rw [hids.1, hids.2]
    exact hs.ids σ k
  | deliver σ k =>
    obtain ⟨m, rest, -, rfl⟩ := farmStep_deliver hstep
    exact ⟨hcounted, hs.setWorker_ids (hs.ids σ k), hs.setWorker_unforked (hs.unforked σ k)⟩
  | exec n =>
    obtain ⟨_, _, _, _, _, rfl⟩ := farmStep_exec hstep
    exact ⟨hcounted, hs.ids, hs.unforked⟩
  | lookup σ p =>
    obtain ⟨_, _, _, rfl⟩ := farmStep_lookup hstep
    exact ⟨hcounted, hs.ids, hs.unforked⟩
  | push n op =>
    obtain ⟨_, _, _, _, _, rfl⟩ := farmStep_push hstep
    exact ⟨hcounted, hs.ids, hs.unforked⟩

end

/-! ### A session that is held -/

section

variable (x : Session)

/-- The messages of the client of `x` in the channel of a worker. -/
def messagesOf (s : Farm) (σ : ServerId) (k : WorkerId) : List WorkerMsg :=
  (s.workers σ k).toMaster.filter fun m => msgClientId m = x.clientId

/-- Handler number `i` is one of the client of `x`, and not done. -/
def Handles (s : Farm) (i : ℕ) (h : Handler) : Prop :=
  s.handlers[i]? = some h ∧ msgClientId h.msg = x.clientId ∧ h.phase ≠ .done

/-- The announcement of the session is on its way to the master. -/
structure Queued (s : Farm) : Prop where
  queue : ∀ σ k, messagesOf x s σ k =
    if σ = x.serverId ∧ k = x.workerId then [announcement x] else []
  handlers : ∀ i h, ¬ Handles x s i h
  rows : ∀ r ∈ s.clientmap.rows, r.clientid ≠ x.clientId

/-- Handler number `i` works on it. -/
structure InHandler (i : ℕ) (phase : Phase) (s : Farm) : Prop where
  queue : ∀ σ k, messagesOf x s σ k = []
  handler : s.handlers[i]? = some ⟨announcement x, phase⟩
  handlers : ∀ j h, Handles x s j h → j = i
  rows : ∀ r ∈ s.clientmap.rows, r.clientid ≠ x.clientId

structure Mapped (s : Farm) : Prop where
  queue : ∀ σ k, messagesOf x s σ k = []
  handlers : ∀ i h, ¬ Handles x s i h
  row : s.clientmap.find x.pushId = some (rowOf x)

/-- How far the announcement is; there is nothing else of the client. -/
inductive Announced (s : Farm) : Prop
  | queued (h : Queued x s)
  | started {i : ℕ} (h : InHandler x i .start s)
  | found {i : ℕ} (h : InHandler x i (.found false) s)
  | mapped (h : Mapped x s)

/-- The session is in place, with the only open listen of its client; pushes from number `n` on are
    bound for it, and those before are over. -/
structure Held (n : ℕ) (s : Farm) : Prop where
  alive : s.isAlive x.serverId x.workerId = true
  session : s.sessionOf x.serverId x.workerId x.clientId = some (.own x)
  listens : ∀ σ k, s.isAlive σ k = true → ∀ h ∈ (s.workers σ k).closeHandlers,
    h.2.clientId = x.clientId → σ = x.serverId ∧ k = x.workerId ∧ h.1 = x.stream
  announced : Announced x s
  since : n ≤ s.pushes.length
  pushes : ∀ (i : ℕ) (q : LocalPush), s.pushes[i]? = some q → q.client.clientid = x.clientId →
    i < n ∧ q.stage.isOver = true ∨ n ≤ i ∧ Bound x q

/-! ### What the others leave alone -/

/-- Nothing happens to the client at the workers. -/
structure WorkersApart (s s' : Farm) : Prop where
  alive : s.isAlive x.serverId x.workerId = true → s'.isAlive x.serverId x.workerId = true
  session : s'.sessionOf x.serverId x.workerId x.clientId = s.sessionOf x.serverId x.workerId x.clientId
  listens : ∀ σ k, s'.isAlive σ k = true → ∀ h ∈ (s'.workers σ k).closeHandlers,
    h.2.clientId = x.clientId → s.isAlive σ k = true ∧ h ∈ (s.workers σ k).closeHandlers
  queued : ∀ σ k, messagesOf x s' σ k = messagesOf x s σ k

/-- Nothing happens to its handlers and its row. -/
structure MastersApart (s s' : Farm) : Prop where
  handled : ∀ i h, Handles x s' i h ↔ Handles x s i h
  rows : ∀ r, r.clientid = x.clientId → (r ∈ s'.clientmap.rows ↔ r ∈ s.clientmap.rows)

/-- Nothing happens to its pushes. -/
structure PushesApart (s s' : Farm) : Prop where
  since : s.pushes.length ≤ s'.pushes.length
  pushes : ∀ (i : ℕ) (q : LocalPush), q.client.clientid = x.clientId →
    (s'.pushes[i]? = some q ↔ s.pushes[i]? = some q)

end

section

variable {digest : String → String} {salt : String} {s s' : Farm} {x : Session} {n : ℕ}

theorem WorkersApart.of_eq (hworkers : s'.workers = s.workers)
    (hcluster : s'.clusterWorkers = s.clusterWorkers) : WorkersApart x s s' where
  alive h := by rw [Farm.isAlive, hcluster]; exact h
  session := by rw [Farm.sessionOf, Farm.sessionOf, hworkers]
  listens σ k halive h hh _ := by
    rw [Farm.isAlive, hcluster] at halive
    exact ⟨halive, hworkers ▸ hh⟩
  queued σ k := by rw [messagesOf, messagesOf, hworkers]

theorem MastersApart.of_eq (hhandlers : s'.handlers = s.handlers)
    (hmap : s'.clientmap = s.clientmap) : MastersApart x s s' where
  handled i h := by rw [Handles, Handles, hhandlers]
  rows r _ := by rw [hmap]

theorem PushesApart.of_eq (hpushes : s'.pushes = s.pushes) : PushesApart x s s' where
  since := by rw [hpushes]
  pushes i q _ := by rw [hpushes]

theorem InHandler.apart {i : ℕ} {phase : Phase} (hs : InHandler x i phase s) (hphase : phase ≠ .done)
    (hw : WorkersApart x s s') (hm : MastersApart x s s') : InHandler x i phase s' where
  queue σ k := (hw.queued σ k).trans (hs.queue σ k)
  handler := ((hm.handled i _).mpr ⟨hs.handler, rfl, hphase⟩).1
  handlers j h hh := hs.handlers j h ((hm.handled j h).mp hh)
  rows r hr hc := hs.rows r ((hm.rows r hc).mp hr) hc

theorem Announced.apart (hs : Announced x s) (hw : WorkersApart x s s') (hm : MastersApart x s s') :
    Announced x s' := by
  cases hs with
  | queued hs =>
    exact .queued ⟨fun σ k => (hw.queued σ k).trans (hs.queue σ k),
      fun i h hh => hs.handlers i h ((hm.handled i h).mp hh),
      fun r hr hc => hs.rows r ((hm.rows r hc).mp hr) hc⟩
  | started hs => exact .started (hs.apart (by simp) hw hm)
  | found hs => exact .found (hs.apart (by simp) hw hm)
  | mapped hs =>
    obtain ⟨hmem, hkey⟩ := Table.find_eq_some.mp hs.row
    exact .mapped ⟨fun σ k => (hw.queued σ k).trans (hs.queue σ k),
      fun i h hh => hs.handlers i h ((hm.handled i h).mp hh),
      Table.find_eq_some.mpr ⟨(hm.rows (rowOf x) rfl).mpr hmem, hkey⟩⟩

theorem Held.apart (hs : Held x n s) (hw : WorkersApart x s s') (hm : MastersApart x s s')
    (hp : PushesApart x s s') : Held x n s' where
  alive := hw.alive hs.alive
  session := hw.session.trans hs.session
  listens σ k halive h hh hc := by
    obtain ⟨halive', hh'⟩ := hw.listens σ k halive h hh hc
    exact hs.listens σ k halive' h hh' hc
  announced := hs.announced.apart hw hm
  since := hs.since.trans hp.since
  pushes i q hq hc := hs.pushes i q ((hp.pushes i q hc).mp hq) hc

/-! ### The workers of the others -/

theorem messagesOf_setWorker (s : Farm) (σ σ' : ServerId) (k k' : WorkerId) (w : SpdyServer) :
    messagesOf x (s.setWorker σ k w) σ' k' = if σ' = σ ∧ k' = k then
      w.toMaster.filter fun m => msgClientId m = x.clientId else messagesOf x s σ' k' := by
  rw [messagesOf, workers_setWorker]
  split
  · rfl
  · rfl

theorem closeHandlers_setWorker_queue (s : Farm) (σ σ' : ServerId) (k k' : WorkerId)
    (queue : List WorkerMsg) :
    ((s.setWorker σ k { s.workers σ k with toMaster := queue }).workers σ' k').closeHandlers
      = (s.workers σ' k').closeHandlers := by
  rw [workers_setWorker]
  split
  · rename_i hhere
    rw [hhere.1, hhere.2]
  · rfl

/-- Messages of the client are in the channel of its own worker only. -/
theorem Announced.messagesOf_ne (h : Announced x s) {σ : ServerId} {k : WorkerId}
    (hne : ¬ (σ = x.serverId ∧ k = x.workerId)) : messagesOf x s σ k = [] := by
  cases h with
  | queued h => rw [h.queue, if_neg hne]
  | started h => exact h.queue σ k
  | found h => exact h.queue σ k
  | mapped h => exact h.queue σ k

theorem workersApart_fork (hs : Placed s) (σ : ServerId) : WorkersApart x s (s.fork σ) where
  alive h := by
    rw [isAlive_iff, read_fork]
    rw [isAlive_iff] at h
    split
    · rename_i hnew
      obtain ⟨-, hle⟩ := hs.counted.keys _ _ _ h
      obtain ⟨rfl, hkey⟩ := hnew
      have hnext : x.workerId = s.forked x.serverId + 1 := toString_inj (congrArg String.toList hkey)
      rw [hnext] at hle
      exact absurd hle (Nat.not_succ_le_self _)
    · exact h
  session := rfl
  listens σ' k halive h hh hc := by
    rw [isAlive_iff, read_fork] at halive
    split at halive
    · rename_i hnew
      obtain rfl : s.forked σ + 1 = k := by simpa using halive
      have hnone := hs.unforked σ (s.forked σ + 1) (Nat.lt_succ_self _)
      obtain ⟨rfl, -⟩ := hnew
      rw [show (s.fork σ').workers = s.workers from rfl, hnone] at hh
      exact absurd hh List.not_mem_nil
    · exact ⟨isAlive_iff.mpr halive, hh⟩
  queued _ _ := rfl

theorem workersApart_exit (hs : Announced x s) {σ : ServerId} {k : WorkerId}
    (hne : ¬ (σ = x.serverId ∧ k = x.workerId)) (kept : ℕ) : WorkersApart x s (s.exit σ k kept) where
  alive h := by
    rw [isAlive_iff] at h ⊢
    rw [read_exit, if_neg]
    · exact h
    · rintro ⟨hσ, hkey⟩
      exact hne ⟨hσ.symm, (toString_inj (congrArg String.toList hkey)).symm⟩
  session := sessionOf_setWorker_queue s σ _ k _ _ _
  listens σ' k' halive h hh hc := by
    rw [isAlive_iff, read_exit] at halive
    split at halive
    · simp at halive
    · exact ⟨isAlive_iff.mpr halive, closeHandlers_setWorker_queue s σ σ' k k' _ ▸ hh⟩
  queued σ' k' := by
    refine (messagesOf_setWorker s σ σ' k k' _).trans ?_
    split
    · rename_i hhere
      obtain ⟨rfl, rfl⟩ := hhere
      rw [hs.messagesOf_ne hne, List.filter_eq_nil_iff]
      intro m hm
      exact List.filter_eq_nil_iff.mp (hs.messagesOf_ne hne) m (List.mem_of_mem_take hm)
    · rfl

/-- A worker does nothing to the client when no session, listener or message of it changes. -/
theorem workersApart_setWorker {σ : ServerId} {k : WorkerId} {w : SpdyServer}
    (hsession : w.sessionManager.getSession x.clientId
      = (s.workers σ k).sessionManager.getSession x.clientId)
    (hlistens : ∀ h ∈ w.closeHandlers, h.2.clientId = x.clientId → h ∈ (s.workers σ k).closeHandlers)
    (hqueued : w.toMaster.filter (fun m => msgClientId m = x.clientId) = messagesOf x s σ k) :
    WorkersApart x s (s.setWorker σ k w) where
  alive h := h
  session := by
    rw [sessionOf_setWorker]
    split
    · rename_i hhere
      rw [hsession, Farm.sessionOf, hhere.1, hhere.2]
    · rfl
  listens σ' k' halive h hh hc := by
    rw [workers_setWorker] at hh
    split at hh
    · rename_i hhere
      obtain ⟨rfl, rfl⟩ := hhere
      exact ⟨halive, hlistens h hh hc⟩
    · exact ⟨halive, hh⟩
  queued σ' k' := by
    rw [messagesOf_setWorker]
    split
    · rename_i hhere
      rw [hqueued, hhere.1, hhere.2]
    · rfl

theorem workersApart_worker (hs : Held x n s) {σ : ServerId} {k : WorkerId} {e : Event}
    {w : SpdyServer} (halive : s.isAlive σ k = true) (hstays : Stays x (.worker σ k e))
    (hw : Listen.step (s.workers σ k) e = some w) : WorkersApart x s (s.setWorker σ k w) := by
  cases e with
  | listen now req =>
    obtain ⟨-, rfl⟩ := by simpa [Listen.step] using hw
    have hne : req.clientId ≠ x.clientId := hstays
    refine workersApart_setWorker (SpdyServer.getSession_listen_ne _ _ _ hne.symm) ?_ ?_
    · intro h hh hc
      rw [SpdyServer.listen_closeHandlers] at hh
      rcases List.mem_append.mp hh with hold | hnew
      · exact hold
      · obtain rfl := List.mem_singleton.mp hnew
        exact absurd hc hne
    · rw [SpdyServer.listen_toMaster, List.filter_append, messagesOf]
      simp [msgClientId, hne]
  | close now socket =>
    obtain ⟨-, rfl⟩ := by simpa [Listen.step] using hw
    -- the listeners on the socket are of other clients
    have hothers : ∀ y ∈ (s.workers σ k).listenersOn socket, x.clientId ≠ y.clientId := by
      intro y hy hc
      have hlistens := hs.listens σ k halive _ ((SpdyServer.mem_listenersOn _ _).mp hy) hc.symm
      exact hstays hlistens
    refine workersApart_setWorker (SpdyServer.getSession_foldl_onClose_ne now _ _ hothers) ?_ ?_
    · intro h hh _
      exact List.mem_of_mem_filter hh
    · rw [SpdyServer.emitClose_toMaster, List.filter_append, messagesOf]
      have hnone : (((s.workers σ k).listenersOn socket).map fun y =>
          WorkerMsg.delClient y.clientId y.pushId).filter (fun m => msgClientId m = x.clientId)
          = [] := by
        rw [List.filter_eq_nil_iff]
        intro m hm
        obtain ⟨y, hy, rfl⟩ := List.mem_map.mp hm
        exact fun hc => hothers y hy (of_decide_eq_true hc).symm
      rw [hnone, List.append_nil]

/-! ### The masters of the others -/

/-- Push ids of different clients differ. -/
theorem IssuedTo.ne (hdigest : Function.Injective digest) (hsalt : EndsInNonDigit salt)
    {c c' : ClientId} {p p' : PushId} (h : IssuedTo digest salt c p) (h' : IssuedTo digest salt c' p')
    (hne : c ≠ c') : p ≠ p' := by
  rintro rfl
  exact hne ((h'.iff_eq hdigest hsalt c).mp h)

/-- A handler of another client leaves the rows of this one alone. -/
theorem rows_runOp_ne {t : ClientTable} {m : WorkerMsg} {phase : Phase}
    {out : ClientTable × Phase × Bool} (hop : runOp t m phase = some out) {r : Row}
    (hc : msgClientId m ≠ r.clientid) (hp : msgPushId m ≠ r.pushid) :
    r ∈ out.1.rows ↔ r ∈ t.rows := by
  unfold runOp at hop
  split at hop
  · obtain rfl := Option.some.inj hop
    exact Iff.rfl
  · split at hop <;> obtain rfl := Option.some.inj hop
    · rename_i hinsert
      rw [(Table.insert_eq_some hinsert).1, List.mem_append, List.mem_singleton]
      refine or_iff_left ?_
      rintro rfl
      exact hc rfl
    · exact Iff.rfl
  · split at hop <;> obtain rfl := Option.some.inj hop
    · rename_i hupdate
      rw [Table.update_eq_some hupdate, Table.mem_replaced]
      constructor
      · rintro (⟨hr, -⟩ | ⟨rfl, -⟩)
        · exact hr
        · exact absurd rfl hc
      · exact fun hr => .inl ⟨hr, fun hkey => hp hkey.symm⟩
    · exact Iff.rfl
  · obtain rfl := Option.some.inj hop
    exact List.mem_filter.trans (and_iff_left (by simpa [msgPushId] using Ne.symm hp))
  · simp at hop

theorem mastersApart_deliver {m : WorkerMsg} (hm : msgClientId m ≠ x.clientId)
    (hhandlers : s'.handlers = s.handlers ++ [⟨m, .start⟩]) (hmap : s'.clientmap = s.clientmap) :
    MastersApart x s s' where
  handled i h := by
    unfold Handles
    rw [hhandlers]
    refine and_congr_left fun hh => getElem?_concat_ne ?_
    rintro rfl
    exact hm hh.1
  rows r _ := by rw [hmap]

theorem mastersApart_exec (hdigest : Function.Injective digest) (hsalt : EndsInNonDigit salt)
    (hs : Owned digest salt s) {i : ℕ} {m : WorkerMsg} {phase : Phase}
    {out : ClientTable × Phase × Bool} (hi : s.handlers[i]? = some ⟨m, phase⟩)
    (hop : runOp s.clientmap m phase = some out) (hm : msgClientId m ≠ x.clientId) :
    MastersApart x s { s with clientmap := out.1, handlers := s.handlers.set i ⟨m, out.2.1⟩ } where
  handled j h := by
    refine and_congr_left fun hh => getElem?_set_other hi ?_ ?_
    · rintro rfl
      exact hm hh.1
    · rintro rfl
      exact hm hh.1
  rows r hc := by
    by_cases hr : r ∈ s.clientmap.rows ∨ r ∈ out.1.rows
    · have howner : IssuedTo digest salt r.clientid r.pushid := by
        have hmsg := hs.handled _ (List.mem_of_getElem? hi)
        rcases hr with hr | hr
        · exact hs.rows r hr
        · exact rows_runOp hop hmsg hs.rows r hr
      have hmsg : IssuedTo digest salt (msgClientId m) (msgPushId m) :=
        hs.handled _ (List.mem_of_getElem? hi)
      exact rows_runOp_ne hop (hc ▸ hm) (hmsg.ne hdigest hsalt howner (hc ▸ hm))
    · rw [not_or] at hr
      exact iff_of_false hr.2 hr.1

theorem pushesApart_lookup {σ : ServerId} {client : Row} (hc : client.clientid ≠ x.clientId) :
    PushesApart x s (s.entered σ client) where
  since := by simp [Farm.entered]
  pushes i q hq := by
    refine getElem?_concat_ne ?_
    rintro rfl
    exact hc hq

/-- A push of another client takes away no row but one of its own. -/
theorem mastersApart_push (hdigest : Function.Injective digest) (hsalt : EndsInNonDigit salt)
    (hs : Owned digest salt s) {i : ℕ} {q : LocalPush} {t : ClientTable} {stage : PushStage}
    (hq : s.pushes[i]? = some q) (hadvance : Advance s q op q.stage t stage)
    (hc : q.client.clientid ≠ x.clientId) : MastersApart x s (s.setStage i q t stage) where
  handled _ _ := Iff.rfl
  rows r hr := by
    generalize q.stage = before at hadvance
    cases hadvance with
    | removed =>
      refine List.mem_filter.trans ⟨And.left, fun hmem => ⟨hmem, ?_⟩⟩
      have howner := hs.rows r hmem
      have hpush := hs.pushes q (List.mem_of_getElem? hq)
      simpa using howner.ne hdigest hsalt hpush (hr ▸ hc.symm)
    | _ => exact Iff.rfl

theorem pushesApart_push {i : ℕ} {q : LocalPush} (hq : s.pushes[i]? = some q)
    (hc : q.client.clientid ≠ x.clientId) (t : ClientTable) (stage : PushStage) :
    PushesApart x s (s.setStage i q t stage) where
  since := by simp [Farm.setStage]
  pushes j q' hq' := by
    refine getElem?_set_other hq ?_ ?_
    · rintro rfl
      exact hc hq'
    · rintro rfl
      exact hc hq'

/-! ### The client's own announcement -/

theorem Queued.deliver (hs : Queued x s) {m : WorkerMsg} {rest : List WorkerMsg} {σ : ServerId}
    {k : WorkerId} (hqueue : (s.workers σ k).toMaster = m :: rest) (hm : msgClientId m = x.clientId) :
    InHandler x s.handlers.length .start
      { s.setWorker σ k { s.workers σ k with toMaster := rest } with
        handlers := s.handlers ++ [⟨m, .start⟩] } := by
  have hmessages := hs.queue σ k
  rw [messagesOf, hqueue, List.filter_cons_of_pos (by simpa using hm)] at hmessages
  have hhere : σ = x.serverId ∧ k = x.workerId := by
    by_contra hne
    rw [if_neg hne] at hmessages
    exact absurd hmessages (by simp)
  rw [if_pos hhere] at hmessages
  obtain ⟨rfl, hrest⟩ := List.cons.inj hmessages
  refine ⟨fun σ' k' => ?_, List.getElem?_concat_length, fun j h hh => ?_, hs.rows⟩
  · refine (messagesOf_setWorker s σ σ' k k' _).trans ?_
    split
    · exact hrest
    · rename_i hother
      rw [hs.queue, if_neg fun hsame => hother ⟨hsame.1.trans hhere.1.symm, hsame.2.trans hhere.2.symm⟩]
  · rcases getElem?_concat_some hh.1 with hold | ⟨hj, -⟩
    · exact absurd ⟨hold, hh.2⟩ (hs.handlers j h)
    · exact hj

/-- The handler has run one operation. -/
theorem InHandler.handles_set {i : ℕ} {phase phase' : Phase} (hs : InHandler x i phase s) {j : ℕ}
    {h : Handler} {t : ClientTable} (hh : Handles x
      { s with clientmap := t, handlers := s.handlers.set i ⟨announcement x, phase'⟩ } j h) :
    j = i ∧ h.phase = phase' := by
  rcases getElem?_set_some.mp hh.1 with ⟨rfl, -, rfl⟩ | ⟨hne, hold⟩
  · exact ⟨rfl, rfl⟩
  · exact absurd (hs.handlers j h ⟨hold, hh.2⟩).symm hne

section

variable (hdigest : Function.Injective digest) (hsalt : EndsInNonDigit salt)
include hdigest hsalt

/-- Without a row of the client there is none under its push id. -/
theorem InHandler.find_eq_none {i : ℕ} {phase : Phase} (hs : InHandler x i phase s)
    (howned : Owned digest salt s) : s.clientmap.find x.pushId = none := by
  have howner : IssuedTo digest salt x.clientId x.pushId :=
    howned.handled _ (List.mem_of_getElem? hs.handler)
  refine Table.find_eq_none.mpr fun r hr hp => hs.rows r hr ?_
  exact (howner.iff_eq hdigest hsalt _).mp (hp ▸ howned.rows r hr)

theorem InHandler.exec_start {i : ℕ} (hs : InHandler x i .start s) (howned : Owned digest salt s) :
    ∃ s', farmStep digest salt s (.exec i) = some s' ∧ InHandler x i (.found false) s' ∧
      s'.pushes = s.pushes := by
  have hnone := hs.find_eq_none hdigest hsalt howned
  have hop : runOp s.clientmap (announcement x) .start = some (s.clientmap, .found false, false) := by
    simp [announcement, runOp, MySqlClientMap.getClient, hnone]
  refine ⟨{ s with handlers := s.handlers.set i ⟨announcement x, .found false⟩ }, ?_, ?_, rfl⟩
  · simp [farmStep, hs.handler, hop]
  · obtain ⟨hi, -⟩ := List.getElem?_eq_some_iff.mp hs.handler
    exact ⟨hs.queue, List.getElem?_set_self hi, fun j h hh => (hs.handles_set (t := s.clientmap) hh).1,
      hs.rows⟩

theorem InHandler.exec_found {i : ℕ} (hs : InHandler x i (.found false) s)
    (howned : Owned digest salt s) :
    ∃ s', farmStep digest salt s (.exec i) = some s' ∧ Mapped x s' ∧ s'.pushes = s.pushes := by
  have hnone := hs.find_eq_none hdigest hsalt howned
  obtain ⟨t, ht, hrow, -⟩ := MySqlClientMap.insert_absent x.serverId x.workerId
    (fun r hr hc => absurd hc (hs.rows r hr)) hnone
  have hop : runOp s.clientmap (announcement x) (.found false) = some (t, .done, false) := by
    simp [announcement, runOp, ht]
  refine ⟨{ s with clientmap := t, handlers := s.handlers.set i ⟨announcement x, .done⟩ }, ?_, ?_, rfl⟩
  · simp [farmStep, hs.handler, hop]
  · exact ⟨hs.queue, fun j h hh => hh.2.2 (hs.handles_set hh).2, hrow⟩

/-- An operation of one of the client's handlers is the next one of its announcement. -/
theorem Announced.exec {i : ℕ} {h : Handler} {out : ClientTable × Phase × Bool} (hs : Announced x s)
    (howned : Owned digest salt s) (hi : s.handlers[i]? = some h) (hc : msgClientId h.msg = x.clientId)
    (hop : runOp s.clientmap h.msg h.phase = some out)
    (hstep : farmStep digest salt s (.exec i) = some s') : Announced x s' := by
  have hhandles : Handles x s i h := by
    refine ⟨hi, hc, fun hdone => ?_⟩
    rw [hdone] at hop
    cases hmsg : h.msg <;> simp [hmsg, runOp] at hop
  cases hs with
  | queued hs => exact absurd hhandles (hs.handlers i h)
  | started hs =>
    obtain rfl := hs.handlers i h hhandles
    obtain ⟨t, ht, hnext, -⟩ := hs.exec_start hdigest hsalt howned
    obtain rfl := Option.some.inj (ht.symm.trans hstep)
    exact .found hnext
  | found hs =>
    obtain rfl := hs.handlers i h hhandles
    obtain ⟨t, ht, hnext, -⟩ := hs.exec_found hdigest hsalt howned
    obtain rfl := Option.some.inj (ht.symm.trans hstep)
    exact .mapped hnext
  | mapped hs => exact absurd hhandles (hs.handlers i h)

end

theorem Announced.deliver {m : WorkerMsg} {rest : List WorkerMsg} {σ : ServerId} {k : WorkerId}
    (hs : Announced x s) (hqueue : (s.workers σ k).toMaster = m :: rest)
    (hm : msgClientId m = x.clientId) :
    Announced x { s.setWorker σ k { s.workers σ k with toMaster := rest } with
      handlers := s.handlers ++ [⟨m, .start⟩] } := by
  have hmessages : messagesOf x s σ k ≠ [] := by
    rw [messagesOf, hqueue, List.filter_cons_of_pos (by simpa using hm)]
    simp
  cases hs with
  | queued hs => exact .started (hs.deliver hqueue hm)
  | started hs => exact absurd (hs.queue σ k) hmessages
  | found hs => exact absurd (hs.queue σ k) hmessages
  | mapped hs => exact absurd (hs.queue σ k) hmessages

/-- A row of the client is the one of its session. -/
theorem Announced.row_eq (hs : Announced x s) {r : Row} (hr : r ∈ s.clientmap.rows)
    (hc : r.clientid = x.clientId) : r = rowOf x := by
  cases hs with
  | queued hs => exact absurd hc (hs.rows r hr)
  | started hs => exact absurd hc (hs.rows r hr)
  | found hs => exact absurd hc (hs.rows r hr)
  | mapped hs =>
    exact List.inj_on_of_nodup_map s.clientmap.uniqNodup hr (Table.find_eq_some.mp hs.row).1 hc

/-! ### The pushes to the client -/

theorem pushToClient_of_session {w : SpdyServer} {c : ClientId}
    (hsession : w.sessionManager.getSession c = some (.own x)) (hspdy : x.isSpdy = true)
    (outcome : StreamOutcome) : pushToClient w c outcome = some (serverPush x outcome) := by
  simp [pushToClient, hsession, hspdy]

/-- A turn of a push that is bound for the session keeps it so, and leaves the rows alone. -/
theorem Bound.advance (halive : s.isAlive x.serverId x.workerId = true)
    (hsession : s.sessionOf x.serverId x.workerId x.clientId = some (.own x)) (hspdy : x.isSpdy = true)
    {q : LocalPush} (hq : Bound x q) {op : PushOp} {t : ClientTable} {stage : PushStage}
    (h : s.pushOp q op q.stage = some (t, stage)) : t = s.clientmap ∧ OnItsWay x stage := by
  obtain ⟨σ, client, before⟩ := q
  obtain ⟨rfl, rfl, hstage⟩ := hq
  have hread : (s.clusterWorkers x.serverId).read (rowOf x).workerid = some (.own x.workerId) :=
    isAlive_iff.mp halive
  have hpush := pushToClient_of_session (c := (rowOf x).clientid) hsession hspdy
  cases hstage with
  | lookedUp =>
    cases op with
    | store =>
      obtain ⟨rfl, rfl⟩ := by simpa [Farm.pushOp] using h
      exact ⟨rfl, .stored⟩
    | refuse =>
      obtain ⟨rfl, rfl⟩ := by simpa [Farm.pushOp] using h
      exact ⟨rfl, .refused⟩
    | _ => simp [Farm.pushOp] at h
  | stored =>
    cases op with
    | send =>
      obtain ⟨rfl, rfl⟩ := by simpa [Farm.pushOp, hread] using h
      exact ⟨rfl, .handedOver⟩
    | _ => simp [Farm.pushOp] at h
  | handedOver =>
    cases op with
    | receive outcome =>
      simp only [Farm.pushOp, halive, if_true, hpush] at h
      obtain ⟨rfl, rfl⟩ := by simpa using h
      exact ⟨rfl, .sent outcome⟩
    | _ => simp [Farm.pushOp] at h
  | refused => cases op <;> simp [Farm.pushOp] at h
  | sent outcome => cases outcome <;> cases op <;> simp [Farm.pushOp] at h

theorem pushOp_of_isOver {q : LocalPush} {op : PushOp} {stage : PushStage} (h : stage.isOver = true) :
    s.pushOp q op stage = none := by
  cases stage <;> cases op <;> simp_all [PushStage.isOver, Farm.pushOp]

theorem Held.entered (hs : Held x n s) : Held x n (s.entered x.serverId (rowOf x)) where
  alive := hs.alive
  session := hs.session
  listens := hs.listens
  announced := hs.announced.apart (.of_eq rfl rfl) (.of_eq rfl rfl)
  since := hs.since.trans (by simp [Farm.entered])
  pushes i q hq hc := by
    rcases getElem?_concat_some hq with hold | ⟨rfl, rfl⟩
    · exact hs.pushes i q hold hc
    · exact .inr ⟨hs.since, rfl, rfl, .lookedUp⟩

theorem Held.setStage (hs : Held x n s) {i : ℕ} {q : LocalPush} (hi : n ≤ i) (hbound : Bound x q)
    {stage : PushStage} (hstage : OnItsWay x stage) :
    Held x n (s.setStage i q s.clientmap stage) where
  alive := hs.alive
  session := hs.session
  listens := hs.listens
  announced := hs.announced.apart (.of_eq rfl rfl) (.of_eq rfl rfl)
  since := hs.since.trans (by simp [Farm.setStage])
  pushes j q' hq' hc := by
    rcases getElem?_set_some.mp hq' with ⟨rfl, -, rfl⟩ | ⟨-, hold⟩
    · exact .inr ⟨hi, hbound.serverId, hbound.client, hstage⟩
    · exact hs.pushes j q' hold hc

/-! ### One event -/

/-- What every farm keeps. -/
structure Kept (digest : String → String) (salt : String) (s : Farm) : Prop where
  owned : Owned digest salt s
  placed : Placed s

theorem Kept.step {e : FarmEvent} (hs : Kept digest salt s)
    (hstep : farmStep digest salt s e = some s') : Kept digest salt s' :=
  ⟨hs.owned.step hstep, hs.placed.step hstep⟩

theorem Held.deliver (hs : Held x n s) {σ : ServerId} {k : WorkerId} {m : WorkerMsg}
    {rest : List WorkerMsg} (hqueue : (s.workers σ k).toMaster = m :: rest) :
    Held x n { s.setWorker σ k { s.workers σ k with toMaster := rest } with
      handlers := s.handlers ++ [⟨m, .start⟩] } where
  alive := hs.alive
  session := (sessionOf_setWorker_queue s σ _ k _ rest _).trans hs.session
  listens σ' k' halive h hh :=
    hs.listens σ' k' halive h (closeHandlers_setWorker_queue s σ σ' k k' rest ▸ hh)
  announced := by
    by_cases hm : msgClientId m = x.clientId
    · exact hs.announced.deliver hqueue hm
    · have hw : WorkersApart x s (s.setWorker σ k { s.workers σ k with toMaster := rest }) := by
        refine workersApart_setWorker rfl (fun h hh _ => hh) ?_
        rw [messagesOf, hqueue, List.filter_cons_of_neg (by simpa using hm)]
      exact hs.announced.apart ⟨hw.alive, hw.session, hw.listens, hw.queued⟩
        (mastersApart_deliver hm rfl rfl)
  since := hs.since
  pushes := hs.pushes

section

variable (hdigest : Function.Injective digest) (hsalt : EndsInNonDigit salt) (hspdy : x.isSpdy = true)
include hdigest hsalt hspdy

theorem Held.push (hs : Held x n s) (howned : Owned digest salt s) {i : ℕ} {op : PushOp}
    (hstep : farmStep digest salt s (.push i op) = some s') : Held x n s' := by
  simp only [farmStep, Option.bind_eq_some_iff, Option.map_eq_some_iff] at hstep
  obtain ⟨q, hq, ⟨t, stage⟩, hop, rfl⟩ := hstep
  by_cases hc : q.client.clientid = x.clientId
  · rcases hs.pushes i q hq hc with ⟨-, hover⟩ | ⟨hi, hbound⟩
    · rw [pushOp_of_isOver hover] at hop
      exact absurd hop (by simp)
    · obtain ⟨rfl, hstage⟩ := hbound.advance hs.alive hs.session hspdy hop
      exact hs.setStage hi hbound hstage
  · have hm := mastersApart_push hdigest hsalt howned hq (advance_of_pushOp hop) hc
    exact hs.apart (.of_eq rfl rfl) hm (pushesApart_push hq hc t stage)

theorem Held.step {e : FarmEvent} (hs : Held x n s) (hkept : Kept digest salt s) (hstays : Stays x e)
    (hstep : farmStep digest salt s e = some s') : Held x n s' := by
  cases e with
  | refresh c =>
    obtain rfl := Option.some.inj hstep
    exact hs.apart (.of_eq rfl rfl) (.of_eq rfl rfl) (.of_eq rfl)
  | fork σ =>
    obtain rfl := Option.some.inj hstep
    exact hs.apart (workersApart_fork hkept.placed σ) (.of_eq rfl rfl) (.of_eq rfl)
  | exit σ k kept =>
    obtain rfl := farmStep_exit hstep
    exact hs.apart (workersApart_exit hs.announced hstays kept) (.of_eq rfl rfl) (.of_eq rfl)
  | worker σ k e =>
    obtain ⟨w, halive, hw, rfl⟩ := farmStep_worker hstep
    exact hs.apart (workersApart_worker hs halive hstays hw) (.of_eq rfl rfl) (.of_eq rfl)
  | deliver σ k =>
    obtain ⟨m, rest, hqueue, rfl⟩ := farmStep_deliver hstep
    exact hs.deliver hqueue
  | exec i =>
    obtain ⟨m, phase, out, hi, hop, rfl⟩ := farmStep_exec hstep
    by_cases hc : msgClientId m = x.clientId
    · exact ⟨hs.alive, hs.session, hs.listens,
        hs.announced.exec hdigest hsalt hkept.owned hi hc hop hstep, hs.since, hs.pushes⟩
    · have hm := mastersApart_exec hdigest hsalt hkept.owned hi hop hc
      exact hs.apart (.of_eq rfl rfl) hm (.of_eq rfl)
  | lookup σ p =>
    obtain ⟨client, hfind, hlocal, rfl⟩ := farmStep_lookup hstep
    obtain ⟨hmem, hkey⟩ := Table.find_eq_some.mp hfind
    by_cases hc : client.clientid = x.clientId
    · obtain rfl := hs.announced.row_eq hmem hc
      obtain rfl : σ = x.serverId := hstays hkey.symm hlocal
      exact hs.entered
    · exact hs.apart (.of_eq rfl rfl) (.of_eq rfl rfl) (pushesApart_lookup hc)
  | push i op => exact hs.push hdigest hsalt hspdy hkept.owned hstep

/-! ### What can still be done -/

variable (digest salt x n) in
/-- The announcement can be brought to its end, without a push being touched by it. -/
def Settles (s : Farm) : Prop :=
  ∃ (es : List FarmEvent) (s' : Farm), (∀ e ∈ es, e.isTransport = true) ∧
    run (farmStep digest salt) s es = some s' ∧ Held x n s' ∧
    s'.clientmap.find x.pushId = some (rowOf x) ∧ s'.pushes = s.pushes

omit hdigest hsalt hspdy in
theorem Settles.cons {e : FarmEvent} (he : e.isTransport = true)
    (hstep : farmStep digest salt s e = some s') (hpushes : s'.pushes = s.pushes)
    (h : Settles digest salt x n s') : Settles digest salt x n s := by
  obtain ⟨es, t, hes, hrun, hheld, hrow, hsame⟩ := h
  refine ⟨e :: es, t, fun e' he' => ?_, run_cons_some.mpr ⟨s', hstep, hrun⟩, hheld, hrow,
    hsame.trans hpushes⟩
  rcases List.mem_cons.mp he' with rfl | hmem
  · exact he
  · exact hes e' hmem

/-- A handler that has found no row inserts it. -/
theorem InHandler.settles {i : ℕ} (h : InHandler x i (.found false) s) (hs : Held x n s)
    (hkept : Kept digest salt s) : Settles digest salt x n s := by
  obtain ⟨t, ht, hmapped, hpushes⟩ := h.exec_found hdigest hsalt hkept.owned
  have hheld := hs.step (e := .exec _) hdigest hsalt hspdy hkept trivial ht
  exact .cons rfl ht hpushes ⟨[], t, by simp, rfl, hheld, hmapped.row, rfl⟩

theorem Held.queued_or_settles (hs : Held x n s) (hkept : Kept digest salt s) :
    Queued x s ∨ Settles digest salt x n s := by
  cases hs.announced with
  | queued h => exact .inl h
  | started h =>
    obtain ⟨t, ht, hfound, hpushes⟩ := h.exec_start hdigest hsalt hkept.owned
    have hheld := hs.step (e := .exec _) hdigest hsalt hspdy hkept trivial ht
    exact .inr (.cons rfl ht hpushes
      (hfound.settles hdigest hsalt hspdy hheld (hkept.step ht)))
  | found h => exact .inr (h.settles hdigest hsalt hspdy hs hkept)
  | mapped h => exact .inr ⟨[], s, by simp, rfl, hs, h.row, rfl⟩

/-- A message that is queued gets to the master when those before it are delivered. -/
theorem Held.settles : ∀ (l : ℕ) {s : Farm}, Held x n s → Kept digest salt s →
    (s.workers x.serverId x.workerId).toMaster.length = l → Settles digest salt x n s := by
  intro l
  induction l with
  | zero =>
    intro s hs hkept hlength
    rcases hs.queued_or_settles hdigest hsalt hspdy hkept with hqueued | hsettles
    · have hmessages := hqueued.queue x.serverId x.workerId
      rw [messagesOf, List.length_eq_zero_iff.mp hlength, if_pos ⟨rfl, rfl⟩] at hmessages
      exact absurd hmessages (by simp)
    · exact hsettles
  | succ l ih =>
    intro s hs hkept hlength
    obtain ⟨m, rest, hqueue⟩ := List.exists_cons_of_length_eq_add_one hlength
    have hstep : farmStep digest salt s (.deliver x.serverId x.workerId) = some
        { s.setWorker x.serverId x.workerId
            { s.workers x.serverId x.workerId with toMaster := rest } with
          handlers := s.handlers ++ [⟨m, .start⟩] } := by
      simp [farmStep, hqueue]
    refine .cons rfl hstep rfl (ih (hs.deliver hqueue) (hkept.step hstep) ?_)
    rw [hqueue] at hlength
    simpa [Farm.setWorker] using hlength

end

/-- A push that is bound for the session can be brought there. -/
theorem Held.finishes (hs : Held x n s) (hspdy : x.isSpdy = true) {i : ℕ} {q : LocalPush}
    (hq : s.pushes[i]? = some q) (hbound : Bound x q) :
    q.stage.isOver = true ∨ ∃ (ops : List PushOp) (s' : Farm),
      run (farmStep digest salt) s (ops.map (.push i)) = some s' ∧
        s'.pushes[i]? = some { q with stage := .delivered x } := by
  obtain ⟨σ, client, stage⟩ := q
  obtain ⟨rfl, rfl, hstage⟩ := hbound
  have hworker : (s.clusterWorkers x.serverId).read (rowOf x).workerid = some (.own x.workerId) :=
    isAlive_iff.mp hs.alive
  -- the last turns of a push, from wherever it is
  have hreceive {t : Farm} (hcluster : t.clusterWorkers = s.clusterWorkers)
      (hworkers : t.workers = s.workers)
      (hpush : t.pushes[i]? = some ⟨x.serverId, rowOf x, .handedOver x.workerId⟩) :
      ∃ s', run (farmStep digest salt) t [.push i (.receive .finished)] = some s' ∧
        s'.pushes[i]? = some ⟨x.serverId, rowOf x, .delivered x⟩ := by
    have hsession : (t.workers x.serverId x.workerId).sessionManager.getSession (rowOf x).clientid
        = some (.own x) := hworkers ▸ hs.session
    have halive : t.isAlive x.serverId x.workerId = true := by
      rw [Farm.isAlive, hcluster]
      exact hs.alive
    exact ⟨_, run_cons_some.mpr ⟨_, step_receive digest salt hpush rfl halive hsession hspdy, rfl⟩,
      setStage_pushes hpush _ _⟩
  have hsend {t : Farm} (hcluster : t.clusterWorkers = s.clusterWorkers)
      (hworkers : t.workers = s.workers)
      (hpush : t.pushes[i]? = some ⟨x.serverId, rowOf x, .stored⟩) :
      ∃ s', run (farmStep digest salt) t [.push i .send, .push i (.receive .finished)] = some s' ∧
        s'.pushes[i]? = some ⟨x.serverId, rowOf x, .delivered x⟩ := by
    have hstep := step_send_own digest salt hpush rfl (k := x.workerId) (hcluster ▸ hworker)
    obtain ⟨s', hrun, hdone⟩ := hreceive (t := t.setStage i _ t.clientmap (.handedOver x.workerId))
      hcluster hworkers (setStage_pushes hpush _ _)
    exact ⟨s', run_cons_some.mpr ⟨_, hstep, hrun⟩, hdone⟩
  cases hstage with
  | lookedUp =>
    have hstep := step_store digest salt hq rfl
    obtain ⟨s', hrun, hdone⟩ := hsend (t := s.setStage i _ s.clientmap .stored) rfl rfl
      (setStage_pushes hq _ _)
    exact .inr ⟨[.store, .send, .receive .finished], s', run_cons_some.mpr ⟨_, hstep, hrun⟩, hdone⟩
  | stored =>
    obtain ⟨s', hrun, hdone⟩ := hsend rfl rfl hq
    exact .inr ⟨[.send, .receive .finished], s', hrun, hdone⟩
  | handedOver =>
    obtain ⟨s', hrun, hdone⟩ := hreceive rfl rfl hq
    exact .inr ⟨[.receive .finished], s', hrun, hdone⟩
  | refused => exact .inl rfl
  | sent outcome => exact .inl (by cases outcome <;> rfl)

/-! ### The beginning -/

/-- A client that was absent listens. -/
theorem Held.listen (hplaced : Placed s) {σ : ServerId} {k : WorkerId} {now : ℕ} {req : AcceptedReq}
    (habsent : Absent req.clientId s)
    (hstep : farmStep digest salt s (.worker σ k (.listen now req)) = some s') :
    Held ((s.workers σ k).newSession now req) s.pushes.length s' := by
  obtain ⟨w, halive, hw, rfl⟩ := farmStep_worker hstep
  obtain ⟨-, rfl⟩ := by simpa [Listen.step] using hw
  obtain ⟨hserver, hworker⟩ := hplaced.ids σ k
  have hx : ((s.workers σ k).newSession now req).serverId = σ ∧
      ((s.workers σ k).newSession now req).workerId = k := ⟨hserver, hworker⟩
  refine ⟨?_, ?_, fun σ' k' halive' h hh hc => ?_,
    .queued ⟨fun σ' k' => ?_, fun i h hh => ?_, habsent.rows⟩, le_rfl, fun i q hq hc => ?_⟩
  · rw [hx.1, hx.2]
    exact halive
  · rw [hx.1, hx.2, sessionOf_setWorker, if_pos ⟨rfl, rfl⟩]
    exact SpdyServer.getSession_listen_self ..
  · rw [workers_setWorker] at hh
    split at hh
    · rename_i hhere
      rw [SpdyServer.listen_closeHandlers] at hh
      rcases List.mem_append.mp hh with hold | hnew
      · exact absurd hc (habsent.listens σ k halive h hold)
      · obtain rfl := List.mem_singleton.mp hnew
        exact ⟨hhere.1.trans hx.1.symm, hhere.2.trans hx.2.symm, rfl⟩
    · exact absurd hc (habsent.listens σ' k' halive' h hh)
  · rw [messagesOf_setWorker, hx.1, hx.2]
    split
    · have hnone : (s.workers σ k).toMaster.filter (fun m => msgClientId m = req.clientId) = [] := by
        rw [List.filter_eq_nil_iff]
        intro m hm hc
        exact habsent.queued σ k m hm (of_decide_eq_true hc)
      rw [SpdyServer.listen_toMaster, List.filter_append]
      show List.filter (fun m => msgClientId m = req.clientId) _ ++ _ = _
      rw [hnone]
      simp [msgClientId, announcement, SpdyServer.newSession, Session.createSession,
        SpdyServer.createClientInfo]
    · rw [messagesOf, List.filter_eq_nil_iff]
      intro m hm hc
      exact habsent.queued σ' k' m hm (of_decide_eq_true hc)
  · exact hh.2.2 (habsent.handled h (List.mem_of_getElem? hh.1) hh.2.1)
  · exact .inl ⟨(List.getElem?_eq_some_iff.mp hq).1, habsent.pushes q (List.mem_of_getElem? hq) hc⟩

/-! ### Every state -/

theorem Held.settled (hs : Held x n s)
    (hqueue : ∀ m ∈ (s.workers x.serverId x.workerId).toMaster, msgClientId m ≠ x.clientId)
    (hdone : ∀ h ∈ s.handlers, msgClientId h.msg = x.clientId → h.phase = .done) :
    s.clientmap.find x.pushId = some (rowOf x) := by
  cases hs.announced with
  | queued h =>
    have hmessages := h.queue x.serverId x.workerId
    rw [if_pos ⟨rfl, rfl⟩] at hmessages
    have hmem : announcement x ∈ messagesOf x s x.serverId x.workerId := by
      rw [hmessages]
      exact List.mem_singleton_self _
    exact absurd rfl (hqueue _ (List.mem_of_mem_filter hmem))
  | started h => exact absurd (hdone _ (List.mem_of_getElem? h.handler) rfl) (by simp)
  | found h => exact absurd (hdone _ (List.mem_of_getElem? h.handler) rfl) (by simp)
  | mapped h => exact h.row

theorem Held.reached (hdigest : Function.Injective digest) (hsalt : EndsInNonDigit salt)
    (hspdy : x.isSpdy = true) (hs : Held x n s) (hkept : Kept digest salt s) :
    Reached x digest salt n s := by
  have howner : IssuedTo digest salt x.clientId x.pushId :=
    ((hkept.owned.workers _ _).sessions _ _ hs.session).2
  have hbound (i : ℕ) (q : LocalPush) (hi : n ≤ i) (hq : s.pushes[i]? = some q)
      (hp : q.client.pushid = x.pushId) : Bound x q := by
    have hc : q.client.clientid = x.clientId :=
      (howner.iff_eq hdigest hsalt _).mp (hp ▸ hkept.owned.pushes q (List.mem_of_getElem? hq))
    rcases hs.pushes i q hq hc with ⟨hlt, -⟩ | ⟨-, hbound⟩
    · exact absurd hi (not_le.mpr hlt)
    · exact hbound
  refine ⟨hs.session, hs.settled, hbound,
    fun i q hi hq hp => hs.finishes hspdy hq (hbound i q hi hq hp), ?_⟩
  obtain ⟨es, t, hes, hrun, hheld, hrow, hpushes⟩ := hs.settles hdigest hsalt hspdy _ hkept rfl
  have hlocal : includesText (rowOf x).hostname x.serverId = true := decide_eq_true (List.infix_refl _)
  have hlookup := step_lookup digest salt hrow hlocal
  rcases hheld.entered.finishes hspdy (entered_pushes t x.serverId (rowOf x)) ⟨rfl, rfl, .lookedUp⟩ with
    hover | ⟨ops, s', hops, hdone⟩
  · exact absurd hover (by simp [PushStage.isOver])
  · refine ⟨es ++ .lookup x.serverId x.pushId :: ops.map (.push t.pushes.length), s', fun e he => ?_,
      run_append_some.mpr ⟨t, hrun, run_cons_some.mpr ⟨_, hlookup, hops⟩⟩, hpushes ▸ hdone⟩
    rcases List.mem_append.mp he with hold | hnew
    · exact hes e hold
    · rcases List.mem_cons.mp hnew with rfl | hop
      · rfl
      · obtain ⟨op, -, rfl⟩ := List.mem_map.mp hop
        rfl

end

/-- Whatever the servers have done before, a client of which nothing is left listens and then stays
    connected. In every state of every run from there on, with any other clients, refreshes, exits of
    other workers and pushes: its session is in place, its row is right as soon as its announcement
    has been handled, and a push to its push id goes to this session, unless it is refused, the socket
    cannot be written to, no stream is opened for it or the stream breaks; every such push under way
    and every new one can be brought there. -/
theorem connected_reached (digest : String → String) (hdigest : Function.Injective digest)
    (salt : String) (hsalt : EndsInNonDigit salt) (before after : List FarmEvent) (s₀ s₁ : Farm)
    (σ : ServerId) (k : WorkerId) (now : ℕ) (req : AcceptedReq) (hspdy : req.isSpdy = true)
    (hbefore : run (farmStep digest salt) .create before = some s₀) (habsent : Absent req.clientId s₀)
    (hlisten : farmStep digest salt s₀ (.worker σ k (.listen now req)) = some s₁)
    (hstays : ∀ e ∈ after, Stays ((s₀.workers σ k).newSession now req) e) :
    AllStates (farmStep digest salt)
      (Reached ((s₀.workers σ k).newSession now req) digest salt s₀.pushes.length) s₁ after := by
  intro es s hes hrun
  have hkept₀ : Kept digest salt s₀ :=
    inv_run (fun _ _ _ h _ hstep => h.step hstep) ⟨.create, .create⟩ (allSteps_true _ _) hbefore
  have hheld₁ := Held.listen hkept₀.placed habsent hlisten
  have hinv := inv_run (I := fun s => Held ((s₀.workers σ k).newSession now req) s₀.pushes.length s ∧
      Kept digest salt s)
    (fun _ _ _ h hstays hstep => ⟨h.1.step hdigest hsalt hspdy h.2 hstays hstep, h.2.step hstep⟩)
    ⟨hheld₁, hkept₀.step hlisten⟩ (allSteps_of_forall fun e he _ => hstays e (hes.subset he)) hrun
  exact hinv.1.reached hdigest hsalt hspdy hinv.2

/-- While a push to the client is under way, another client comes to the same server and its worker
    exits. -/
def neighbourLeaves : List FarmEvent :=
  [.worker "server-0" 2 (.listen 2000 ⟨⟨2, "clid-1", "clid-1salt0", true⟩, by decide⟩),
    .deliver "server-0" 1, .deliver "server-0" 2, .exec 0, .exec 1, .exec 0, .lookup "server-0" "clid-0salt0", .exec 1,
    .push 0 .store, .exit "server-0" 2 0, .lookup "server-0" "clid-1salt0", .push 1 .store,
    .push 0 .send, .push 1 .send, .push 1 .remove, .push 0 (.receive .finished)]

theorem connected_reached_neighbourLeaves : Function.Injective (id : String → String) ∧
    EndsInNonDigit "salt" ∧ ∃ s₀ s₁ s x,
      run (farmStep id "salt") .create [.fork "server-0", .fork "server-0"] = some s₀ ∧
      Absent "clid-0" s₀ ∧
      farmStep id "salt" s₀ (.worker "server-0" 1 (.listen 1000 (.ofFirst 1 "clid-0salt0"))) = some s₁ ∧
      run (farmStep id "salt") s₁ neighbourLeaves = some s ∧ Reached x id "salt" 0 s ∧
      s.pushes.map LocalPush.stage = [.delivered x, .removed] := by
  have hsalt : EndsInNonDigit "salt" := ⟨'t', by decide, by decide⟩
  obtain ⟨s₀, hs₀⟩ : ∃ s₀, run (farmStep id "salt") .create [.fork "server-0", .fork "server-0"]
      = some s₀ := ⟨_, rfl⟩
  have habsent : Absent "clid-0" s₀ := by
    obtain rfl := Option.some.inj hs₀
    exact ⟨fun _ h => absurd h List.not_mem_nil, fun _ _ _ h => absurd h List.not_mem_nil,
      fun _ h => absurd h List.not_mem_nil, fun _ _ _ _ h => absurd h List.not_mem_nil,
      fun _ h => absurd h List.not_mem_nil⟩
  have hstays : ∀ e ∈ neighbourLeaves, Stays ((s₀.workers "server-0" 1).newSession 1000
      ⟨1, "clid-0", "clid-0salt0", true⟩) e := by
    obtain rfl := Option.some.inj hs₀
    simp [neighbourLeaves, Stays, SpdyServer.newSession, Session.createSession,
      SpdyServer.createClientInfo, SpdyServer.create, Farm.fork, Farm.create]
  obtain rfl := Option.some.inj hs₀
  refine ⟨Function.injective_id, hsalt, _, _, _, _, rfl, habsent, rfl, rfl, ?_, rfl⟩
  exact connected_reached id Function.injective_id "salt" hsalt [.fork "server-0", .fork "server-0"]
    neighbourLeaves _ _ "server-0" 1 1000 (.ofFirst 1 "clid-0salt0") rfl rfl habsent rfl
    hstays _ _ (List.prefix_refl _) rfl

end Elephant.App
