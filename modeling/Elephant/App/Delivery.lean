import Elephant.App.Farm

/-! Whose session a push is written to (`SendPush._pushToClient`).

    A push is addressed by a push id, finds its worker through the row of that push id, and there takes
    the session of the row's client id. A client that has refreshed its push id listens under the new
    one with the same client id:

        push id p ─▶ row (p, c, worker) ─▶ push under way ─▶ message to the worker ─▶ session of c
                                                                              listen under q ─▶ ▲

    Whatever leads from `p` to a worker (a row, a push that has looked it up, a message) is a route.
    The main result says in which runs no route ends at a session under another push id. -/

namespace Elephant.App
open Elephant.Schemes Elephant.Model Elephant.Listen Elephant.ClientMap Elephant.Api

def Farm.sessionOf (s : Farm) (σ : ServerId) (k : WorkerId) (c : ClientId) : Option (Found Session) :=
  (s.workers σ k).sessionManager.getSession c

/-- Every push was written to a session under the push id it was addressed to. -/
def RightlyDelivered (s : Farm) : Prop :=
  ∀ q ∈ s.pushes, ∀ x, q.stage.writtenTo = some x → x.pushId = q.client.pushid

/-- The events of pushes. -/
def FarmEvent.isPush : FarmEvent → Bool
  | .lookup _ _ => true
  | .push _ _ => true
  | _ => false

/-- However the pushes that are under way go on, and whichever come after them. -/
def DeliversRightly (digest : String → String) (salt : String) (s : Farm) : Prop :=
  ∀ es : List FarmEvent, (∀ e ∈ es, e.isPush = true) →
    ∀ s', run (farmStep digest salt) s es = some s' → RightlyDelivered s'

/-- What leads a push addressed to `p` to the session of `c` at worker `k` of server `σ`. -/
inductive Routes (s : Farm) (p : PushId) (c : ClientId) (σ : ServerId) (k : WorkerId) : Prop
  | row {r : Row} (hfind : s.clientmap.find p = some r) (hclient : r.clientid = c)
      (hlocal : includesText r.hostname σ = true)
      (hworker : (s.clusterWorkers σ).read r.workerid = some (.own k))
  | push {q : LocalPush} (hq : q ∈ s.pushes)
      (haddress : q.client.pushid = p ∧ q.client.clientid = c ∧ q.serverId = σ)
      (hstage : q.stage = .lookedUp ∨ q.stage = .stored)
      (hworker : (s.clusterWorkers σ).read q.client.workerid = some (.own k))
  | message {q : LocalPush} (hq : q ∈ s.pushes)
      (haddress : q.client.pushid = p ∧ q.client.clientid = c ∧ q.serverId = σ)
      (hstage : q.stage = .handedOver k)
      (hworker : (s.clusterWorkers σ).read (toString k) = some (.own k))

/-- A listen comes under the push id of every route to the client at that worker; a row is written
    only where it leads to sessions under its push id. -/
def KeepsAddress (s : Farm) : FarmEvent → Prop
  | .worker σ k (.listen _ req) => req.isSpdy = true →
      ∀ p, Routes s p req.clientId σ k → req.pushId = p
  | .exec n => ∀ h ∈ s.handlers[n]?, ∀ out ∈ runOp s.clientmap h.msg h.phase,
      ∀ r ∈ out.1.find (msgPushId h.msg), ∀ σ k x, includesText r.hostname σ = true →
        (s.clusterWorkers σ).read r.workerid = some (.own k) →
        s.sessionOf σ k r.clientid = some (.own x) → x.isSpdy = true → x.pushId = msgPushId h.msg
  | _ => True

/-! ### Workers and their sessions -/

theorem isAlive_iff {s : Farm} {σ : ServerId} {k : WorkerId} :
    s.isAlive σ k = true ↔ (s.clusterWorkers σ).read (toString k) = some (.own k) := by
  rw [PlainObject.read_eq_own]; exact decide_eq_true_iff

theorem sessionOf_setWorker (s : Farm) (σ σ' : ServerId) (k k' : WorkerId) (w : SpdyServer)
    (c : ClientId) : (s.setWorker σ k w).sessionOf σ' k' c
      = if σ' = σ ∧ k' = k then w.sessionManager.getSession c else s.sessionOf σ' k' c := by
  unfold Farm.sessionOf Farm.setWorker
  by_cases hσ : σ' = σ
  · subst hσ
    by_cases hk : k' = k
    · subst hk; simp
    · simp [hk]
  · simp [hσ]

/-- What the channel to the master holds does not matter. -/
theorem sessionOf_setWorker_queue (s : Farm) (σ σ' : ServerId) (k k' : WorkerId)
    (queue : List WorkerMsg) (c : ClientId) :
    (s.setWorker σ k { s.workers σ k with toMaster := queue }).sessionOf σ' k' c
      = s.sessionOf σ' k' c := by
  rw [sessionOf_setWorker]
  split
  · rename_i h; rw [h.1, h.2]; rfl
  · rfl

/-- Worker ids count up, and a worker that is not forked yet has no session. -/
structure Counted (s : Farm) : Prop where
  keys : ∀ σ w k, (s.clusterWorkers σ).read w = some (.own k) → w = toString k ∧ k ≤ s.forked σ
  fresh : ∀ σ k, s.forked σ < k → ∀ c x, s.sessionOf σ k c ≠ some (.own x)

theorem Counted.create : Counted .create where
  keys σ w k h := by
    have hmem := PlainObject.exists_read_own.mp ⟨k, h⟩
    simp [Farm.create] at hmem
  fresh _ _ _ c x := SessionManager.getSession_create c x

section

variable {digest : String → String} {salt : String} {s s' : Farm} {e : FarmEvent}

theorem Counted.fork (hs : Counted s) (σ : ServerId) : Counted (s.fork σ) := by
  have hforked : ∀ σ', s.forked σ' ≤ (s.fork σ).forked σ' := by
    intro σ'
    by_cases hσ : σ' = σ
    · subst hσ; simp [Farm.fork]
    · simp [Farm.fork, hσ]
  refine ⟨fun σ' w k h => ?_, fun σ' k hk => hs.fresh σ' k ((hforked σ').trans_lt hk)⟩
  rw [read_fork] at h
  split at h
  · rename_i hnew
    obtain rfl : s.forked σ + 1 = k := by simpa using h
    exact ⟨hnew.2, by rw [hnew.1]; simp [Farm.fork]⟩
  · obtain ⟨hw, hk⟩ := hs.keys σ' w k h
    exact ⟨hw, hk.trans (hforked σ')⟩

theorem Counted.exit (hs : Counted s) (σ : ServerId) (k : WorkerId) (kept : ℕ) :
    Counted (s.exit σ k kept) := by
  refine ⟨fun σ' w k' h => ?_, fun σ' k' hk c x h => ?_⟩
  · rw [read_exit] at h
    split at h
    · simp at h
    · exact hs.keys σ' w k' h
  · exact hs.fresh σ' k' hk c x ((sessionOf_setWorker_queue s σ σ' k k' _ c).symm.trans h)

theorem Counted.worker {σ : ServerId} {k : WorkerId} (hs : Counted s) (halive : s.isAlive σ k = true)
    (w : SpdyServer) : Counted (s.setWorker σ k w) := by
  refine ⟨hs.keys, fun σ' k' hk c x => ?_⟩
  have hle : k ≤ s.forked σ := (hs.keys σ _ k (isAlive_iff.mp halive)).2
  rw [sessionOf_setWorker, if_neg]
  · exact hs.fresh σ' k' hk c x
  · rintro ⟨rfl, rfl⟩
    exact absurd hk (not_lt.mpr hle)

theorem Counted.step (hs : Counted s) (hstep : farmStep digest salt s e = some s') : Counted s' := by
  cases e with
  | refresh c => obtain rfl := Option.some.inj hstep; exact ⟨hs.keys, hs.fresh⟩
  | fork σ => obtain rfl := Option.some.inj hstep; exact hs.fork σ
  | exit σ k kept => obtain rfl := farmStep_exit hstep; exact hs.exit σ k kept
  | worker σ k e =>
    obtain ⟨w, halive, -, rfl⟩ := farmStep_worker hstep
    exact hs.worker halive w
  | deliver σ k =>
    obtain ⟨m, rest, -, rfl⟩ := farmStep_deliver hstep
    exact ⟨hs.keys, fun σ' k' hk c x h =>
      hs.fresh σ' k' hk c x ((sessionOf_setWorker_queue s σ σ' k k' rest c).symm.trans h)⟩
  | exec n => obtain ⟨_, _, _, _, _, rfl⟩ := farmStep_exec hstep; exact ⟨hs.keys, hs.fresh⟩
  | lookup σ p => obtain ⟨_, _, _, rfl⟩ := farmStep_lookup hstep; exact ⟨hs.keys, hs.fresh⟩
  | push n op => obtain ⟨_, _, _, _, _, rfl⟩ := farmStep_push hstep; exact ⟨hs.keys, hs.fresh⟩

/-! ### Routes before and after an event -/

section

variable {p : PushId} {c : ClientId} {σ : ServerId} {k : WorkerId}

/-- Routes come from rows, pushes and `cluster.workers`. -/
theorem Routes.of_same (h : Routes s' p c σ k) (hmap : s'.clientmap = s.clientmap)
    (hpushes : s'.pushes = s.pushes) (hread : ∀ w, (s'.clusterWorkers σ).read w = some (.own k) →
      (s.clusterWorkers σ).read w = some (.own k)) : Routes s p c σ k := by
  cases h with
  | row hfind hclient hlocal hworker => exact .row (hmap ▸ hfind) hclient hlocal (hread _ hworker)
  | push hq haddress hstage hworker => exact .push (hpushes ▸ hq) haddress hstage (hread _ hworker)
  | message hq haddress hstage hworker =>
    exact .message (hpushes ▸ hq) haddress hstage (hread _ hworker)

theorem Routes.of_fork {σ₀ : ServerId} (h : Routes (s.fork σ₀) p c σ k) :
    Routes s p c σ k ∨ σ = σ₀ ∧ k = s.forked σ₀ + 1 := by
  by_cases hnew : σ = σ₀ ∧ k = s.forked σ₀ + 1
  · exact .inr hnew
  · refine .inl (h.of_same rfl rfl fun w hw => ?_)
    rw [read_fork] at hw
    split at hw
    · rename_i hw'
      exact absurd ⟨hw'.1, by simpa using hw.symm⟩ hnew
    · exact hw

theorem Routes.of_exit {σ₀ : ServerId} {k₀ : WorkerId} {kept : ℕ}
    (h : Routes (s.exit σ₀ k₀ kept) p c σ k) : Routes s p c σ k := by
  refine h.of_same rfl rfl fun w hw => ?_
  rw [read_exit] at hw
  split at hw
  · simp at hw
  · exact hw

/-- A lookup follows the row. -/
theorem Routes.of_entered {σ₀ : ServerId} {client : Row} {p₀ : PushId}
    (hfind : s.clientmap.find p₀ = some client) (hlocal : includesText client.hostname σ₀ = true)
    (h : Routes (s.entered σ₀ client) p c σ k) : Routes s p c σ k := by
  cases h with
  | row hfind hclient hlocal hworker => exact .row hfind hclient hlocal hworker
  | @push q hq haddress hstage hworker =>
    rcases List.mem_append.mp hq with hold | hnew
    · exact .push hold haddress hstage hworker
    · obtain rfl := List.mem_singleton.mp hnew
      obtain ⟨rfl, rfl, rfl⟩ := haddress
      have hp : client.pushid = p₀ := (Table.find_eq_some.mp hfind).2
      exact .row (hp ▸ hfind) rfl hlocal hworker
  | @message q hq haddress hstage hworker =>
    rcases List.mem_append.mp hq with hold | hnew
    · exact .message hold haddress hstage hworker
    · obtain rfl := List.mem_singleton.mp hnew
      simp at hstage

/-- A turn of a push makes no new route. -/
theorem Routes.of_setStage {n : ℕ} {q : LocalPush} {t : ClientTable} {stage : PushStage}
    (hq : s.pushes[n]? = some q) (hadvance : Advance s q op q.stage t stage)
    (h : Routes (s.setStage n q t stage) p c σ k) : Routes s p c σ k := by
  have hmem : q ∈ s.pushes := List.mem_of_getElem? hq
  generalize hold : q.stage = stage' at hadvance
  cases h with
  | row hfind hclient hlocal hworker =>
    exact .row (hadvance.find_of_find hfind) hclient hlocal hworker
  | push hq' haddress hstage hworker =>
    rcases List.mem_or_eq_of_mem_set hq' with hother | rfl
    · exact .push hother haddress hstage hworker
    · rcases hstage with hstage | hstage <;> simp only at hstage <;> subst hstage
      · cases hadvance
      · cases hadvance with
        | stored => exact .push hmem haddress (.inl hold) hworker
  | message hq' haddress hstage hworker =>
    rcases List.mem_or_eq_of_mem_set hq' with hother | rfl
    · exact .message hother haddress hstage hworker
    · simp only at hstage
      subst hstage
      cases hadvance with
      | handedOver hread =>
        obtain ⟨rfl, rfl, rfl⟩ := haddress
        exact .push hmem ⟨rfl, rfl, rfl⟩ (.inr hold) hread

theorem Routes.of_exec {m : WorkerMsg} {phase : Phase} {out : ClientTable × Phase × Bool}
    {handlers : List Handler} (hop : runOp s.clientmap m phase = some out) (hp : msgPushId m ≠ p)
    (h : Routes { s with clientmap := out.1, handlers := handlers } p c σ k) : Routes s p c σ k := by
  cases h with
  | row hfind hclient hlocal hworker =>
    exact .row ((find_runOp_ne hop hp).symm.trans hfind) hclient hlocal hworker
  | push hq haddress hstage hworker => exact .push hq haddress hstage hworker
  | message hq haddress hstage hworker => exact .message hq haddress hstage hworker

end

/-! ### Routes that end at the right session -/

/-- Every route ends at a session under its push id, or at none. -/
def Aligned (s : Farm) : Prop :=
  ∀ p c σ k x, Routes s p c σ k → s.sessionOf σ k c = some (.own x) → x.isSpdy = true → x.pushId = p

/-- Both of them, with the bookkeeping of worker ids. -/
structure Addressed (s : Farm) : Prop where
  counted : Counted s
  aligned : Aligned s
  delivered : RightlyDelivered s

theorem Addressed.create : Addressed .create where
  counted := .create
  aligned _ c _ _ x _ h := absurd h (SessionManager.getSession_create c x)
  delivered q hq := by simp [Farm.create] at hq

theorem Aligned.worker {σ : ServerId} {k : WorkerId} {e : Event} {w : SpdyServer} (hs : Aligned s)
    (hkeeps : KeepsAddress s (.worker σ k e)) (hw : Listen.step (s.workers σ k) e = some w) :
    Aligned (s.setWorker σ k w) := by
  intro p c σ' k' x hroute hget hspdy
  have hroute' : Routes s p c σ' k' := hroute.of_same rfl rfl fun _ h => h
  rw [sessionOf_setWorker] at hget
  split at hget
  · rename_i hhere
    obtain ⟨rfl, rfl⟩ := hhere
    cases e with
    | listen now req =>
      obtain ⟨-, rfl⟩ := by simpa [Listen.step] using hw
      by_cases hc : c = req.clientId
      · subst hc
        rw [SpdyServer.getSession_listen_self] at hget
        obtain rfl := by simpa using hget
        exact hkeeps hspdy p hroute'
      · rw [SpdyServer.getSession_listen_ne _ _ _ hc] at hget
        exact hs p c σ' k' x hroute' hget hspdy
    | close now socket =>
      obtain ⟨-, rfl⟩ := by simpa [Listen.step] using hw
      exact hs p c σ' k' x hroute' ((s.workers σ' k').getSession_emitClose now socket hget).1 hspdy
  · exact hs p c σ' k' x hroute' hget hspdy

theorem Aligned.exec {n : ℕ} {m : WorkerMsg} {phase : Phase} {out : ClientTable × Phase × Bool}
    (hs : Aligned s) (hkeeps : KeepsAddress s (.exec n)) (hn : s.handlers[n]? = some ⟨m, phase⟩)
    (hop : runOp s.clientmap m phase = some out) :
    Aligned { s with clientmap := out.1, handlers := s.handlers.set n ⟨m, out.2.1⟩ } := by
  intro p c σ k x hroute hget hspdy
  by_cases hp : msgPushId m = p
  · subst hp
    cases hroute with
    | row hfind hclient hlocal hworker =>
      subst hclient
      exact hkeeps _ hn out hop _ hfind σ k x hlocal hworker hget hspdy
    | push hq haddress hstage hworker =>
      exact hs _ c σ k x (.push hq haddress hstage hworker) hget hspdy
    | message hq haddress hstage hworker =>
      exact hs _ c σ k x (.message hq haddress hstage hworker) hget hspdy
  · exact hs p c σ k x (hroute.of_exec hop hp) hget hspdy

theorem Addressed.push {n : ℕ} {op : PushOp} (hs : Addressed s)
    (hstep : farmStep digest salt s (.push n op) = some s') :
    Aligned s' ∧ RightlyDelivered s' := by
  obtain ⟨q, t, stage, hq, hadvance, rfl⟩ := farmStep_push hstep
  refine ⟨fun p c σ k x hroute => hs.aligned p c σ k x (hroute.of_setStage hq hadvance), ?_⟩
  intro q' hq' x hx
  rcases List.mem_or_eq_of_mem_set hq' with hold | rfl
  · exact hs.delivered q' hold x hx
  · obtain ⟨k, hstage, halive, hsession, hspdy⟩ := hadvance.session_of_written hx
    have hmem : q ∈ s.pushes := List.mem_of_getElem? hq
    exact hs.aligned _ _ _ _ x (.message hmem ⟨rfl, rfl, rfl⟩ hstage (isAlive_iff.mp halive))
      hsession hspdy

theorem Addressed.step (hs : Addressed s) (hkeeps : KeepsAddress s e)
    (hstep : farmStep digest salt s e = some s') : Addressed s' := by
  have hcounted := hs.counted.step hstep
  cases e with
  | refresh c =>
    obtain rfl := Option.some.inj hstep
    exact ⟨hcounted, fun p c σ k x h => hs.aligned p c σ k x (h.of_same rfl rfl fun _ h => h),
      hs.delivered⟩
  | fork σ =>
    obtain rfl := Option.some.inj hstep
    refine ⟨hcounted, fun p c σ' k x hroute hget => ?_, hs.delivered⟩
    rcases hroute.of_fork with hroute | ⟨rfl, rfl⟩
    · exact hs.aligned p c σ' k x hroute hget
    · exact absurd hget (hs.counted.fresh σ' _ (Nat.lt_succ_self _) c x)
  | exit σ k kept =>
    obtain rfl := farmStep_exit hstep
    refine ⟨hcounted, fun p c σ' k' x hroute hget => ?_, hs.delivered⟩
    exact hs.aligned p c σ' k' x hroute.of_exit
      ((sessionOf_setWorker_queue s σ σ' k k' _ c).symm.trans hget)
  | worker σ k e =>
    obtain ⟨w, -, hw, rfl⟩ := farmStep_worker hstep
    exact ⟨hcounted, hs.aligned.worker hkeeps hw, hs.delivered⟩
  | deliver σ k =>
    obtain ⟨m, rest, -, rfl⟩ := farmStep_deliver hstep
    refine ⟨hcounted, fun p c σ' k' x hroute hget => ?_, hs.delivered⟩
    exact hs.aligned p c σ' k' x (hroute.of_same rfl rfl fun _ h => h)
      ((sessionOf_setWorker_queue s σ σ' k k' rest c).symm.trans hget)
  | exec n =>
    obtain ⟨m, phase, out, hn, hop, rfl⟩ := farmStep_exec hstep
    exact ⟨hcounted, hs.aligned.exec hkeeps hn hop, hs.delivered⟩
  | lookup σ p =>
    obtain ⟨client, hfind, hlocal, rfl⟩ := farmStep_lookup hstep
    refine ⟨hcounted, fun p c σ k x hroute => hs.aligned p c σ k x (hroute.of_entered hfind hlocal),
      fun q hq x hx => ?_⟩
    rcases List.mem_append.mp hq with hold | hnew
    · exact hs.delivered q hold x hx
    · obtain rfl := List.mem_singleton.mp hnew
      simp [PushStage.writtenTo] at hx
  | push n op =>
    obtain ⟨haligned, hdelivered⟩ := hs.push hstep
    exact ⟨hcounted, haligned, hdelivered⟩

theorem Addressed.deliversRightly (hs : Addressed s) : DeliversRightly digest salt s := by
  intro es hpush s' hrun
  have hkeeps : AllSteps (farmStep digest salt) KeepsAddress s es := allSteps_of_forall fun e he t => by
    have h := hpush e he
    cases e with
    | lookup σ p => trivial
    | push n op => trivial
    | _ => simp [FarmEvent.isPush] at h
  exact (inv_run (fun _ _ _ hs hC hstep => hs.step hC hstep) hs hkeeps hrun).delivered

/-! ### A route is a push that can still be made -/

/-- Some push addressed to `p` can be made to end at the session `x`. -/
def Reaches (digest : String → String) (salt : String) (s : Farm) (p : PushId) (x : Session) : Prop :=
  ∃ es s', (∀ e ∈ es, FarmEvent.isPush e = true) ∧ run (farmStep digest salt) s es = some s' ∧
    ∃ q ∈ s'.pushes, q.stage.writtenTo = some x ∧ q.client.pushid = p

theorem Reaches.of_run {t : Farm} {p : PushId} {x : Session} (es : List FarmEvent)
    (hpush : ∀ e ∈ es, FarmEvent.isPush e = true) (hrun : run (farmStep digest salt) s es = some t)
    (h : Reaches digest salt t p x) : Reaches digest salt s p x := by
  obtain ⟨es', s', hpush', hrun', hq⟩ := h
  refine ⟨es ++ es', s', fun e he => ?_, run_append_some.mpr ⟨t, hrun, hrun'⟩, hq⟩
  rcases List.mem_append.mp he with he | he
  · exact hpush e he
  · exact hpush' e he

section

variable {n : ℕ} {q : LocalPush} {k : WorkerId} {x : Session} (hq : s.pushes[n]? = some q)
  (hsession : s.sessionOf q.serverId k q.client.clientid = some (.own x)) (hspdy : x.isSpdy = true)
include hq hsession hspdy

theorem reaches_of_handedOver (hstage : q.stage = .handedOver k)
    (hworker : (s.clusterWorkers q.serverId).read (toString k) = some (.own k)) :
    Reaches digest salt s q.client.pushid x := by
  have hreceive := step_receive digest salt hq hstage (isAlive_iff.mpr hworker) hsession hspdy
  refine ⟨[.push n (.receive .finished)], _, by simp [FarmEvent.isPush],
    run_cons_some.mpr ⟨_, hreceive, rfl⟩, _, List.mem_of_getElem? (setStage_pushes hq _ _), rfl, rfl⟩

theorem reaches_of_stored (hs : Counted s) (hstage : q.stage = .stored)
    (hworker : (s.clusterWorkers q.serverId).read q.client.workerid = some (.own k)) :
    Reaches digest salt s q.client.pushid x := by
  obtain ⟨hkey, -⟩ := hs.keys _ _ _ hworker
  have hsend := step_send_own digest salt hq hstage hworker
  refine Reaches.of_run [.push n .send] (by simp [FarmEvent.isPush])
    (run_cons_some.mpr ⟨_, hsend, rfl⟩) ?_
  exact reaches_of_handedOver (q := { q with stage := .handedOver k }) (setStage_pushes hq _ _)
    hsession hspdy rfl (hkey ▸ hworker)

theorem reaches_of_lookedUp (hs : Counted s) (hstage : q.stage = .lookedUp)
    (hworker : (s.clusterWorkers q.serverId).read q.client.workerid = some (.own k)) :
    Reaches digest salt s q.client.pushid x := by
  have hstore := step_store digest salt hq hstage
  refine Reaches.of_run [.push n .store] (by simp [FarmEvent.isPush])
    (run_cons_some.mpr ⟨_, hstore, rfl⟩) ?_
  exact reaches_of_stored (q := { q with stage := .stored }) (setStage_pushes hq _ _) hsession hspdy
    ⟨hs.keys, hs.fresh⟩ rfl hworker

end

/-- A route to a session that can be pushed to is used by some push. -/
theorem Routes.reaches (digest : String → String) (salt : String) {p : PushId} {c : ClientId}
    {σ : ServerId} {k : WorkerId} {x : Session} (hs : Counted s)
    (hroute : Routes s p c σ k) (hsession : s.sessionOf σ k c = some (.own x))
    (hspdy : x.isSpdy = true) : Reaches digest salt s p x := by
  cases hroute with
  | @row r hfind hclient hlocal hworker =>
    subst hclient
    have hp : r.pushid = p := (Table.find_eq_some.mp hfind).2
    have hlookup := step_lookup digest salt hfind hlocal
    refine Reaches.of_run [.lookup σ p] (by simp [FarmEvent.isPush])
      (run_cons_some.mpr ⟨_, hlookup, rfl⟩) ?_
    rw [← hp]
    exact reaches_of_lookedUp (entered_pushes s σ r) hsession hspdy ⟨hs.keys, hs.fresh⟩ rfl hworker
  | push hq haddress hstage hworker =>
    obtain ⟨rfl, rfl, rfl⟩ := haddress
    obtain ⟨n, hn⟩ := List.mem_iff_getElem?.mp hq
    rcases hstage with hlooked | hstored
    · exact reaches_of_lookedUp hn hsession hspdy hs hlooked hworker
    · exact reaches_of_stored hn hsession hspdy hs hstored hworker
  | message hq haddress hstage hworker =>
    obtain ⟨rfl, rfl, rfl⟩ := haddress
    obtain ⟨n, hn⟩ := List.mem_iff_getElem?.mp hq
    exact reaches_of_handedOver hn hsession hspdy hstage hworker

theorem DeliversRightly.aligned (h : DeliversRightly digest salt s) (hs : Counted s) : Aligned s := by
  intro p c σ k x hroute hsession hspdy
  obtain ⟨es, s', hpush, hrun, q, hq, hstage, rfl⟩ :=
    hroute.reaches digest salt hs hsession hspdy
  exact h es hpush s' hrun q hq x hstage

/-- An event that does not keep the addresses leads to a push that ends at the wrong session. -/
theorem not_aligned_of_step (hkeeps : ¬ KeepsAddress s e)
    (hstep : farmStep digest salt s e = some s') : ¬ Aligned s' := by
  intro hs
  apply hkeeps
  cases e with
  | worker σ k e =>
    obtain ⟨w, -, hw, rfl⟩ := farmStep_worker hstep
    cases e with
    | close now socket => trivial
    | listen now req =>
      obtain ⟨-, rfl⟩ := by simpa [Listen.step] using hw
      intro hspdy p hroute
      refine hs p req.clientId σ k ((s.workers σ k).newSession now req)
        (hroute.of_same rfl rfl fun _ h => h) ?_ hspdy
      rw [sessionOf_setWorker, if_pos ⟨rfl, rfl⟩]
      exact SpdyServer.getSession_listen_self ..
  | exec n =>
    obtain ⟨m, phase, out, hn, hop, rfl⟩ := farmStep_exec hstep
    intro h hh out' hout' r hr σ k x hlocal hworker hsession hspdy
    obtain rfl := Option.some.inj (hn.symm.trans hh)
    obtain rfl := Option.some.inj (hop.symm.trans hout')
    exact hs _ _ σ k x (.row hr rfl hlocal hworker) hsession hspdy
  | refresh c => trivial
  | fork σ => trivial
  | exit σ k kept => trivial
  | deliver σ k => trivial
  | lookup σ p => trivial
  | push n op => trivial

end

/-- In every run of the servers: at each point every push, whether under way or still to come, is
    written only to a session under the push id it is addressed to, iff no client listens under a push
    id while a route leads one of its others to that worker, and no row is written that leads to a
    session under another push id. -/
theorem deliversRightly_iff_keepsAddress (digest : String → String) (salt : String)
    (es : List FarmEvent) (hrun : ∃ s, run (farmStep digest salt) .create es = some s) :
    AllStates (farmStep digest salt) (DeliversRightly digest salt) .create es ↔
      AllSteps (farmStep digest salt) KeepsAddress .create es :=
  allStates_iff_allSteps (I := Addressed) (fun _ _ _ hs hkeeps hstep => hs.step hkeeps hstep)
    (fun _ hs => hs.deliversRightly)
    (fun _ _ _ hs hkeeps hstep h => not_aligned_of_step hkeeps hstep (h.aligned (hs.counted.step hstep)))
    .create hrun

/-- A client listens, and its row is written. -/
def listening : List FarmEvent :=
  [.fork "server-0", .worker "server-0" 1 (.listen 1000 (.ofFirst 1 "clid-0salt0")),
    .deliver "server-0" 1, .exec 0, .exec 0]

def pushed : List FarmEvent :=
  [.lookup "server-0" "clid-0salt0", .push 0 .store, .push 0 .send, .push 0 (.receive .finished)]

/-- A client that never refreshes is pushed to rightly. -/
theorem deliversRightly_listening : AllStates (farmStep id "salt") (DeliversRightly id "salt") .create
    (listening ++ pushed) := by
  refine (deliversRightly_iff_keepsAddress id "salt" _ ⟨_, rfl⟩).mpr ?_
  refine ⟨trivial, fun t ht => ?_⟩
  obtain rfl := Option.some.inj ht
  refine ⟨?_, fun t ht => ?_⟩
  · -- there is no row and no push yet
    rintro - p (⟨hfind, -, -, -⟩ | ⟨hq, -, -, -⟩ | ⟨hq, -, -, -⟩)
    · simp [Farm.create, Farm.fork, Table.empty, Table.find] at hfind
    · simp [Farm.create, Farm.fork] at hq
    · simp [Farm.create, Farm.fork] at hq
  obtain rfl := Option.some.inj ht
  refine ⟨trivial, fun t ht => ?_⟩
  obtain rfl := Option.some.inj ht
  refine ⟨?_, fun t ht => ?_⟩
  · -- the find leaves no row
    intro h hh out hout r hr
    obtain rfl := Option.some.inj hh
    obtain rfl := Option.some.inj hout
    exact absurd (show (none : Option Row) = some r from hr) (by simp)
  obtain rfl := Option.some.inj ht
  refine ⟨?_, fun t ht => allSteps_of_forall fun e he s => ?_⟩
  · -- the row that is inserted leads to worker 1 only, and to the session it is about
    intro h hh out hout r hr σ k x _ hworker hsession _
    obtain rfl := Option.some.inj hh
    obtain rfl := Option.some.inj hout
    obtain rfl := Option.some.inj
      (show some (⟨"clid-0salt0", "clid-0", "server-0", "1"⟩ : Row) = some r from hr)
    by_cases hσ : σ = "server-0"
    · subst hσ
      obtain rfl := Found.own.inj (Option.some.inj hworker)
      obtain rfl := Found.own.inj (Option.some.inj hsession)
      rfl
    · have hread : ((Farm.create.fork "server-0").clusterWorkers σ).read "1" = some (.own k) := hworker
      rw [read_fork, if_neg fun h => hσ h.1] at hread
      exact absurd (show (none : Option (Found WorkerId)) = _ from hread) (by simp)
  · have hpush : e.isPush = true := by revert e; decide
    cases e with
    | lookup σ p => trivial
    | push n op => trivial
    | _ => simp [FarmEvent.isPush] at hpush

/-- A client listens under the push id of a refresh while the row of the old one is there. -/
def listenAfterRefresh : List FarmEvent :=
  listening ++ [.refresh "clid-0",
    .worker "server-0" 1 (.listen 2000 (.ofFirst 2 "clid-0salt1"))]

/-- A push to the old push id is written to the session of the new one. -/
theorem not_deliversRightly_listenAfterRefresh : ∃ s x,
    run (farmStep id "salt") .create (listenAfterRefresh ++ pushed) = some s ∧
      s.pushes = [⟨"server-0", ⟨"clid-0salt0", "clid-0", "server-0", "1"⟩, .delivered x⟩] ∧
      x.pushId = "clid-0salt1" ∧ ¬ RightlyDelivered s := by
  refine ⟨_, _, rfl, rfl, rfl, fun h => ?_⟩
  have hsame : ("clid-0salt1" : String) = "clid-0salt0" := h _ (List.mem_singleton_self _) _ rfl
  exact absurd hsame (by decide)

end Elephant.App
