import Elephant.App.Farm

/-! Lazy removal of stale rows (`Push.sendPushRequestToWorker`, `Push.deleteFromClientMap`).

    A push reads the row of its push id, and only later finds out that the worker named there is gone.
    It then deletes by push id whatever row is there. In between the client may have come back:

        push      lookedUp (worker 1) ───────────────────────▶ send ─▶ removing ─▶ delete
        worker 1            exit
        worker 2                    listen ─▶ ADD_CLIENT written          ▲ the row of worker 2

    The first result says in which runs only rows of the worker that was looked up are deleted, the
    second which rows a push cleans up at all. -/

namespace Elephant.App
open Elephant.Schemes Elephant.Model Elephant.Listen Elephant.ClientMap Elephant.Api
open Elephant.Push (HttpError)

/-- The row names the worker that the push has looked up. -/
def Names (r : Row) (q : LocalPush) : Prop :=
  r.hostname = q.client.hostname ∧ r.workerid = q.client.workerid

instance (r : Row) (q : LocalPush) : Decidable (Names r q) := inferInstanceAs (Decidable (_ ∧ _))

/-- The push is going to find its worker gone, or has found that out. -/
def Gone (s : Farm) (q : LocalPush) : Prop :=
  q.stage = .removing ∨ (q.stage = .lookedUp ∨ q.stage = .stored) ∧
    (s.clusterWorkers q.serverId).read q.client.workerid = none

instance (s : Farm) (q : LocalPush) : Decidable (Gone s q) :=
  inferInstanceAs (Decidable (_ ∨ _ ∧ _))

/-- A delete takes only a row that still names the worker. -/
def RemovesNamed (s : Farm) : FarmEvent → Prop
  | .push n .remove => ∀ q ∈ s.pushes[n]?, q.stage = .removing →
      ∀ r ∈ s.clientmap.find q.client.pushid, Names r q
  | _ => True

/-- However the pushes that are under way go on, they delete such rows only. -/
def FinishesSafely (digest : String → String) (salt : String) (s : Farm) : Prop :=
  ∀ ops : List (ℕ × PushOp),
    AllSteps (farmStep digest salt) RemovesNamed s (ops.map fun o => .push o.1 o.2)

/-- The row that an operation of a handler leaves names the worker of every push that has lost its
    own, and so does the row there when a worker exits that a push has looked up. -/
def LeavesLookups (s : Farm) : FarmEvent → Prop
  | .exec n => ∀ h ∈ s.handlers[n]?, ∀ out ∈ runOp s.clientmap h.msg h.phase,
      ∀ q ∈ s.pushes, Gone s q → ∀ r ∈ out.1.find q.client.pushid, Names r q
  | .exit serverId workerId _ => ∀ q ∈ s.pushes, q.serverId = serverId →
      q.client.workerid = toString workerId → (q.stage = .lookedUp ∨ q.stage = .stored) →
      ∀ r ∈ s.clientmap.find q.client.pushid, Names r q
  | _ => True

instance (s : Farm) (e : FarmEvent) : Decidable (LeavesLookups s e) :=
  match e with
  | .exec n => inferInstanceAs (Decidable (∀ h ∈ s.handlers[n]?,
      ∀ out ∈ runOp s.clientmap h.msg h.phase, ∀ q ∈ s.pushes, Gone s q →
        ∀ r ∈ out.1.find q.client.pushid, Names r q))
  | .exit serverId workerId _ => inferInstanceAs (Decidable (∀ q ∈ s.pushes, q.serverId = serverId →
      q.client.workerid = toString workerId → (q.stage = .lookedUp ∨ q.stage = .stored) →
      ∀ r ∈ s.clientmap.find q.client.pushid, Names r q))
  | .refresh _ => isTrue trivial
  | .fork _ => isTrue trivial
  | .worker _ _ _ => isTrue trivial
  | .deliver _ _ => isTrue trivial
  | .lookup _ _ => isTrue trivial
  | .push _ _ => isTrue trivial

/-! ### Pushes that have lost their worker -/

/-- Where a push has lost its worker, the row names that worker. -/
def Safe (s : Farm) : Prop :=
  ∀ q ∈ s.pushes, Gone s q → ∀ r, s.clientmap.find q.client.pushid = some r → Names r q

section

variable {digest : String → String} {salt : String} {s s' : Farm} {q : LocalPush} {t : ClientTable}
  {stage stage' : PushStage}

/-- A turn does not take the worker away. -/
theorem Advance.gone {op : PushOp} (h : Advance s q op q.stage t stage')
    (hgone : Gone s { q with stage := stage' }) :
    Gone s q := by
  generalize hstage : q.stage = stage at h
  rcases hgone with hnew | ⟨hnew | hnew, hread⟩ <;> simp only at hnew <;> subst hnew
  · cases h with
    | workerGone hread => exact .inr ⟨.inr hstage, hread⟩
  · cases h
  · cases h with
    | stored => exact .inr ⟨.inl hstage, hread⟩

theorem Safe.push {n : ℕ} {op : PushOp} (hs : Safe s)
    (hstep : farmStep digest salt s (.push n op) = some s') : Safe s' := by
  obtain ⟨q, t, stage, hq, hadvance, rfl⟩ := farmStep_push hstep
  intro q' hq' hgone r hfind
  have hfind' := hadvance.find_of_find hfind
  rcases List.mem_or_eq_of_mem_set hq' with hold | rfl
  · exact hs q' hold hgone r hfind'
  · exact hs q (List.mem_of_getElem? hq) (hadvance.gone hgone) r hfind'

theorem Safe.removesNamed (hs : Safe s) (e : FarmEvent) : RemovesNamed s e := by
  unfold RemovesNamed
  split
  · intro q hq hstage r hr
    exact hs q (List.mem_of_getElem? hq) (.inl hstage) r hr
  · trivial

theorem Safe.finishesSafely : ∀ {s : Farm}, Safe s → FinishesSafely digest salt s := by
  intro s hs ops
  induction ops generalizing s with
  | nil => exact trivial
  | cons o ops ih => exact ⟨hs.removesNamed _, fun t ht => ih (hs.push ht)⟩

/-- A push that has lost its worker gets to its delete. -/
theorem FinishesSafely.safe (h : FinishesSafely digest salt s) : Safe s := by
  intro q hq hgone r hr
  obtain ⟨n, hn⟩ := List.mem_iff_getElem?.mp hq
  -- what the delete says of a push like `q` in a state with the same rows
  have hdelete : ∀ t : Farm, t.clientmap = s.clientmap →
      t.pushes[n]? = some { q with stage := .removing } → RemovesNamed t (.push n .remove) →
      Names r q := by
    intro t hmap hpush hnamed
    exact hnamed _ hpush rfl r (by rw [hmap]; exact hr)
  -- and what the send does to one that is stored
  have hsent : ∀ t : Farm, t.clientmap = s.clientmap → t.clusterWorkers = s.clusterWorkers →
      t.pushes[n]? = some { q with stage := .stored } →
      (s.clusterWorkers q.serverId).read q.client.workerid = none →
      AllSteps (farmStep digest salt) RemovesNamed t [.push n .send, .push n .remove] →
      Names r q := by
    intro t hmap hcluster hpush hread hsteps
    have hsend := step_send_gone digest salt hpush rfl (by rw [hcluster]; exact hread)
    exact hdelete (t.setStage n _ t.clientmap .removing) hmap (setStage_pushes hpush _ _)
      (hsteps.2 _ hsend).1
  rcases hgone with hremoving | ⟨hlooked | hstored, hread⟩
  · exact hdelete s rfl (by rw [hn, ← hremoving]) (h [(n, .remove)]).1
  · have hstore := step_store digest salt hn hlooked
    exact hsent (s.setStage n q s.clientmap .stored) rfl rfl (setStage_pushes hn _ _) hread
      ((h [(n, .store), (n, .send), (n, .remove)]).2 _ hstore)
  · exact hsent s rfl rfl (by rw [hn, ← hstored]) hread (h [(n, .send), (n, .remove)])

/-! ### Which events keep it so -/

theorem Gone.of_fork {σ : ServerId} (h : Gone (s.fork σ) q) : Gone s q := by
  rcases h with h | ⟨hstage, hread⟩
  · exact .inl h
  · rw [read_fork] at hread
    split at hread
    · simp at hread
    · exact .inr ⟨hstage, hread⟩

/-- After an exit, a push that has lost its worker had lost it before or has just lost it. -/
theorem gone_exit_iff {σ : ServerId} {k : WorkerId} {kept : ℕ} :
    Gone (s.exit σ k kept) q ↔ Gone s q ∨ (q.serverId = σ ∧ q.client.workerid = toString k) ∧
      (q.stage = .lookedUp ∨ q.stage = .stored) := by
  unfold Gone
  rw [read_exit]
  split
  · rename_i hworker; simp only [hworker, and_true, true_and]; tauto
  · rename_i hworker; simp only [hworker, false_and, or_false]

/-- A step that leaves the lookups alone leaves the pushes safe. -/
theorem Safe.step {e : FarmEvent} (hs : Safe s) (hleaves : LeavesLookups s e)
    (hstep : farmStep digest salt s e = some s') : Safe s' := by
  cases e with
  | refresh c => obtain rfl := Option.some.inj hstep; exact hs
  | fork σ =>
    obtain rfl := Option.some.inj hstep
    intro q hq hgone
    exact hs q hq hgone.of_fork
  | exit σ k kept =>
    obtain rfl := farmStep_exit hstep
    intro q hq hgone r hr
    rcases gone_exit_iff.mp hgone with hgone | ⟨⟨hσ, hk⟩, hstage⟩
    · exact hs q hq hgone r hr
    · exact hleaves q hq hσ hk hstage r hr
  | worker σ k e => obtain ⟨_, _, _, rfl⟩ := farmStep_worker hstep; exact hs
  | deliver σ k => obtain ⟨_, _, _, rfl⟩ := farmStep_deliver hstep; exact hs
  | exec n =>
    obtain ⟨m, phase, out, hn, hop, rfl⟩ := farmStep_exec hstep
    exact hleaves _ hn out hop
  | lookup σ p =>
    obtain ⟨client, hfind, -, rfl⟩ := farmStep_lookup hstep
    intro q hq hgone r hr
    rcases List.mem_append.mp hq with hold | hnew
    · exact hs q hold hgone r hr
    · -- the row that was just looked up
      obtain rfl := List.mem_singleton.mp hnew
      have hp : client.pushid = p := (Table.find_eq_some.mp hfind).2
      obtain rfl : client = r := by simpa [hp, hfind] using hr
      exact ⟨rfl, rfl⟩
  | push n op => exact hs.push hstep

theorem not_safe_of_step {e : FarmEvent} (hleaves : ¬ LeavesLookups s e)
    (hstep : farmStep digest salt s e = some s') : ¬ Safe s' := by
  intro hs
  apply hleaves
  cases e with
  | exit σ k kept =>
    obtain rfl := farmStep_exit hstep
    intro q hq hσ hk hstage r hr
    exact hs q hq (gone_exit_iff.mpr (.inr ⟨⟨hσ, hk⟩, hstage⟩)) r hr
  | exec n =>
    obtain ⟨m, phase, out, hn, hop, rfl⟩ := farmStep_exec hstep
    intro h hh out' hout' q hq hgone r hr
    obtain rfl := Option.some.inj (hn.symm.trans hh)
    obtain rfl := Option.some.inj (hop.symm.trans hout')
    exact hs q hq hgone r hr
  | refresh c => trivial
  | fork σ => trivial
  | worker σ k e => trivial
  | deliver σ k => trivial
  | lookup σ p => trivial
  | push n op => trivial

end

/-- In every run of the servers: at each point the pushes under way, however they go on, delete only
    rows that still name the worker that was looked up, iff no handler writes another worker's row
    under a push that has lost its worker, and no worker exits under a push whose row has moved on. -/
theorem finishesSafely_iff_leavesLookups (digest : String → String) (salt : String)
    (es : List FarmEvent) (hrun : ∃ s, run (farmStep digest salt) .create es = some s) :
    AllStates (farmStep digest salt) (FinishesSafely digest salt) .create es ↔
      AllSteps (farmStep digest salt) LeavesLookups .create es := by
  refine allStates_iff_allSteps (I := Safe) (fun s e s' hs hleaves hstep => hs.step hleaves hstep)
    (fun s hs => hs.finishesSafely) (fun s e s' _ hleaves hstep hsafe => ?_) ?_ hrun
  · exact not_safe_of_step hleaves hstep hsafe.safe
  · intro q hq
    simp [Farm.create] at hq

/-- A client listens at worker 1, and an app's push looks it up. -/
def lookedUpAtWorkerOne : List FarmEvent :=
  [.fork "server-0", .fork "server-0",
    .worker "server-0" 1 (.listen 1000 (.ofFirst 1 "clid-0salt0")), .deliver "server-0" 1,
    .exec 0, .exec 0, .lookup "server-0" "clid-0salt0"]

theorem finishesSafely_workerExits :
    AllStates (farmStep id "salt") (FinishesSafely id "salt") .create
      (lookedUpAtWorkerOne ++ [.exit "server-0" 1 0, .push 0 .store, .push 0 .send, .push 0 .remove]) :=
  (finishesSafely_iff_leavesLookups id "salt" _ ⟨_, rfl⟩).mpr (by decide)

/-- Worker 1 exits, and the client is back at worker 2 before the push has got to its send. -/
def reconnectDuringPush : List FarmEvent :=
  lookedUpAtWorkerOne ++ [.exit "server-0" 1 0,
    .worker "server-0" 2 (.listen 2000 (.ofFirst 2 "clid-0salt0")), .deliver "server-0" 2,
    .exec 1, .exec 1, .push 0 .store, .push 0 .send]

/-- The row names worker 2, which is alive and has the session, and the push deletes it. -/
theorem not_finishesSafely_reconnectDuringPush : ∃ s s',
    run (farmStep id "salt") .create reconnectDuringPush = some s ∧
      s.clientmap.find "clid-0salt0" = some ⟨"clid-0salt0", "clid-0", "server-0", "2"⟩ ∧
      s.isAlive "server-0" 2 = true ∧
      (∃ x, (s.workers "server-0" 2).sessionManager.getSession "clid-0" = some (.own x)) ∧
      farmStep id "salt" s (.push 0 .remove) = some s' ∧
      s'.clientmap.find "clid-0salt0" = none ∧ ¬ FinishesSafely id "salt" s := by
  refine ⟨_, _, rfl, by decide, by decide, ⟨_, rfl⟩, rfl, by decide, fun h => ?_⟩
  have hnamed : ("2" : String) = "1" := ((h [(0, .remove)]).1
    ⟨"server-0", ⟨"clid-0salt0", "clid-0", "server-0", "1"⟩, .removing⟩ rfl rfl
    ⟨"clid-0salt0", "clid-0", "server-0", "2"⟩ rfl).2
  exact absurd hnamed (by decide)

/-! ### What one push cleans up -/

/-- The row of a client of server `σ` is stale: its worker is gone, or has no session for the
    client. -/
def Stale (s : Farm) (σ : ServerId) (client : Row) : Prop :=
  (s.clusterWorkers σ).read client.workerid = none ∨
    ∃ k, (s.clusterWorkers σ).read client.workerid = some (.own k) ∧
      (s.workers σ k).sessionManager.getSession client.clientid = none

/-- No `ADD_CLIENT` handler writes the row. -/
def NoAdd (p : PushId) (s : Farm) : FarmEvent → Prop
  | .exec m => ∀ h ∈ s.handlers[m]?, isDel h.msg = false →
      ∀ out ∈ runOp s.clientmap h.msg h.phase, out.1.find p = s.clientmap.find p
  | _ => True

instance (p : PushId) (s : Farm) (e : FarmEvent) : Decidable (NoAdd p s e) :=
  match e with
  | .exec m => inferInstanceAs (Decidable (∀ h ∈ s.handlers[m]?, isDel h.msg = false →
      ∀ out ∈ runOp s.clientmap h.msg h.phase, out.1.find p = s.clientmap.find p))
  | .refresh _ => isTrue trivial
  | .fork _ => isTrue trivial
  | .exit _ _ _ => isTrue trivial
  | .worker _ _ _ => isTrue trivial
  | .deliver _ _ => isTrue trivial
  | .lookup _ _ => isTrue trivial
  | .push _ _ => isTrue trivial

/-- The send of push `n` finds that its worker is gone. -/
def SentToGone (n : ℕ) (s : Farm) (e : FarmEvent) : Prop :=
  e = .push n .send ∧ ∃ q ∈ s.pushes[n]?, (s.clusterWorkers q.serverId).read q.client.workerid = none

/-- The row is deleted, for a `DEL_CLIENT` or by a push other than `n`. -/
def RemovedElsewhere (n : ℕ) (p : PushId) (s : Farm) : FarmEvent → Prop
  | .exec m => ∃ h ∈ s.handlers[m]?, isDel h.msg = true ∧ msgPushId h.msg = p
  | .push m .remove => m ≠ n ∧ ∃ q ∈ s.pushes[m]?, q.client.pushid = p
  | _ => False

/-- The row goes, because push `n` does not find its worker or for another reason. -/
def Cleans (n : ℕ) (p : PushId) (s : Farm) (e : FarmEvent) : Prop :=
  SentToGone n s e ∨ RemovedElsewhere n p s e

/-- Nothing more comes of the push. -/
def PushStage.processed : PushStage → Bool
  | .removed => true
  | .delivered _ => true
  | .failed _ => true
  | .broken _ _ => true
  | _ => false

/-- The worker of the push was found to be gone. -/
def PushStage.cleaning : PushStage → Bool
  | .removing => true
  | .removed => true
  | _ => false

section

variable {digest : String → String} {salt : String} {s s' : Farm} {n : ℕ} {p : PushId} {q : LocalPush}
  {e : FarmEvent}

/-- Only its own turns change a push. -/
theorem pushes_of_step (hstep : farmStep digest salt s e = some s') (hn : n < s.pushes.length)
    (hother : ∀ op, e ≠ .push n op) : s'.pushes[n]? = s.pushes[n]? := by
  cases e with
  | refresh c => obtain rfl := Option.some.inj hstep; rfl
  | fork σ => obtain rfl := Option.some.inj hstep; rfl
  | exit σ k kept => obtain rfl := farmStep_exit hstep; rfl
  | worker σ k e => obtain ⟨_, _, _, rfl⟩ := farmStep_worker hstep; rfl
  | deliver σ k => obtain ⟨_, _, _, rfl⟩ := farmStep_deliver hstep; rfl
  | exec m => obtain ⟨_, _, _, _, _, rfl⟩ := farmStep_exec hstep; rfl
  | lookup σ p =>
    obtain ⟨client, -, -, rfl⟩ := farmStep_lookup hstep
    exact List.getElem?_append_left hn
  | push m op =>
    obtain ⟨q, t, stage, -, -, rfl⟩ := farmStep_push hstep
    refine List.getElem?_set_ne ?_
    rintro rfl
    exact hother op rfl

/-- An operation of a `DEL_CLIENT` handler deletes the row of its push id. -/
theorem find_runOp_del {t : ClientTable} {m : WorkerMsg} {phase : Phase}
    {out : ClientTable × Phase × Bool} (hm : isDel m = true) (h : runOp t m phase = some out) :
    out.1.find (msgPushId m) = none := by
  cases m with
  | addClient c p σ k => simp [isDel] at hm
  | delClient c p =>
    cases phase with
    | start =>
      obtain rfl := Option.some.inj h
      exact Table.find_destroy_self
    | found b => simp [runOp] at h
    | done => simp [runOp] at h

/-- What a step does to the row: a delete takes it, everything else leaves it. -/
theorem find_of_step (hno : NoAdd p s e) (hstep : farmStep digest salt s e = some s') :
    (s'.clientmap.find p = none ∧
        (RemovedElsewhere n p s e ∨ e = .push n .remove ∧ ∃ q ∈ s.pushes[n]?, q.stage = .removing)) ∨
      (s'.clientmap.find p = s.clientmap.find p ∧ ¬ RemovedElsewhere n p s e) := by
  cases e with
  | refresh c => obtain rfl := Option.some.inj hstep; exact .inr ⟨rfl, id⟩
  | fork σ => obtain rfl := Option.some.inj hstep; exact .inr ⟨rfl, id⟩
  | exit σ k kept => obtain rfl := farmStep_exit hstep; exact .inr ⟨rfl, id⟩
  | worker σ k e => obtain ⟨_, _, _, rfl⟩ := farmStep_worker hstep; exact .inr ⟨rfl, id⟩
  | deliver σ k => obtain ⟨_, _, _, rfl⟩ := farmStep_deliver hstep; exact .inr ⟨rfl, id⟩
  | lookup σ p => obtain ⟨_, _, _, rfl⟩ := farmStep_lookup hstep; exact .inr ⟨rfl, id⟩
  | exec m =>
    obtain ⟨msg, phase, out, hm, hop, rfl⟩ := farmStep_exec hstep
    by_cases hdel : isDel msg = true ∧ msgPushId msg = p
    · obtain ⟨hdel, rfl⟩ := hdel
      exact .inl ⟨find_runOp_del hdel hop, .inl ⟨_, hm, hdel, rfl⟩⟩
    · refine .inr ⟨?_, ?_⟩
      · by_cases hp : msgPushId msg = p
        · exact hno _ hm (Bool.eq_false_iff.mpr fun h => hdel ⟨h, hp⟩) out hop
        · exact find_runOp_ne hop hp
      · rintro ⟨h, hh, hdel', hp⟩
        obtain rfl := Option.some.inj (hm.symm.trans hh)
        exact hdel ⟨hdel', hp⟩
  | push m op =>
    obtain ⟨q, t, stage, hq, hadvance, rfl⟩ := farmStep_push hstep
    generalize hstage : q.stage = before at hadvance
    cases hadvance with
    | removed =>
      by_cases hp : q.client.pushid = p
      · subst hp
        refine .inl ⟨Table.find_destroy_self, ?_⟩
        by_cases hm : m = n
        · subst hm; exact .inr ⟨rfl, q, hq, hstage⟩
        · exact .inl ⟨hm, q, hq, rfl⟩
      · refine .inr ⟨Table.find_destroy_ne (Ne.symm hp), ?_⟩
        rintro ⟨-, q', hq', hp'⟩
        obtain rfl := Option.some.inj (hq.symm.trans hq')
        exact hp hp'
    | _ => exact .inr ⟨rfl, id⟩

/-- Without an `ADD_CLIENT` a row that is gone does not come back. -/
theorem absent_of_step (hno : NoAdd p s e) (hstep : farmStep digest salt s e = some s')
    (h : s.clientmap.find p = none) : s'.clientmap.find p = none := by
  rcases find_of_step (n := 0) hno hstep with ⟨hnone, -⟩ | ⟨hsame, -⟩
  · exact hnone
  · exact hsame.trans h

theorem absent_of_run {es : List FarmEvent} (hno : AllSteps (farmStep digest salt) (NoAdd p) s es)
    (hrun : run (farmStep digest salt) s es = some s') (h : s.clientmap.find p = none) :
    s'.clientmap.find p = none :=
  inv_run (I := fun s => s.clientmap.find p = none)
    (fun _ _ _ h hno hstep => absent_of_step hno hstep h) h hno hrun

/-- What a step makes of push `n`. -/
theorem push_of_step (hq : s.pushes[n]? = some q) (hstep : farmStep digest salt s e = some s') :
    ∃ stage, s'.pushes[n]? = some { q with stage := stage } ∧
      ((stage = q.stage ∧ ∀ op, e ≠ .push n op) ∨
        ∃ op, e = .push n op ∧ Advance s q op q.stage s'.clientmap stage) := by
  by_cases hown : ∃ op, e = .push n op
  · obtain ⟨op, rfl⟩ := hown
    obtain ⟨q', t, stage, hq', hadvance, rfl⟩ := farmStep_push hstep
    obtain rfl := Option.some.inj (hq.symm.trans hq')
    exact ⟨stage, setStage_pushes hq t stage, .inr ⟨op, rfl, hadvance⟩⟩
  · obtain ⟨hn, -⟩ := List.getElem?_eq_some_iff.mp hq
    have hother : ∀ op, e ≠ .push n op := fun op he => hown ⟨op, he⟩
    exact ⟨q.stage, (pushes_of_step hstep hn hother).trans hq, .inl ⟨rfl, hother⟩⟩

/-- A push that has found its worker gone is processed when it has deleted the row. -/
theorem absent_of_removing {es : List FarmEvent} (hq : s.pushes[n]? = some q)
    (hp : q.client.pushid = p) (hstage : q.stage = .removing)
    (hno : AllSteps (farmStep digest salt) (NoAdd p) s es)
    (hrun : run (farmStep digest salt) s es = some s')
    (hdone : ∃ q', s'.pushes[n]? = some q' ∧ q'.stage.processed = true) :
    s'.clientmap.find p = none := by
  have hend : ∃ stage, s'.pushes[n]? = some { q with stage := stage } ∧
      (stage = .removing ∨ stage = .removed ∧ s'.clientmap.find p = none) := by
    refine inv_run (I := fun t => ∃ stage, t.pushes[n]? = some { q with stage := stage } ∧
      (stage = .removing ∨ stage = .removed ∧ t.clientmap.find p = none)) ?_
      ⟨.removing, by rw [hq, ← hstage], .inl rfl⟩ hno hrun
    rintro t e t' ⟨stage, hpush, hstage⟩ hno hstep
    obtain ⟨stage', hpush', ⟨hsame, -⟩ | ⟨op, -, hadvance⟩⟩ := push_of_step hpush hstep
    · refine ⟨stage', hpush', ?_⟩
      rcases hstage with rfl | ⟨rfl, hnone⟩
      · exact .inl hsame
      · exact .inr ⟨hsame, absent_of_step hno hstep hnone⟩
    · refine ⟨stage', hpush', ?_⟩
      rcases hstage with rfl | ⟨rfl, -⟩
      · generalize t'.clientmap = rows at hadvance ⊢
        cases hadvance with
        | removed => exact .inr ⟨rfl, hp ▸ Table.find_destroy_self⟩
      · cases hadvance
  obtain ⟨stage, hpush, hstage⟩ := hend
  obtain ⟨q', hq', hprocessed⟩ := hdone
  obtain rfl := Option.some.inj (hpush.symm.trans hq')
  rcases hstage with rfl | ⟨-, hnone⟩
  · exact absurd hprocessed (by simp [PushStage.processed])
  · exact hnone

/-- A send that does not find the worker brings the push to its delete, and nothing else does. -/
theorem removing_of_sentToGone (hq : s.pushes[n]? = some q) (hsent : SentToGone n s e)
    (hstep : farmStep digest salt s e = some s') :
    s'.pushes[n]? = some { q with stage := .removing } := by
  obtain ⟨rfl, q', hq', hgone⟩ := hsent
  obtain rfl := Option.some.inj (hq.symm.trans hq')
  obtain ⟨stage, hpush, ⟨-, hother⟩ | ⟨op, hop, hadvance⟩⟩ := push_of_step hq hstep
  · exact absurd rfl (hother .send)
  · obtain rfl : op = .send := by simpa using hop.symm
    generalize q.stage = before, s'.clientmap = rows at hadvance
    cases hadvance with
    | handedOver hworker => exact absurd (hgone.symm.trans hworker) (by simp)
    | workerGone _ => exact hpush

theorem cleaning_of_step (hq : s.pushes[n]? = some q) (hstage : q.stage.cleaning = false)
    (hsent : ¬ SentToGone n s e) (hstep : farmStep digest salt s e = some s') :
    ∃ stage, s'.pushes[n]? = some { q with stage := stage } ∧ stage.cleaning = false := by
  obtain ⟨stage, hpush, ⟨rfl, -⟩ | ⟨op, rfl, hadvance⟩⟩ := push_of_step hq hstep
  · exact ⟨_, hpush, hstage⟩
  · refine ⟨stage, hpush, ?_⟩
    generalize hbefore : q.stage = before, s'.clientmap = rows at hadvance
    cases hadvance with
    | workerGone hgone => exact absurd ⟨rfl, q, hq, hgone⟩ hsent
    | removed => simp [hbefore, PushStage.cleaning] at hstage
    | _ => rfl

/-- From a state in which the row is there and the push has not found its worker gone. -/
theorem cleaned_iff_of_present {es : List FarmEvent} (hq : s.pushes[n]? = some q)
    (hp : q.client.pushid = p) (hstage : q.stage.cleaning = false) (hrow : s.clientmap.find p ≠ none)
    (hno : AllSteps (farmStep digest salt) (NoAdd p) s es)
    (hrun : run (farmStep digest salt) s es = some s')
    (hdone : ∃ q', s'.pushes[n]? = some q' ∧ q'.stage.processed = true) :
    s'.clientmap.find p = none ↔ SomeStep (farmStep digest salt) (Cleans n p) s es := by
  induction es generalizing s q with
  | nil =>
    obtain rfl := Option.some.inj hrun
    exact iff_of_false hrow id
  | cons e es ih =>
    obtain ⟨t, hstep, hrun'⟩ := run_cons_some.mp hrun
    have hno' := hno.2 t hstep
    by_cases hC : Cleans n p s e
    · refine iff_of_true ?_ (.inl hC)
      rcases hC with hsent | hremoved
      · exact absent_of_removing (removing_of_sentToGone hq hsent hstep) hp rfl hno' hrun' hdone
      · rcases find_of_step hno.1 hstep with ⟨hnone, -⟩ | ⟨-, hnot⟩
        · exact absent_of_run hno' hrun' hnone
        · exact absurd hremoved hnot
    · rw [someStep_cons_of_not hC hstep]
      obtain ⟨hsent, hremoved⟩ := not_or.mp hC
      obtain ⟨stage, hpush, hstage'⟩ := cleaning_of_step hq hstage hsent hstep
      refine ih hpush hp hstage' ?_ hno' hrun'
      rcases find_of_step hno.1 hstep with ⟨-, helsewhere | ⟨-, q', hq', hremoving⟩⟩ | ⟨hsame, -⟩
      · exact absurd helsewhere hremoved
      · obtain rfl := Option.some.inj (hq.symm.trans hq')
        simp [hremoving, PushStage.cleaning] at hstage
      · rw [hsame]; exact hrow

end

/-- From every state, with anything else under way: once a push to a client of this server has been
    processed, and no `ADD_CLIENT` has written the client's row in the meantime, the row is gone iff
    the push did not find the worker when it was sent, or something else has deleted the row. A worker
    that is there then but has no session for the client leaves the row. -/
theorem cleaned_iff_workerGone (digest : String → String) (salt : String) (s s' : Farm) (σ : ServerId)
    (p : PushId) (es : List FarmEvent)
    (hrun : run (farmStep digest salt) s (.lookup σ p :: es) = some s')
    (hno : AllSteps (farmStep digest salt) (NoAdd p) s (.lookup σ p :: es))
    (hdone : ∃ q, s'.pushes[s.pushes.length]? = some q ∧ q.stage.processed = true) :
    s'.clientmap.find p = none ↔
      SomeStep (farmStep digest salt) (Cleans s.pushes.length p) s (.lookup σ p :: es) := by
  obtain ⟨t, hlookup, hrun'⟩ := run_cons_some.mp hrun
  have hno' := hno.2 t hlookup
  have hC : ¬ Cleans s.pushes.length p s (.lookup σ p) := by simp [Cleans, SentToGone, RemovedElsewhere]
  rw [someStep_cons_of_not hC hlookup]
  obtain ⟨client, hrow, -, rfl⟩ := farmStep_lookup hlookup
  refine cleaned_iff_of_present (entered_pushes s σ client) (Table.find_eq_some.mp hrow).2 rfl ?_
    hno' hrun' hdone
  show s.clientmap.find p ≠ none
  rw [hrow]; simp

/-- A client listens, refreshes its push id and listens again; the second socket closes. The row for
    the new push id could not be inserted, so the one for the old is still there. -/
def refreshThenClose : List FarmEvent :=
  [.fork "server-0", .worker "server-0" 1 (.listen 1000 (.ofFirst 1 "clid-0salt0")),
    .deliver "server-0" 1, .exec 0, .exec 0, .refresh "clid-0",
    .worker "server-0" 1 (.listen 2000 (.ofFirst 2 "clid-0salt1")), .deliver "server-0" 1,
    .exec 1, .exec 1, .worker "server-0" 1 (.close 3000 2), .deliver "server-0" 1, .exec 2]

/-- The state after that: the worker is there, and has no session for the client. -/
def sessionless : Farm := (run (farmStep id "salt") .create refreshThenClose).getD .create

/-- The worker exits before the push is sent. -/
def exitBeforeSend : List FarmEvent :=
  [.push 0 .store, .exit "server-0" 1 0, .push 0 .send, .push 0 .remove]

theorem cleaned_exitBeforeSend : ∃ s',
    run (farmStep id "salt") sessionless (.lookup "server-0" "clid-0salt0" :: exitBeforeSend)
      = some s' ∧ s'.clientmap.find "clid-0salt0" = none := by
  refine ⟨_, rfl, (cleaned_iff_workerGone id "salt" sessionless _ "server-0" "clid-0salt0"
    exitBeforeSend rfl (by decide) ⟨_, rfl, rfl⟩).mpr ?_⟩
  exact .inr ⟨_, rfl, .inr ⟨_, rfl, .inr ⟨_, rfl, .inl (.inl ⟨rfl, _, rfl, rfl⟩)⟩⟩⟩

/-- The worker is there and has no session for the client: the push fails, and the row stays. -/
theorem not_cleaned_refreshThenClose : ∃ s s' client,
    run (farmStep id "salt") .create refreshThenClose = some s ∧
      s.clientmap.find "clid-0salt0" = some client ∧ Stale s "server-0" client ∧
      run (farmStep id "salt") s [.lookup "server-0" "clid-0salt0", .push 0 .store, .push 0 .send,
        .push 0 (.receive .finished)] = some s' ∧
      s'.pushes = [⟨"server-0", client, .failed Push.SendPush.noSession⟩] ∧
      s'.clientmap.find "clid-0salt0" = some client := by
  refine ⟨_, _, ⟨"clid-0salt0", "clid-0", "server-0", "1"⟩, rfl, by decide, ?_, rfl, by decide, by decide⟩
  exact .inr ⟨1, by decide, by decide⟩

end Elephant.App
