import Elephant.Push.Callback

/-! When a push is lost half-way.

    An ack, a timeout and a failed send each give up what kept the push pending and then read its
    row. When that read fails the handler ends:

        armed ──▶ ackRead ──▶ ackCallback ──▶ callback started
                     └─ error ──▶ 500, and nothing is left of the push

    So the push is kept exactly when such a read fails only where something else keeps it. -/

namespace Elephant.Push
open Elephant.Schemes Elephant.Model Elephant.Listen

section

variable {ι : Type*}

def Started (w : World ι) (k : ℕ) : Prop := ∃ st, .callbackStarted k st ∈ w.log

/-- A stored push has its armed timer or a handler pending, or its callback was started; and an ack
    just answered with the database error leaves the timer armed. -/
structure NotDropped (w : World ι) : Prop where
  kept : ∀ k row, w.rows.find k = some row → (∃ t ∈ w.tasks, t.about k = true) ∨ Started w k
  armed : ∀ a, w.log.getLast? = some (.refused a Ack.dbError) →
    ∃ x, .armed x ∈ w.tasks ∧ x.push.requestId = a.requestId

/-- Push `k` does not depend on the task at position `n`. -/
def KeptBesides (w : World ι) (n k : ℕ) : Prop :=
  (∃ t ∈ w.tasks.eraseIdx n, t.about k = true) ∨ Started w k

/-- What has to hold for the read of a task to fail. -/
def MayFail (w : World ι) (n : ℕ) : Task ι → Prop
  | .ackRead _ _ => False
  | .timeoutRead x => KeptBesides w n x.push.pushIndex
  | .failureRead m _ => KeptBesides w n m.pushIndex
  | _ => True

/-- No read of an ack fails, and another read only for a push that does not depend on it. -/
def ReadsKept (w : World ι) : PushEvent ι → Prop
  | .turn n .error => ∀ t ∈ w.tasks[n]?, MayFail w n t
  | _ => True

def Task.isRead : Task ι → Bool
  | .timeoutRead _ => true
  | .failureRead _ _ => true
  | .ackRead _ _ => true
  | _ => false

def Task.isCallback : Task ι → Bool
  | .callbackPost _ _ => true
  | .callbackDelete _ => true
  | _ => false

/-- Pushes are kept, callbacks at work were started, and no ack got the database error. -/
structure Kept (w : World ι) : Prop where
  inv : PushInv True w
  kept : ∀ k row, w.rows.find k = some row → (∃ t ∈ w.tasks, t.about k = true) ∨ Started w k
  started : ∀ t ∈ w.tasks, t.isCallback = true → ∀ k, t.about k = true → Started w k
  rows : ∀ p ∈ w.pushes, w.rows.find p.pushIndex ≠ none ∨ Started w p.pushIndex
  asked : ∀ a m, .ackRead a m ∈ w.tasks → m.requestId = a.requestId
  answers : ∀ a, .refused a Ack.dbError ∉ w.log

theorem Kept.notDropped (hK : Kept w) : NotDropped w :=
  ⟨hK.kept, fun a ha => absurd (List.mem_of_getLast? ha) (hK.answers a)⟩

/-- A task that arrives takes nothing from a push that is kept. -/
theorem Kept.kept_arrival (hK : Kept w) (u : Task ι) {k : ℕ} {row : PushRequest}
    (hrow : w.rows.find k = some row) :
    (∃ t ∈ w.tasks ++ [u], t.about k = true) ∨ Started w k := by
  rcases hK.kept k row hrow with ⟨t, ht, hab⟩ | hdone
  · exact Or.inl ⟨t, List.mem_append_left _ ht, hab⟩
  · exact Or.inr hdone

theorem Kept.started_arrival (hK : Kept w) {u : Task ι} (hu : u.isCallback = false) {k : ℕ}
    {x : Task ι} (hx : x ∈ w.tasks ++ [u]) (hcb : x.isCallback = true) (hk : x.about k = true) :
    Started w k := by
  rcases List.mem_append.mp hx with hx | hx
  · exact hK.started x hx hcb k hk
  · obtain rfl := List.mem_singleton.mp hx
    rw [hu] at hcb; simp at hcb

end

/-! ### What a turn does to its own push -/

section Turn

variable {ι : Type*} [DecidableEq ι] {retries : ℕ} {w w' : World ι} {n k : ℕ} {t : Task ι}
  {o : Outcome} {turn : Turn ι}

/-- A task passes its push on, unless its read fails, the row is gone or it is the callback's. -/
theorem Runs.keeps (h : Runs retries w t o turn) (hk : t.about k = true)
    (hremove : ∀ x, t = .timeoutRemove x → (w.removeTimer x).2 = true) :
    (∃ x ∈ turn.next, x.about k = true) ∨ (t.isRead = true ∧ o = .error) ∨
      w.rows.find k = none ∨ t.isCallback = true := by
  cases h with
  | removed =>
    simp only [PushTimer.removeTimer, hremove _ rfl, if_true]
    exact Or.inl ⟨_, List.mem_singleton_self _, hk⟩
  | timeoutFound hf | failureFound hf | ackFound hf =>
    refine Or.inl ⟨_, List.mem_singleton_self _, ?_⟩
    simpa [Task.about, Task.push?, pushMsg, pushIndex_of_find hf] using hk
  | timeoutDropped hf | failureDropped hf =>
    simp only [Task.about, Task.push?, Option.map_some, Option.some.injEq, decide_eq_true_eq] at hk
    subst hk
    exact Or.inr (hf.imp (fun h => ⟨rfl, h⟩) Or.inl)
  | ackDropped hf =>
    simp only [Task.about, Task.push?, Option.map_some, Option.some.injEq, decide_eq_true_eq] at hk
    subst hk
    exact Or.inr (hf.imp (fun h => ⟨rfl, h.1⟩) fun h => Or.inl h.1)
  | ackUnknown | ackCancels => simp [Task.about, Task.push?] at hk
  | postAgain | postDone | deleted | notDeleted => exact Or.inr (Or.inr (Or.inr rfl))
  | _ => exact Or.inl ⟨_, List.mem_singleton_self _, hk⟩

/-- A callback's task comes from one, or from a callback that is started. -/
theorem Runs.callback (h : Runs retries w t o turn) {x : Task ι} (hx : x ∈ turn.next)
    (hcb : x.isCallback = true) (hk : x.about k = true) :
    (t.isCallback = true ∧ t.about k = true) ∨ ∃ st, .callbackStarted k st ∈ turn.effects := by
  cases h with
  | timeoutStarts | failureStarts | ackStarts =>
    simp only [PushCallback.send, List.mem_singleton] at hx
    subst hx
    simp only [Task.about, Task.push?, pushMsg, Option.map_some, Option.some.injEq,
      decide_eq_true_eq] at hk
    subst hk
    exact Or.inr ⟨_, List.mem_cons_self⟩
  | removed =>
    simp only [PushTimer.removeTimer] at hx
    split at hx <;> simp at hx
    subst hx; simp [Task.isCallback] at hcb
  | _ => simp_all [Task.isCallback, Task.about, Task.push?, SendPush.handleFailure,
      SendPush.startTimer, PushTimer.onTimeout, PushCallback.done, Ack.refuse]

theorem Runs.ackCancel_of_ackRead (h : Runs retries w t o turn) {a : AckReq} {m : PushMsg}
    (hx : .ackRead a m ∈ turn.next) : ∃ i s x, t = .ackCancel i a ∧ m = x.push ∧
      (w.pushTimers (i, s)).read a.requestId = some (.own x) := by
  cases h with
  | ackCancels hs ht =>
    simp only [List.mem_singleton, Task.ackRead.injEq] at hx
    obtain ⟨rfl, rfl⟩ := hx
    exact ⟨_, _, _, rfl, rfl, ht⟩
  | removed => simp only [PushTimer.removeTimer] at hx; split at hx <;> simp at hx
  | _ => simp [SendPush.handleFailure, SendPush.startTimer, PushTimer.onTimeout,
      PushCallback.send, PushCallback.done, Ack.refuse] at hx

/-- Only an ack whose read fails is answered with the database error. -/
theorem Runs.ackRead_of_dbError (h : Runs retries w t o turn) {a : AckReq}
    (he : .refused a Ack.dbError ∈ turn.effects) : o = .error ∧ ∃ m, t = .ackRead a m := by
  cases h with
  | ackUnknown hne =>
    simp only [Ack.refuse, List.mem_singleton, Effect.refused.injEq] at he
    exact absurd he.2.symm hne
  | ackDropped hf =>
    simp only [Ack.refuse, List.mem_singleton, Effect.refused.injEq] at he
    obtain ⟨rfl, rfl⟩ := he
    rcases hf with ⟨rfl, -⟩ | ⟨-, hne⟩
    · exact ⟨rfl, _, rfl⟩
    · exact absurd hne (by decide)
  | _ => simp [SendPush.handleFailure, SendPush.startTimer, PushTimer.onTimeout,
      PushTimer.removeTimer, PushCallback.send, PushCallback.done] at he

/-- Only a callback deletes a row, that of its own push. -/
theorem Runs.callback_of_deleted (h : Runs retries w t o turn) (hrow : w.rows.find k ≠ none)
    (hgone : turn.world.rows.find k = none) : t.isCallback = true ∧ t.about k = true := by
  cases h with
  | @deleted cb =>
    refine ⟨rfl, ?_⟩
    by_contra hne
    have hne : k ≠ cb.pushRequest.pushIndex := by
      simpa [Task.about, Task.push?, pushMsg, eq_comm] using hne
    exact hrow ((Table.find_destroy_ne hne).symm.trans hgone)
  | _ => exact absurd hgone hrow

/-! ### The invariant -/

theorem Started.after (h : Started w k) : Started (w.after n turn) k := by
  obtain ⟨st, hst⟩ := h
  exact ⟨st, List.mem_append_left _ hst⟩

namespace Kept

/-- A push is kept by whatever task is about it after the turn. -/
theorem kept_after (hK : Kept w) (hn : w.tasks[n]? = some t) (hrun : Runs retries w t o turn)
    (hC : o = .error → MayFail w n t) {row : PushRequest}
    (hrow : (w.after n turn).rows.find k = some row) :
    (∃ x ∈ (w.after n turn).tasks, x.about k = true) ∨ Started (w.after n turn) k := by
  have hold : w.rows.find k = some row := hrun.find_of_find hrow
  rcases hK.kept k row hold with ⟨x, hx, hk⟩ | hst
  · by_cases hxt : x = t
    · subst hxt
      have hnone : turn.cleared = none := by
        cases hcl : turn.cleared with
        | none => rfl
        | some y =>
          obtain ⟨i, a, s, rfl, -⟩ := hK.inv.ack_of_cleared hrun hcl
          simp [Task.about, Task.push?] at hk
      rcases hrun.keeps hk (fun y _ => by rw [hK.inv.removeTimer_eq]) with
        ⟨y, hy, hyk⟩ | ⟨hread, herr⟩ | hgone | hcb
      · exact Or.inl ⟨y, mem_after_next hy hnone, hyk⟩
      · have hkept : KeptBesides w n k := by
          have hmay := hC herr
          cases x <;> simp_all [Task.isRead, MayFail, Task.about, Task.push?]
        rcases hkept with ⟨y, hy, hyk⟩ | hst
        · refine Or.inl ⟨y, ?_, hyk⟩
          rw [World.after, hnone, clear_none]
          exact mem_replaceAt_of_eraseIdx hy
        · exact Or.inr hst.after
      · rw [hgone] at hold; simp at hold
      · exact Or.inr (hK.started x hx hcb k hk).after
    · by_cases hcl : ∃ y ∈ turn.cleared, x = .armed y
      · -- the ack that cancels the timer takes the push over
        obtain ⟨y, hy, rfl⟩ := hcl
        obtain ⟨i, a, s, rfl, -, -, rfl⟩ := hK.inv.ack_of_cleared hrun hy
        refine Or.inl ⟨.ackRead a y.push, mem_clear.mpr ⟨mem_replaceAt_next ?_, by simp⟩, hk⟩
        exact List.mem_singleton_self _
      · exact Or.inl ⟨x, mem_after hn hx hxt fun y hy hxy => hcl ⟨y, hy, hxy⟩, hk⟩
  · exact Or.inr hst.after

theorem started_after (hK : Kept w) (hn : w.tasks[n]? = some t) (hrun : Runs retries w t o turn)
    {x : Task ι} (hx : x ∈ (w.after n turn).tasks) (hcb : x.isCallback = true)
    (hk : x.about k = true) : Started (w.after n turn) k := by
  rcases mem_tasks_after hx with hx | hx
  · exact (hK.started x hx hcb k hk).after
  · rcases hrun.callback hx hcb hk with ⟨hcb, hk⟩ | ⟨st, hst⟩
    · exact (hK.started t (List.mem_of_getElem? hn) hcb k hk).after
    · exact ⟨st, List.mem_append_right _ hst⟩

theorem after (hK : Kept w) (hn : w.tasks[n]? = some t) (hrun : Runs retries w t o turn)
    (hC : o = .error → MayFail w n t) : Kept (w.after n turn) := by
  have hmem := List.mem_of_getElem? hn
  refine ⟨hK.inv.after hn hrun (Or.inl trivial), fun k row => hK.kept_after hn hrun hC,
    fun x hx hcb k => hK.started_after hn hrun hx hcb, fun p hp => ?_, fun a m hx => ?_,
    fun a ha => ?_⟩
  · have hp : p ∈ w.pushes := hrun.same.1 ▸ hp
    rcases hK.rows p hp with hrow | hst
    · by_cases hgone : turn.world.rows.find p.pushIndex = none
      · obtain ⟨hcb, hk⟩ := hrun.callback_of_deleted hrow hgone
        exact Or.inr (hK.started t hmem hcb _ hk).after
      · exact Or.inl hgone
    · exact Or.inr hst.after
  · rcases mem_tasks_after hx with hx | hx
    · exact hK.asked a m hx
    · obtain ⟨i, s, x, -, rfl, hread⟩ := hrun.ackCancel_of_ackRead hx
      exact (hK.inv.entries i s _ x hread).2.2.1
  · rcases List.mem_append.mp ha with ha | ha
    · exact hK.answers a ha
    · obtain ⟨herr, m, rfl⟩ := hrun.ackRead_of_dbError ha
      exact hC herr

theorem step {e : PushEvent ι} (hK : Kept w) (hC : ReadsKept w e)
    (hstep : pushStep retries w e = some w') : Kept w' := by
  have hinv : PushInv True w' := hK.inv.step (Or.inl trivial) hstep
  cases e with
  | handOver i c r callback =>
    simp only [pushStep] at hstep
    split at hstep
    · obtain ⟨rows, hrows, rfl⟩ := Option.map_eq_some_iff.mp hstep
      refine ⟨hinv, fun k row hrow => ?_, fun t ht hcb k => hK.started_arrival rfl ht hcb,
        fun p hp => ?_, fun a m ht => ?_, hK.answers⟩
      · by_cases hk : k = w.pushes.length
        · refine Or.inl ⟨_, List.mem_append_right _ (List.mem_singleton_self _), ?_⟩
          simp [Task.about, Task.push?, pushMsg, createPushRequest, hk]
        · exact hK.kept_arrival _ ((Table.find_insert_ne hrows hk).symm.trans hrow)
      · by_cases hidx : p.pushIndex = w.pushes.length
        · have hself := Table.find_insert_self hrows
          refine Or.inl ?_
          rw [hidx]
          exact fun hnone => absurd (hself.symm.trans hnone) (by simp)
        · have hold : p ∈ w.pushes := by
            refine (List.mem_append.mp hp).resolve_right fun h => hidx ?_
            rw [List.mem_singleton] at h; subst h; rfl
          refine (hK.rows p hold).imp_left fun hrow => ?_
          exact fun hnone => hrow ((Table.find_insert_ne hrows hidx).symm.trans hnone)
      · exact hK.asked a m (by simpa using ht)
    · simp at hstep
  | worker i e =>
    obtain ⟨s, -, rfl⟩ := Option.map_eq_some_iff.mp hstep
    exact ⟨hinv, hK.kept, hK.started, hK.rows, hK.asked, hK.answers⟩
  | ack i c r =>
    cases hstep
    exact ⟨hinv, fun k row => hK.kept_arrival _, fun t ht hcb k => hK.started_arrival rfl ht hcb,
      hK.rows, fun a m ht => hK.asked a m (by simpa using ht), hK.answers⟩
  | turn n o =>
    obtain ⟨t, turn, hn, hrun, rfl⟩ := pushStep_turn hstep
    refine hK.after hn hrun fun herr => ?_
    subst herr
    exact hC t hn

/-- When nothing else keeps a push, the failed read drops it. -/
theorem dropped (hK : Kept w) {p : PushRequest} (hp : p ∈ w.pushes) {m : PushMsg}
    (hm : m = pushMsg p) (hn : ¬ KeptBesides w n m.pushIndex) {why : Option String} :
    ¬ NotDropped (w.after n ⟨w, [], none, [.gaveUp m.pushIndex why]⟩) := by
  subst hm
  intro hND
  have hrow : w.rows.find p.pushIndex ≠ none :=
    (hK.rows p hp).resolve_right fun hst => hn (Or.inr hst)
  obtain ⟨row, hrow⟩ := Option.ne_none_iff_exists'.mp hrow
  rcases hND.kept p.pushIndex row hrow with ⟨t, ht, hab⟩ | ⟨st, hst⟩
  · refine hn (Or.inl ⟨t, ?_, hab⟩)
    rw [List.eraseIdx_eq_take_drop_succ]
    simpa [World.after, replaceAt] using ht
  · exact hn (Or.inr ⟨st, by simpa [World.after, pushMsg] using hst⟩)

/-- An ack with the database error has cancelled the timer. -/
theorem disarmed (hK : Kept w) {a : AckReq} {m : PushMsg} (hn : w.tasks[n]? = some (.ackRead a m)) :
    ¬ NotDropped (w.after n (Ack.refuse w a Ack.dbError)) := by
  intro hND
  have hmem := List.mem_of_getElem? hn
  obtain ⟨x, hx, hreq⟩ := hND.armed a (by simp [World.after, Ack.refuse])
  have hx : .armed x ∈ w.tasks := (mem_tasks_after hx).resolve_right (by simp [Ack.refuse])
  have heq := (hK.inv.pre_unique hx hmem rfl rfl rfl (hreq.trans (hK.asked a m hmem).symm)).1
  simp at heq

theorem not_notDropped {e : PushEvent ι} (hK : Kept w) (hC : ¬ ReadsKept w e)
    (hstep : pushStep retries w e = some w') : ¬ NotDropped w' := by
  cases e with
  | turn n o =>
    cases o with
    | error =>
      simp only [ReadsKept, not_forall] at hC
      obtain ⟨t, hn, hmay⟩ := hC
      have hn : w.tasks[n]? = some t := hn
      simp only [pushStep, hn, Option.bind_some] at hstep
      have hknown := hK.inv.known t (List.mem_of_getElem? hn)
      cases t with
      | ackRead a m => cases hstep; exact hK.disarmed hn
      | timeoutRead x =>
        obtain ⟨p, hp, hm⟩ := hknown _ rfl
        cases hstep; exact hK.dropped hp hm hmay
      | failureRead m e =>
        obtain ⟨p, hp, hm⟩ := hknown _ rfl
        cases hstep; exact hK.dropped hp hm hmay
      | _ => exact absurd trivial hmay
    | _ => exact absurd trivial hC
  | _ => exact absurd trivial hC

theorem create {ι : Type*} (ids : ι → ServerId × WorkerId) : Kept (.create ids) := by
  refine ⟨PushInv.create True ids, fun k row h => ?_, ?_, ?_, ?_, ?_⟩
  · simp [World.create, Table.find, Table.empty] at h
  all_goals simp [World.create]

end Kept

end Turn

/-- For every run, no push is dropped on the way iff the reads that fail are of pushes that do not
    depend on them. -/
theorem notDropped_iff_readsKept {ι : Type*} [DecidableEq ι] (retries : ℕ)
    (ids : ι → ServerId × WorkerId) (es : List (PushEvent ι)) (w : World ι)
    (hrun : run (pushStep retries) (.create ids) es = some w) :
    AllStates (pushStep retries) NotDropped (.create ids) es ↔
      AllSteps (pushStep retries) ReadsKept (.create ids) es :=
  allStates_iff_allSteps (I := Kept) (fun _ _ _ hK hC hs => hK.step hC hs)
    (fun _ hK => hK.notDropped) (fun _ _ _ hK hC hs => hK.not_notDropped hC hs) (Kept.create ids)
    ⟨w, hrun⟩

instance {ι : Type*} (w : World ι) (k : ℕ) : Decidable (Started w k) :=
  decidable_of_iff (statuses k w.log ≠ []) (by
    simp only [ne_eq, List.eq_nil_iff_forall_not_mem, mem_statuses, not_forall, not_not, Started])

instance {ι : Type*} (w : World ι) (n k : ℕ) : Decidable (KeptBesides w n k) :=
  inferInstanceAs (Decidable ((∃ t ∈ w.tasks.eraseIdx n, t.about k = true) ∨ Started w k))

instance {ι : Type*} (w : World ι) (n : ℕ) (t : Task ι) : Decidable (MayFail w n t) :=
  match t with
  | .ackRead _ _ => isFalse id
  | .timeoutRead x => inferInstanceAs (Decidable (KeptBesides w n x.push.pushIndex))
  | .failureRead m _ => inferInstanceAs (Decidable (KeptBesides w n m.pushIndex))
  | .message _ _ => isTrue trivial
  | .serverPush _ _ _ => isTrue trivial
  | .stream _ _ _ => isTrue trivial
  | .startTimer _ _ _ => isTrue trivial
  | .armed _ => isTrue trivial
  | .timeoutRemove _ => isTrue trivial
  | .timeoutCallback _ => isTrue trivial
  | .failureCallback _ _ => isTrue trivial
  | .ackCancel _ _ => isTrue trivial
  | .ackCallback _ _ => isTrue trivial
  | .callbackPost _ _ => isTrue trivial
  | .callbackDelete _ => isTrue trivial

instance {ι : Type*} (w : World ι) (e : PushEvent ι) : Decidable (ReadsKept w e) :=
  match e with
  | .turn n .error => inferInstanceAs (Decidable (∀ t ∈ w.tasks[n]?, MayFail w n t))
  | .turn _ .ok => isTrue trivial
  | .turn _ (.response _) => isTrue trivial
  | .handOver _ _ _ _ => isTrue trivial
  | .worker _ _ => isTrue trivial
  | .ack _ _ _ => isTrue trivial

/-- The timeout's read fails while an ack that found the timer too is at work. -/
def readFailsBesideAck : List (PushEvent Unit) :=
  sendPush ++ [.ack () "clid-0" "6c84fb90-12c4-11e1-840d-7b25c5ee775a", .turn 0 .ok, .turn 1 .ok,
    .turn 0 .ok, .turn 0 .error, .turn 0 .ok, .turn 0 .ok]

theorem notDropped_readFailsBesideAck : AllStates (pushStep 3) NotDropped
    (.create fun _ => ("10.0.0.1:8443", 1)) readFailsBesideAck :=
  (notDropped_iff_readsKept 3 (fun _ => ("10.0.0.1:8443", 1)) readFailsBesideAck _ rfl).mpr
    (by decide)

/-- The read of an ack fails after it has cancelled the timer. -/
def readFailsInAck : List (PushEvent Unit) :=
  sendPush ++ [.ack () "clid-0" "6c84fb90-12c4-11e1-840d-7b25c5ee775a", .turn 1 .ok, .turn 0 .error]

/-- The client is told 500, and the stored push has no timer, no handler and no callback. -/
theorem not_notDropped_readFailsInAck : ∃ w,
    run (pushStep 3) (.create fun _ => ("10.0.0.1:8443", 1)) readFailsInAck = some w ∧
      w.log.getLast? = some
        (.refused ⟨0, "clid-0", "6c84fb90-12c4-11e1-840d-7b25c5ee775a"⟩ Ack.dbError) ∧
      w.rows.find 0 ≠ none ∧ w.tasks = [] ∧ statuses 0 w.log = [] ∧ ¬ NotDropped w := by
  refine ⟨_, rfl, by decide, by decide, by decide, by decide, fun h => ?_⟩
  obtain ⟨x, hx, -⟩ := h.armed _ rfl
  exact absurd hx (List.not_mem_nil)

end Elephant.Push
