import Elephant.Push.Callback

/-! What an app can rely on in every run.

    With late acks and failing database calls an app may hear nothing of its push, or two statuses.
    Some things hold all the same. Two kinds of task can still report on a push: those on the way from
    `message` to a send error or a timeout report a failure, those of an ack report 200.

        message ─▶ … ─▶ armed ─▶ timeoutRemove ─▶ … ─▶ 504         at most one of these
           ╰────────────┴─▶ failureRead ─▶ … ─────────▶ 404, 500
                          (entry) ─▶ ackRead ─▶ ackCallback ─▶ 200     at most one of these

    A turn hands the right to report on or uses it. An ack gets the right from the timer's entry, which is
    there once and which the ack takes away. All of this is for streams that emit one of `finish` and
    `error`, so that `serverPush` completes once. -/

namespace Elephant.Push
open Elephant.Schemes Elephant.Model Elephant.Listen

/-- What the statuses of a push mean, in any run. -/
structure Reliable {ι : Type*} (p : PushRequest) (w : World ι) : Prop where
  success : 200 ∈ statuses p.pushIndex w.log ↔ ∃ a, .acked p.pushIndex a ∈ w.log
  own : ∀ a, .acked p.pushIndex a ∈ w.log → Own p a
  failure : ∀ st ∈ statuses p.pushIndex w.log, st = 200 ∨ st = 504 ∧ .timedOut p.pushIndex ∈ w.log ∨
    ∃ e, .sendFailed p.pushIndex e ∈ w.log ∧ st = e.status
  successOnce : (statuses p.pushIndex w.log).countP (· = 200) ≤ 1
  failureOnce : (statuses p.pushIndex w.log).countP (· ≠ 200) ≤ 1
  unsent : ∀ e, .sendFailed p.pushIndex e ∈ w.log → 200 ∉ statuses p.pushIndex w.log
  deleted : w.log.count (.rowDeleted p.pushIndex) ≤ (statuses p.pushIndex w.log).length

/-! ### Who can still report -/

section

variable {ι : Type*}

/-- The push of which the task can still report a failure. -/
def Task.failing? : Task ι → Option ℕ
  | .message _ m => some m.pushIndex
  | .serverPush _ m _ => some m.pushIndex
  | .stream _ m _ => some m.pushIndex
  | .startTimer _ m _ => some m.pushIndex
  | .armed x => some x.push.pushIndex
  | .timeoutRemove x => some x.push.pushIndex
  | .timeoutRead x => some x.push.pushIndex
  | .timeoutCallback row => some row.pushIndex
  | .failureRead m _ => some m.pushIndex
  | .failureCallback row _ => some row.pushIndex
  | _ => none

/-- The push whose success the task is about to report. -/
def Task.succeeding? : Task ι → Option ℕ
  | .ackRead _ m => some m.pushIndex
  | .ackCallback _ row => some row.pushIndex
  | _ => none

/-- The push whose callback the task is posting, and the one whose row it is going to delete. -/
def Task.posting? : Task ι → Option ℕ
  | .callbackPost cb _ => some cb.pushRequest.pushIndex
  | _ => none

def Task.deleting? : Task ι → Option ℕ
  | .callbackDelete cb => some cb.pushRequest.pushIndex
  | _ => none

def Task.fails (k : ℕ) (t : Task ι) : Bool := t.failing? = some k
def Task.succeeds (k : ℕ) (t : Task ι) : Bool := t.succeeding? = some k
def Task.posts (k : ℕ) (t : Task ι) : Bool := t.posting? = some k
def Task.deletes (k : ℕ) (t : Task ι) : Bool := t.deleting? = some k

def Effect.isFailure (k : ℕ) : Effect → Bool
  | .callbackStarted j st => j = k ∧ st ≠ 200
  | _ => false

def Effect.isSuccess (k : ℕ) : Effect → Bool
  | .callbackStarted j st => j = k ∧ st = 200
  | _ => false

def Effect.isAck (k : ℕ) : Effect → Bool
  | .acked j _ => j = k
  | _ => false

def Effect.isStart (k : ℕ) : Effect → Bool
  | .callbackStarted j _ => j = k
  | _ => false

/-- Acks find no timer of push `k`, and it will not get one. -/
def Closed (k : ℕ) (w : World ι) : Prop :=
  (∀ i s r x, (w.pushTimers (i, s)).read r = some (.own x) → x.push.pushIndex ≠ k) ∧
    ∀ t ∈ w.tasks, t.about k = true → t.isPre = false

/-- What must have happened for the task to be there. -/
def Backed (pushes : List PushRequest) (log : List Effect) : Task ι → Prop
  | .timeoutRemove x => .timedOut x.push.pushIndex ∈ log
  | .timeoutRead x => .timedOut x.push.pushIndex ∈ log
  | .timeoutCallback row => .timedOut row.pushIndex ∈ log
  | .failureRead m e => e ∈ SendPush.sendErrors ∧ .sendFailed m.pushIndex e ∈ log
  | .failureCallback row e => e ∈ SendPush.sendErrors ∧ .sendFailed row.pushIndex e ∈ log
  | .ackRead a m => ∃ p ∈ pushes, m = pushMsg p ∧ Own p a
  | .ackCallback a row => row ∈ pushes ∧ Own row a
  | _ => True

/-- What else must have happened for the effect to be there. -/
def Justified (pushes : List PushRequest) (log : List Effect) : Effect → Prop
  | .callbackStarted k st => st = 200 ∨ st = 504 ∧ .timedOut k ∈ log ∨
      ∃ e, .sendFailed k e ∈ log ∧ st = e.status
  | .acked k a => ∃ p ∈ pushes, p.pushIndex = k ∧ Own p a
  | _ => True

/-- The rights to report, and what they come from. -/
structure Ledger (w : World ι) : Prop where
  inv : PushInv True w
  failures : ∀ k, w.tasks.countP (Task.fails k) + w.log.countP (Effect.isFailure k) ≤ 1
  successes : ∀ k, w.tasks.countP (Task.succeeds k) + w.log.countP (Effect.isAck k) ≤ 1
  reported : ∀ k, w.log.countP (Effect.isSuccess k) = w.log.countP (Effect.isAck k)
  closed : ∀ k, 0 < w.tasks.countP (Task.succeeds k) + w.log.countP (Effect.isAck k) → Closed k w
  unsent : ∀ k e, .sendFailed k e ∈ w.log → Closed k w ∧
    w.tasks.countP (Task.succeeds k) + w.log.countP (Effect.isAck k) = 0
  posted : ∀ k, w.tasks.countP (Task.posts k) + w.log.count (.callbackFinished k)
    ≤ w.log.countP (Effect.isStart k)
  deleted : ∀ k, w.tasks.countP (Task.deletes k) + w.log.count (.rowDeleted k)
    ≤ w.log.count (.callbackFinished k)
  backed : ∀ t ∈ w.tasks, Backed w.pushes w.log t
  justified : ∀ e ∈ w.log, Justified w.pushes w.log e

variable {w : World ι} {k : ℕ}

theorem Task.about_of_fails {t : Task ι} (h : t.fails k = true) : t.about k = true := by
  cases t <;> simp_all [Task.fails, Task.failing?, Task.about, Task.push?, pushMsg]

theorem Task.about_of_succeeds {t : Task ι} (h : t.succeeds k = true) : t.about k = true := by
  cases t <;> simp_all [Task.succeeds, Task.succeeding?, Task.about, Task.push?, pushMsg]

theorem Task.fails_of_isPre {t : Task ι} (hpre : t.isPre = true) (hk : t.about k = true) :
    t.fails k = true := by
  cases t <;> simp_all [Task.fails, Task.failing?, Task.about, Task.push?, Task.isPre]

theorem backed_mono {pushes pushes' : List PushRequest} {log log' : List Effect} {t : Task ι}
    (hpushes : pushes ⊆ pushes') (hlog : log ⊆ log') (h : Backed pushes log t) :
    Backed pushes' log' t := by
  cases t with
  | ackRead a m =>
    obtain ⟨p, hp, hown⟩ := h
    exact ⟨p, hpushes hp, hown⟩
  | ackCallback a row => exact ⟨hpushes h.1, h.2⟩
  | failureRead m e => exact ⟨h.1, hlog h.2⟩
  | failureCallback row e => exact ⟨h.1, hlog h.2⟩
  | timeoutRemove x => exact hlog h
  | timeoutRead x => exact hlog h
  | timeoutCallback row => exact hlog h
  | _ => trivial

theorem justified_mono {pushes pushes' : List PushRequest} {log log' : List Effect} {e : Effect}
    (hpushes : pushes ⊆ pushes') (hlog : log ⊆ log') (h : Justified pushes log e) :
    Justified pushes' log' e := by
  cases e with
  | callbackStarted k st =>
    rcases h with h | ⟨h, hout⟩ | ⟨e, hfail, h⟩
    · exact .inl h
    · exact .inr (.inl ⟨h, hlog hout⟩)
    · exact .inr (.inr ⟨e, hlog hfail, h⟩)
  | acked k a =>
    obtain ⟨p, hp, hown⟩ := h
    exact ⟨p, hpushes hp, hown⟩
  | _ => trivial

/-- Two tasks that can report the failure of one push are the same. -/
theorem Ledger.fails_unique (hL : Ledger w) {t t' : Task ι} (ht : t ∈ w.tasks) (ht' : t' ∈ w.tasks)
    (hk : t.fails k = true) (hk' : t'.fails k = true) : t = t' :=
  eq_of_countP_le_one (Nat.le_of_add_right_le (hL.failures k)) ht ht' hk hk'

/-- The timer of a registered entry can still report a failure of its push. -/
theorem Ledger.exists_fails (hL : Ledger w) {i : ι} {s : Session} {r : String} {x : PushTimer ι}
    (hx : (w.pushTimers (i, s)).read r = some (.own x)) :
    ∃ t ∈ w.tasks, t.fails x.push.pushIndex = true ∧ (t = .armed x ∨ t = .timeoutRemove x) := by
  obtain ⟨-, -, -, -, htask⟩ := hL.inv.entries i s r x hx
  rcases htask with h | h
  · exact ⟨_, h, by simp [Task.fails, Task.failing?], .inl rfl⟩
  · exact ⟨_, h, by simp [Task.fails, Task.failing?], .inr rfl⟩

/-- A push has at most one entry. -/
theorem Ledger.entry_unique (hL : Ledger w) {i i' : ι} {s s' : Session} {r r' : String}
    {x x' : PushTimer ι} (hx : (w.pushTimers (i, s)).read r = some (.own x))
    (hx' : (w.pushTimers (i', s')).read r' = some (.own x'))
    (hk : x.push.pushIndex = x'.push.pushIndex) : x = x' := by
  obtain ⟨t, ht, hfails, hform⟩ := hL.exists_fails hx
  obtain ⟨t', ht', hfails', hform'⟩ := hL.exists_fails hx'
  obtain rfl := hL.fails_unique ht ht' hfails (hk ▸ hfails')
  rcases hform with rfl | rfl
  · simpa using hform'
  · simpa using hform'

/-- The pushes that the ledger speaks of were handed over. -/
theorem Ledger.lt_of_pos (hL : Ledger w)
    (h : 0 < w.tasks.countP (Task.succeeds k) + w.log.countP (Effect.isAck k)) :
    k < w.pushes.length := by
  rcases Nat.eq_zero_or_pos (w.tasks.countP (Task.succeeds k)) with hzero | hpos
  · obtain ⟨e, he, hk⟩ := List.countP_pos_iff.mp (show 0 < w.log.countP (Effect.isAck k) by omega)
    refine hL.inv.logged e he k ?_
    cases e <;> simp_all [Effect.isAck, Effect.about]
  · obtain ⟨t, ht, hk⟩ := List.countP_pos_iff.mp hpos
    exact hL.inv.lt_of_about ht (Task.about_of_succeeds hk)

/-- A push is handed over: its message is the first task that can report on it. -/
theorem Ledger.handOver (hL : Ledger w) {i : ι} {row : PushRequest} {rows : PushTable}
    (hindex : row.pushIndex = w.pushes.length)
    (hI : PushInv True { w with
      rows := rows, pushes := w.pushes ++ [row], tasks := w.tasks ++ [.message i (pushMsg row)] }) :
    Ledger { w with
      rows := rows, pushes := w.pushes ++ [row], tasks := w.tasks ++ [.message i (pushMsg row)] } := by
  have hclosed {k : ℕ} (hk : k < w.pushes.length) (hc : Closed k w) : Closed k { w with
      rows := rows, pushes := w.pushes ++ [row], tasks := w.tasks ++ [.message i (pushMsg row)] } := by
    refine ⟨hc.1, fun t ht hab => ?_⟩
    rcases List.mem_append.mp ht with hold | hnew
    · exact hc.2 t hold hab
    · obtain rfl := List.mem_singleton.mp hnew
      simp [Task.about, Task.push?, pushMsg, hindex] at hab
      omega
  refine ⟨hI, fun k => ?_, fun k => ?_, hL.reported, fun k hpos => ?_, fun k e he => ?_, fun k => ?_,
    fun k => ?_, fun t ht => ?_, fun e he => ?_⟩
  · simp only [List.countP_append, List.countP_singleton, Task.fails, Task.failing?, pushMsg, hindex,
      Option.some.injEq, decide_eq_true_eq]
    by_cases hk : w.pushes.length = k
    · -- nothing speaks of the index that the push gets
      have htasks : w.tasks.countP (Task.fails k) = 0 := by
        rw [List.countP_eq_zero]
        intro t ht hfails
        exact absurd (hL.inv.lt_of_about ht (Task.about_of_fails hfails)) (by omega)
      have hlog : w.log.countP (Effect.isFailure k) = 0 := by
        rw [List.countP_eq_zero]
        intro e he hfails
        refine absurd (hL.inv.logged e he k ?_) (by omega)
        cases e <;> simp_all [Effect.isFailure, Effect.about]
      have : w.tasks.countP (fun t => decide (t.failing? = some k)) = 0 := htasks
      rw [if_pos hk]
      omega
    · rw [if_neg hk]
      exact hL.failures k
  · simpa [List.countP_append, Task.succeeds, Task.succeeding?] using hL.successes k
  · have hpos : 0 < w.tasks.countP (Task.succeeds k) + w.log.countP (Effect.isAck k) := by
      simpa [List.countP_append, Task.succeeds, Task.succeeding?] using hpos
    exact hclosed (hL.lt_of_pos hpos) (hL.closed k hpos)
  · obtain ⟨hc, hzero⟩ := hL.unsent k e he
    refine ⟨hclosed (hL.inv.logged _ he k (by simp [Effect.about])) hc, ?_⟩
    simpa [List.countP_append, Task.succeeds, Task.succeeding?] using hzero
  · simpa [List.countP_append, Task.posts, Task.posting?] using hL.posted k
  · simpa [List.countP_append, Task.deletes, Task.deleting?] using hL.deleted k
  · rcases List.mem_append.mp ht with hold | hnew
    · exact backed_mono (List.subset_append_left _ _) (List.Subset.refl _) (hL.backed t hold)
    · obtain rfl := List.mem_singleton.mp hnew
      trivial
  · exact justified_mono (List.subset_append_left _ _) (List.Subset.refl _) (hL.justified e he)

end

/-! ### A turn -/

section

variable {ι : Type*} [DecidableEq ι] {retries : ℕ} {w w' : World ι} {n k : ℕ} {t : Task ι} {o : Outcome}
  {turn : Turn ι}

/-- A turn that leaves and logs at most `m` more than its task counts for and than it logs besides. -/
theorem count_after {a : Task ι → Bool} {b c : Effect → Bool} {l m : ℕ} (hn : w.tasks[n]? = some t)
    (hturn : turn.next.countP a + turn.effects.countP b
      ≤ (if a t then 1 else 0) + turn.effects.countP c + m)
    (h : w.tasks.countP a + w.log.countP b ≤ w.log.countP c + l) :
    (w.after n turn).tasks.countP a + (w.after n turn).log.countP b
      ≤ (w.after n turn).log.countP c + l + m := by
  have hclear : (w.after n turn).tasks.countP a ≤ (replaceAt w.tasks n turn.next).countP a :=
    List.Sublist.countP_le List.filter_sublist
  have hpool : (replaceAt w.tasks n turn.next).countP a + (if a t then 1 else 0)
      = w.tasks.countP a + turn.next.countP a := countP_replaceAt hn
  rw [show (w.after n turn).log = w.log ++ turn.effects from rfl, List.countP_append,
    List.countP_append]
  omega

/-- The right to report a failure is handed on, or used. -/
theorem Runs.fails (h : Runs retries w t o turn) (k : ℕ) :
    turn.next.countP (Task.fails k) + turn.effects.countP (Effect.isFailure k)
      ≤ if t.fails k then 1 else 0 := by
  cases h with
  | removed =>
    simp only [PushTimer.removeTimer]
    split <;> simp [Task.fails, Task.failing?, List.countP_cons]
  | timeoutFound hf =>
    simp [Task.fails, Task.failing?, List.countP_cons, pushIndex_of_find hf]
  | failureFound hf =>
    simp [Task.fails, Task.failing?, List.countP_cons, pushIndex_of_find hf]
  | @timeoutStarts row =>
    simp [Task.fails, Task.failing?, PushCallback.send, PushCallback.create, Effect.isFailure,
      List.countP_cons, PushCallback.statusOf, PushTimer.ackTimeout]
  | @failureStarts row e =>
    simp only [PushCallback.send, PushCallback.create, List.countP_cons, List.countP_nil,
      Effect.isFailure, Task.fails, Task.failing?]
    by_cases hk : row.pushIndex = k
    · by_cases hst : PushCallback.statusOf (some e) = 200 <;> simp [hk, hst]
    · simp [hk]
  | _ => simp [Task.fails, Task.failing?, List.countP_cons, SendPush.handleFailure, SendPush.startTimer,
      PushTimer.onTimeout, PushCallback.send, PushCallback.create, PushCallback.done,
      PushCallback.statusOf, Ack.refuse, Effect.isFailure]

/-- The right to report a success is handed on or used, unless an ack takes it. -/
theorem Runs.succeeds (h : Runs retries w t o turn) (k : ℕ) :
    turn.next.countP (Task.succeeds k) + turn.effects.countP (Effect.isAck k)
      ≤ (if t.succeeds k then 1 else 0) +
        if ∃ x ∈ turn.cleared, x.push.pushIndex = k then 1 else 0 := by
  cases h with
  | removed =>
    simp only [PushTimer.removeTimer]
    split <;> simp [Task.succeeds, Task.succeeding?]
  | ackFound hf =>
    simp [Task.succeeds, Task.succeeding?, List.countP_cons, pushIndex_of_find hf]
  | ackCancels hs ht =>
    simp [Task.succeeds, Task.succeeding?, List.countP_cons, Effect.isAck]
  | _ => simp [Task.succeeds, Task.succeeding?, List.countP_cons, SendPush.handleFailure,
      SendPush.startTimer, PushTimer.onTimeout, PushCallback.send, PushCallback.create,
      PushCallback.done, Ack.refuse, Effect.isAck]

theorem Runs.posts (h : Runs retries w t o turn) (k : ℕ) :
    turn.next.countP (Task.posts k) + turn.effects.countP (· == .callbackFinished k)
      ≤ (if t.posts k then 1 else 0) + turn.effects.countP (Effect.isStart k) := by
  cases h with
  | removed =>
    simp only [PushTimer.removeTimer]
    split <;> simp [Task.posts, Task.posting?]
  | _ => simp [Task.posts, Task.posting?, List.countP_cons, SendPush.handleFailure, SendPush.startTimer,
      PushTimer.onTimeout, PushCallback.send, PushCallback.create, PushCallback.done, Ack.refuse,
      Effect.isStart]

theorem Runs.deletes (h : Runs retries w t o turn) (k : ℕ) :
    turn.next.countP (Task.deletes k) + turn.effects.countP (· == .rowDeleted k)
      ≤ (if t.deletes k then 1 else 0) + turn.effects.countP (· == .callbackFinished k) := by
  cases h with
  | removed =>
    simp only [PushTimer.removeTimer]
    split <;> simp [Task.deletes, Task.deleting?]
  | _ => simp [Task.deletes, Task.deleting?, List.countP_cons, SendPush.handleFailure,
      SendPush.startTimer, PushTimer.onTimeout, PushCallback.send, PushCallback.create,
      PushCallback.done, Ack.refuse]

theorem status_ne_of_sendErrors {e : HttpError} (h : e ∈ SendPush.sendErrors) : e.status ≠ 200 := by
  revert e; decide

/-- 200 is reported together with the answer to the ack, and at no other time. -/
theorem Runs.reports (h : Runs retries w t o turn) (hb : Backed w.pushes w.log t) (k : ℕ) :
    turn.effects.countP (Effect.isSuccess k) = turn.effects.countP (Effect.isAck k) := by
  cases h with
  | @failureStarts row e =>
    have hst : PushCallback.statusOf (some e) ≠ 200 := by
      rw [status_of_sendErrors hb.1]
      exact status_ne_of_sendErrors hb.1
    simp [PushCallback.send, PushCallback.create, Effect.isSuccess, Effect.isAck, hst]
  | _ => simp [List.countP_cons, SendPush.handleFailure, SendPush.startTimer, PushTimer.onTimeout,
      PushTimer.removeTimer, PushTimer.ackTimeout, PushCallback.send, PushCallback.create,
      PushCallback.done, PushCallback.statusOf, Ack.refuse, Effect.isSuccess, Effect.isAck]

theorem Runs.backed (hI : PushInv True w) (h : Runs retries w t o turn)
    (hb : Backed w.pushes w.log t) : ∀ x ∈ turn.next, Backed w.pushes (w.log ++ turn.effects) x := by
  intro x hx
  cases h with
  | unsent he =>
    obtain rfl := List.mem_singleton.mp hx
    exact ⟨he, List.mem_append_right _ (List.mem_singleton_self _)⟩
  | pushFailed =>
    obtain rfl := List.mem_singleton.mp hx
    exact ⟨by decide, List.mem_append_right _ (List.mem_singleton_self _)⟩
  | streamFailed =>
    obtain rfl := List.mem_singleton.mp hx
    exact ⟨by decide, List.mem_append_right _ (List.mem_singleton_self _)⟩
  | fired =>
    obtain rfl := List.mem_singleton.mp hx
    exact List.mem_append_right _ (List.mem_singleton_self _)
  | removed =>
    simp only [PushTimer.removeTimer, hI.removeTimer_eq, if_true, List.mem_singleton] at hx
    subst hx
    exact List.mem_append_left _ hb
  | timeoutFound hf =>
    obtain rfl := List.mem_singleton.mp hx
    rw [List.append_nil, Backed, pushIndex_of_find hf]
    exact hb
  | failureFound hf =>
    obtain rfl := List.mem_singleton.mp hx
    rw [List.append_nil, Backed, pushIndex_of_find hf]
    exact hb
  | @ackCancels i a s y hs ht =>
    obtain rfl := List.mem_singleton.mp hx
    obtain ⟨-, -, hreq, hclient, htask⟩ := hI.entries i s _ y ht
    obtain ⟨p, hp, hpush⟩ : ∃ p ∈ w.pushes, y.push = pushMsg p :=
      htask.elim (hI.known _ · _ rfl) (hI.known _ · _ rfl)
    rw [hpush] at hreq hclient
    exact ⟨p, hp, hpush, (hI.sessions i _ s hs).symm.trans hclient, hreq.symm⟩
  | @ackFound a m row hf =>
    obtain rfl := List.mem_singleton.mp hx
    obtain ⟨p, hp, rfl, hown⟩ := hb
    obtain ⟨j, hj⟩ := List.mem_iff_getElem?.mp hp
    have hrow := hI.rows _ _ hf
    rw [show (pushMsg p).pushIndex = j from (hI.index j p hj).1, hj, Option.some.injEq] at hrow
    subst hrow
    exact ⟨hp, hown⟩
  | _ =>
    simp [SendPush.startTimer, PushCallback.send, PushCallback.done, Ack.refuse] at hx <;>
      simp [hx, Backed]

theorem Runs.justified (h : Runs retries w t o turn) (hb : Backed w.pushes w.log t) :
    ∀ e ∈ turn.effects, Justified w.pushes (w.log ++ turn.effects) e := by
  intro e he
  cases h with
  | timeoutStarts =>
    obtain rfl := List.mem_singleton.mp he
    exact .inr (.inl ⟨rfl, List.mem_append_left _ hb⟩)
  | failureStarts =>
    obtain rfl := List.mem_singleton.mp he
    exact .inr (.inr ⟨_, List.mem_append_left _ hb.2, status_of_sendErrors hb.1⟩)
  | ackStarts =>
    rcases List.mem_cons.mp he with rfl | he
    · exact .inl rfl
    · obtain rfl := List.mem_singleton.mp he
      exact ⟨_, hb.1, rfl, hb.2⟩
  | _ =>
    simp [SendPush.handleFailure, SendPush.startTimer, PushTimer.onTimeout, PushTimer.removeTimer,
      PushCallback.done, Ack.refuse] at he <;>
      simp [he, Justified]

/-- A push that is closed for acks stays so. -/
theorem Closed.after (hI : PushInv True w) (hn : w.tasks[n]? = some t)
    (hrun : Runs retries w t o turn) (hc : Closed k w) : Closed k (w.after n turn) := by
  have hmem := List.mem_of_getElem? hn
  refine ⟨fun i s r x hx hk => ?_, fun x hx hk => ?_⟩
  · rcases hrun.entry hI hx with hold | rfl
    · exact hc.1 i s r x hold hk
    · have := hc.2 _ hmem (by simp [Task.about, Task.push?, hk])
      simp [Task.isPre] at this
  · rcases mem_tasks_after hx with hold | hnew
    · exact hc.2 x hold hk
    · by_cases hpre : t.isPre = true
      · -- a task before the timer runs out is about another push, and so is what it leaves
        have habout : t.about k = false := by
          by_contra hab
          exact absurd (hc.2 t hmem (by simpa using hab)) (by simp [hpre])
        have hclear : ∀ y ∈ turn.cleared, y.push.pushIndex ≠ k := by
          intro y hy
          obtain ⟨i, a, s, rfl, -⟩ := hI.ack_of_cleared hrun hy
          simp [Task.isPre] at hpre
        have hnone := (hrun.frame habout hclear).1
        exact absurd hk (by simpa using List.filter_eq_nil_iff.mp hnone x hnew)
      · exact (hrun.post (by simpa using hpre)).1 x hnew

namespace Ledger

/-- An ack that takes the entry of a push closes it. -/
theorem closed_cancel (hL : Ledger w) (hrun : Runs retries w t o turn) {x : PushTimer ι}
    (hx : turn.cleared = some x) : Closed x.push.pushIndex (w.after n turn) := by
  obtain ⟨i, a, s, rfl, hs, ht, rfl⟩ := hL.inv.ack_of_cleared hrun hx
  obtain ⟨u, hu, hufails, huform⟩ := hL.exists_fails ht
  refine ⟨fun i' s' r' x' hx' hk => ?_, fun y hy hk => ?_⟩
  · obtain ⟨hkey, hold⟩ := PlainObject.read_of_update_erase _ _ _ _ _ hx'
    obtain rfl := hL.entry_unique hold ht hk
    obtain ⟨hw, hs, hr, -⟩ := hL.inv.entries i' s' r' x' hold
    exact hkey ⟨by rw [hw, hs], hr.symm⟩
  · obtain ⟨hrep, hne⟩ := mem_clear.mp hy
    rcases mem_replaceAt hrep with hold | hnew
    · by_contra hpre
      have hfails := Task.fails_of_isPre (by simpa using hpre) hk
      obtain rfl := hL.fails_unique hold hu hfails hufails
      rcases huform with rfl | rfl
      · exact hne rfl
      · simp [Task.isPre] at hpre
    · obtain rfl := List.mem_singleton.mp hnew
      rfl

/-- A send that fails closes its push. -/
theorem closed_unsent (hL : Ledger w) (hn : w.tasks[n]? = some t) (hrun : Runs retries w t o turn)
    {e : HttpError} (he : .sendFailed k e ∈ turn.effects) :
    t.isPre = true ∧ t.about k = true ∧ turn.cleared = none ∧ Closed k (w.after n turn) := by
  have hform : t.isPre = true ∧ t.about k = true ∧ (∀ x, t ≠ .armed x) ∧ turn.cleared = none ∧
      turn.world = w ∧ ∃ m, m.pushIndex = k ∧ turn.next = [.failureRead m e] := by
    cases hrun <;>
      simp_all [SendPush.handleFailure, SendPush.startTimer, PushTimer.onTimeout,
        PushTimer.removeTimer, PushCallback.send, PushCallback.done, Ack.refuse, Task.isPre, Task.about,
        Task.push?]
  obtain ⟨hpre, hk, harmed, hclear, hworld, m, hm, hnext⟩ := hform
  refine ⟨hpre, hk, hclear, fun i s r x hx hxk => ?_, fun y hy hyk => ?_⟩
  · have hx : (w.pushTimers (i, s)).read r = some (.own x) := by
      rwa [show (w.after n turn).pushTimers = w.pushTimers by rw [World.after, hworld]] at hx
    obtain ⟨u, hu, hfails, hform⟩ := hL.exists_fails hx
    obtain rfl := hL.fails_unique hu (List.mem_of_getElem? hn) (hxk ▸ hfails)
      (Task.fails_of_isPre hpre hk)
    rcases hform with rfl | rfl
    · exact harmed x rfl
    · simp [Task.isPre] at hpre
  · have hone : (w.after n turn).tasks.countP (Task.fails k) ≤ 1 := by
      have := count_after (c := fun _ => false) (l := 1) (m := 0) hn
        (by simpa using hrun.fails k) (by simpa using hL.failures k)
      simp at this
      omega
    by_contra hypre
    have hmem : .failureRead m e ∈ (w.after n turn).tasks :=
      mem_after_next (by rw [hnext]; exact List.mem_singleton_self _) hclear
    obtain rfl := eq_of_countP_le_one hone hy hmem (Task.fails_of_isPre (by simpa using hypre) hyk)
      (by simp [Task.fails, Task.failing?, hm])
    simp [Task.isPre] at hypre

/-- Where no entry of push `k` is taken, no right to report its success appears. -/
theorem succeeds_after (hn : w.tasks[n]? = some t) (hrun : Runs retries w t o turn)
    (hclear : ∀ x ∈ turn.cleared, x.push.pushIndex ≠ k) :
    (w.after n turn).tasks.countP (Task.succeeds k) + (w.after n turn).log.countP (Effect.isAck k)
      ≤ w.tasks.countP (Task.succeeds k) + w.log.countP (Effect.isAck k) := by
  have hno : ¬ ∃ x ∈ turn.cleared, x.push.pushIndex = k := fun ⟨x, hx, hk⟩ => hclear x hx hk
  have hturn := hrun.succeeds k
  rw [if_neg hno] at hturn
  simpa using count_after (c := fun _ => false) (m := 0) hn (by simpa using hturn)
    (l := w.tasks.countP (Task.succeeds k) + w.log.countP (Effect.isAck k)) (by simp)

/-- An entry that is taken shows that its push was not closed. -/
theorem not_closed_of_cleared (hL : Ledger w) (hrun : Runs retries w t o turn) {x : PushTimer ι}
    (hx : x ∈ turn.cleared) : ¬ Closed x.push.pushIndex w := by
  obtain ⟨i, a, s, -, -, ht, -⟩ := hL.inv.ack_of_cleared hrun hx
  exact fun hc => hc.1 i s _ x ht rfl

theorem after (hL : Ledger w) (hn : w.tasks[n]? = some t) (hrun : Runs retries w t o turn) :
    Ledger (w.after n turn) := by
  have hmem := List.mem_of_getElem? hn
  have hpushes : (w.after n turn).pushes = w.pushes := hrun.same.1
  refine ⟨hL.inv.after hn hrun (Or.inl trivial), fun k => ?_, fun k => ?_, fun k => ?_,
    fun k hpos => ?_, fun k e he => ?_, fun k => ?_, fun k => ?_, fun x hx => ?_, fun e he => ?_⟩
  · simpa using count_after (c := fun _ => false) (l := 1) (m := 0) hn
      (by simpa using hrun.fails k) (by simpa using hL.failures k)
  · by_cases hx : ∃ x ∈ turn.cleared, x.push.pushIndex = k
    · obtain ⟨x, hx, rfl⟩ := hx
      have hzero : w.tasks.countP (Task.succeeds x.push.pushIndex)
          + w.log.countP (Effect.isAck x.push.pushIndex) = 0 := by
        by_contra hpos
        exact hL.not_closed_of_cleared hrun hx (hL.closed _ (Nat.pos_of_ne_zero hpos))
      have hturn := hrun.succeeds x.push.pushIndex
      simp only [show ∃ y ∈ turn.cleared, y.push.pushIndex = x.push.pushIndex from ⟨x, hx, rfl⟩,
        if_true] at hturn
      simpa using count_after (c := fun _ => false) (l := 0) (m := 1) hn (by simpa using hturn)
        (by simpa using hzero)
    · simp only [not_exists, not_and] at hx
      exact (succeeds_after hn hrun hx).trans (hL.successes k)
  · rw [show (w.after n turn).log = w.log ++ turn.effects from rfl, List.countP_append,
      List.countP_append, hL.reported k, hrun.reports (hL.backed t hmem) k]
  · by_cases hx : ∃ x ∈ turn.cleared, x.push.pushIndex = k
    · obtain ⟨x, hx, rfl⟩ := hx
      exact hL.closed_cancel hrun hx
    · simp only [not_exists, not_and] at hx
      exact (hL.closed k (hpos.trans_le (succeeds_after hn hrun hx))).after hL.inv hn hrun
  · rcases List.mem_append.mp he with hold | hnew
    · obtain ⟨hclosed, hzero⟩ := hL.unsent k e hold
      refine ⟨hclosed.after hL.inv hn hrun, Nat.le_zero.mp (hzero ▸ succeeds_after hn hrun ?_)⟩
      rintro x hx rfl
      exact hL.not_closed_of_cleared hrun hx hclosed
    · obtain ⟨hpre, hk, hclear, hclosed⟩ := hL.closed_unsent hn hrun hnew
      refine ⟨hclosed, ?_⟩
      have hzero : w.tasks.countP (Task.succeeds k) + w.log.countP (Effect.isAck k) = 0 := by
        by_contra hpos
        exact absurd ((hL.closed k (Nat.pos_of_ne_zero hpos)).2 t hmem hk) (by simp [hpre])
      refine Nat.le_zero.mp (hzero ▸ succeeds_after hn hrun ?_)
      simp [hclear]
  · exact count_after (l := 0) (m := 0) hn (hrun.posts k) (hL.posted k)
  · exact count_after (l := 0) (m := 0) hn (hrun.deletes k) (hL.deleted k)
  · rw [hpushes]
    rcases mem_tasks_after hx with hold | hnew
    · exact backed_mono (List.Subset.refl _) (List.subset_append_left _ _) (hL.backed x hold)
    · exact hrun.backed hL.inv (hL.backed t hmem) x hnew
  · rw [hpushes]
    rcases List.mem_append.mp he with hold | hnew
    · exact justified_mono (List.Subset.refl _) (List.subset_append_left _ _) (hL.justified e hold)
    · exact hrun.justified (hL.backed t hmem) e hnew

/-! ### Every event -/

theorem step {e : PushEvent ι} (hL : Ledger w) (hstep : pushStep retries w e = some w') :
    Ledger w' := by
  have hinv : PushInv True w' := hL.inv.step (Or.inl trivial) hstep
  cases e with
  | handOver i c r callback =>
    simp only [pushStep] at hstep
    split at hstep
    · obtain ⟨rows, -, rfl⟩ := Option.map_eq_some_iff.mp hstep
      exact hL.handOver rfl hinv
    · simp at hstep
  | worker i e =>
    obtain ⟨s, -, rfl⟩ := Option.map_eq_some_iff.mp hstep
    exact ⟨hinv, hL.failures, hL.successes, hL.reported, hL.closed, hL.unsent, hL.posted, hL.deleted,
      hL.backed, hL.justified⟩
  | ack i c r =>
    obtain rfl := Option.some.inj hstep
    have hclosed {k : ℕ} (hc : Closed k w) : Closed k { w with
        nextAck := w.nextAck + 1, tasks := w.tasks ++ [.ackCancel i ⟨w.nextAck, c, r⟩] } := by
      refine ⟨hc.1, fun t ht hab => ?_⟩
      rcases List.mem_append.mp ht with hold | hnew
      · exact hc.2 t hold hab
      · obtain rfl := List.mem_singleton.mp hnew
        rfl
    refine ⟨hinv, fun k => ?_, fun k => ?_, hL.reported, fun k hpos => hclosed (hL.closed k ?_),
      fun k e he => ⟨hclosed (hL.unsent k e he).1, ?_⟩, fun k => ?_, fun k => ?_, fun t ht => ?_,
      hL.justified⟩
    · simpa [List.countP_append, Task.fails, Task.failing?] using hL.failures k
    · simpa [List.countP_append, Task.succeeds, Task.succeeding?] using hL.successes k
    · simpa [List.countP_append, Task.succeeds, Task.succeeding?] using hpos
    · simpa [List.countP_append, Task.succeeds, Task.succeeding?] using (hL.unsent k e he).2
    · simpa [List.countP_append, Task.posts, Task.posting?] using hL.posted k
    · simpa [List.countP_append, Task.deletes, Task.deleting?] using hL.deleted k
    · rcases List.mem_append.mp ht with hold | hnew
      · exact hL.backed t hold
      · obtain rfl := List.mem_singleton.mp hnew
        trivial
  | turn n o =>
    obtain ⟨t, turn, hn, hrun, rfl⟩ := pushStep_turn hstep
    exact hL.after hn hrun

theorem create {ι : Type*} (ids : ι → ServerId × WorkerId) : Ledger (.create ids) := by
  refine ⟨PushInv.create True ids, ?_, ?_, ?_, ?_, ?_, ?_, ?_, ?_, ?_⟩ <;> simp [World.create]

theorem reliable {ι : Type*} {w : World ι} (hL : Ledger w) {p : PushRequest} (hp : p ∈ w.pushes) :
    Reliable p w := by
  have hsuccess : (statuses p.pushIndex w.log).countP (· = 200)
      = w.log.countP (Effect.isSuccess p.pushIndex) := by
    rw [statuses, List.countP_filterMap]
    refine List.countP_congr fun e _ => ?_
    cases e <;> simp [Effect.isSuccess]
    split <;> simp_all
  have hfailure : (statuses p.pushIndex w.log).countP (· ≠ 200)
      = w.log.countP (Effect.isFailure p.pushIndex) := by
    rw [statuses, List.countP_filterMap]
    refine List.countP_congr fun e _ => ?_
    cases e <;> simp [Effect.isFailure]
    split <;> simp_all
  have hstarted : (statuses p.pushIndex w.log).length = w.log.countP (Effect.isStart p.pushIndex) := by
    rw [statuses, List.length_filterMap_eq_countP]
    refine List.countP_congr fun e _ => ?_
    cases e <;> simp [Effect.isStart]
  have hacked : 0 < w.log.countP (Effect.isAck p.pushIndex) ↔ ∃ a, .acked p.pushIndex a ∈ w.log := by
    rw [List.countP_pos_iff]
    constructor
    · rintro ⟨e, he, hk⟩
      cases e <;> simp [Effect.isAck] at hk
      subst hk
      exact ⟨_, he⟩
    · rintro ⟨a, ha⟩
      exact ⟨_, ha, by simp [Effect.isAck]⟩
  have h200 : 200 ∈ statuses p.pushIndex w.log ↔ ∃ a, .acked p.pushIndex a ∈ w.log := by
    rw [← hacked, ← hL.reported, ← hsuccess, List.countP_pos_iff]
    simp
  refine ⟨h200, fun a ha => ?_, fun st hst => hL.justified _ (mem_statuses.mp hst), ?_, ?_,
    fun e he h => ?_, ?_⟩
  · obtain ⟨q, hq, hk, hown⟩ := hL.justified _ ha
    obtain ⟨j, hj⟩ := List.mem_iff_getElem?.mp hq
    obtain ⟨j', hj'⟩ := List.mem_iff_getElem?.mp hp
    rw [(hL.inv.index j q hj).1, (hL.inv.index j' p hj').1] at hk
    subst hk
    obtain rfl := Option.some.inj (hj.symm.trans hj')
    exact hown
  · rw [hsuccess, hL.reported]
    exact Nat.le_of_add_left_le (hL.successes p.pushIndex)
  · rw [hfailure]
    exact Nat.le_of_add_left_le (hL.failures p.pushIndex)
  · have hpos := hacked.mpr (h200.mp h)
    have hzero := (hL.unsent _ e he).2
    omega
  · have hpost := hL.posted p.pushIndex
    have hdelete := hL.deleted p.pushIndex
    omega

end Ledger

end

/-- In every state of every run, whatever the database, the receivers and the clocks do: an app is told
    200 at most once, together with the answer to an ack of the push's own client and request id; it is
    told of a failure at most once, for a send that failed or a timeout; it is never told both of a failed
    send and of a success; and every deletion of the row follows a callback of its own. -/
theorem push_reliable {ι : Type*} [DecidableEq ι] (retries : ℕ) (ids : ι → ServerId × WorkerId)
    (es : List (PushEvent ι)) :
    AllStates (pushStep retries) (fun w => ∀ p ∈ w.pushes, Reliable p w) (.create ids) es := by
  intro pre w _ hrun p hp
  have hL : Ledger w :=
    inv_run (fun _ _ _ hL _ hs => hL.step hs) (Ledger.create ids) (allSteps_true _ _) hrun
  exact hL.reliable hp

end Elephant.Push
