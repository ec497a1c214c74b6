import Elephant.Push.Invariant

/-! The guard of a timeout (`model/session.coffee`, `removePushTimer`; `push/timer.coffee`).

    A push timer is taken off its session by whichever comes first:

        cancel     ──▶ removePushTimer
        onTimeout  ──▶ removePushTimer ──true──▶ the push is reported as timed out
                                       ╰─false─▶ backs out

    The test in `removePushTimer` asks for a property that is never there, so the answer is `true`
    whether or not the timer is registered. The main result says what is left of the removal's
    contract and of the guard that rests on it. -/

namespace Elephant.Push
open Elephant.Schemes

/-- What runs on a started timer, in any order: a timeout may have been scheduled already when it was
    cleared. -/
inductive TimerOp where
  | cancel
  | onTimeout
  deriving DecidableEq, Repr

/-- A session whose timers are registered under UUIDs, and a timer of a push with a UUID. -/
structure TimedSession (ι : Type*) where
  pushTimers : PlainObject (PushTimer ι)
  timer : PushTimer ι
  registered : ∀ r ∈ pushTimers, r.length = 36
  uuid : timer.push.requestId.length = 36

section

variable {ι : Type*}

/-- The timers of the session after it, and whether an `onTimeout` got past `_removeTimer`. -/
def PushTimer.act (timer : PushTimer ι) (o : PlainObject (PushTimer ι)) :
    TimerOp → PlainObject (PushTimer ι) × Bool
  | .cancel => ((removePushTimer o timer.push.requestId).1, false)
  | .onTimeout => removePushTimer o timer.push.requestId

/-- For each operation in order, whether it is an `onTimeout` that got past. -/
def PushTimer.passes (timer : PushTimer ι) : PlainObject (PushTimer ι) → List TimerOp → List Bool
  | _, [] => []
  | o, op :: ops => (timer.act o op).2 :: timer.passes (timer.act o op).1 ops

/-- `PushTimer.start`. -/
def TimedSession.started (x : TimedSession ι) : PlainObject (PushTimer ι) :=
  addPushTimer x.pushTimers x.timer.push.requestId x.timer

/-- What `removePushTimer` is for. -/
structure RemovesExactly (o : PlainObject (PushTimer ι)) (requestId : String) : Prop where
  reported : (removePushTimer o requestId).2 = true ↔ requestId ∈ o
  unregistered : requestId ∉ (removePushTimer o requestId).1
  others : ∀ r, r ≠ requestId → (removePushTimer o requestId).1.lookup r = o.lookup r

/-- At most one `onTimeout` gets past, and none after a `cancel`. -/
structure BacksOut (x : TimedSession ι) (ops : List TimerOp) : Prop where
  once : (x.timer.passes x.started ops).count true ≤ 1
  cancelled : ∀ i : ℕ, ops[i]? = some .onTimeout → .cancel ∈ ops.take i →
    (x.timer.passes x.started ops)[i]? = some false

/-- One timeout at most runs, before any cancel. -/
structure NothingToGuard (ops : List TimerOp) : Prop where
  one : ops.count .onTimeout ≤ 1
  first : ∀ i : ℕ, ops[i]? = some .onTimeout → .cancel ∉ ops.take i

end

/-! ### The answer is always `true` -/

section

variable {ι : Type*} {o : PlainObject (PushTimer ι)} {timer : PushTimer ι}

theorem removePushTimer_eq (ho : ∀ r ∈ o, r.length = 36) {requestId : String}
    (hr : requestId.length = 36) : removePushTimer o requestId = (o.erase requestId, true) := by
  have hne : requestId ≠ "" := by rintro rfl; simp at hr
  have hfalse : "false" ∉ o := fun h => absurd (ho _ h) (by decide)
  have hin : o.isIn "false" = false := by
    simp only [PlainObject.isIn, decide_eq_false hfalse, Bool.false_or]
    decide
  rw [removePushTimer, if_neg hne, hin]
  rfl

/-- Every timeout gets past. -/
theorem passes_eq (hr : timer.push.requestId.length = 36) (ops : List TimerOp) :
    ∀ {o : PlainObject (PushTimer ι)}, (∀ r ∈ o, r.length = 36) →
      timer.passes o ops = ops.map fun op => decide (op = .onTimeout) := by
  induction ops with
  | nil => intro o _; rfl
  | cons op ops ih =>
    intro o ho
    have hkeys : ∀ r ∈ o.erase timer.push.requestId, r.length = 36 := fun r hmem =>
      ho r (AList.mem_erase.mp hmem).2
    rw [PushTimer.passes, List.map_cons]
    cases op with
    | cancel =>
      rw [PushTimer.act, removePushTimer_eq ho hr, ih hkeys]
      rfl
    | onTimeout =>
      rw [PushTimer.act, removePushTimer_eq ho hr, ih hkeys]
      rfl

theorem TimedSession.started_uuids (x : TimedSession ι) : ∀ r ∈ x.started, r.length = 36 := by
  intro r hr
  rcases PlainObject.mem_assign.mp hr with ⟨rfl, -⟩ | hr
  · exact x.uuid
  · exact x.registered r hr

theorem removesExactly_iff (x : TimedSession ι) :
    RemovesExactly x.pushTimers x.timer.push.requestId ↔ x.timer.push.requestId ∈ x.pushTimers := by
  have heq := removePushTimer_eq x.registered x.uuid
  constructor
  · intro h
    exact h.reported.mp (by rw [heq])
  · intro h
    refine ⟨by rw [heq]; exact iff_of_true rfl h, ?_, fun r hne => ?_⟩
    · rw [heq]
      exact fun hmem => (AList.mem_erase.mp hmem).1 rfl
    · rw [heq]
      exact AList.lookup_erase_ne hne

theorem backsOut_iff (x : TimedSession ι) (ops : List TimerOp) :
    BacksOut x ops ↔ NothingToGuard ops := by
  have hpasses := passes_eq x.uuid ops x.started_uuids
  have hcount : (x.timer.passes x.started ops).count true = ops.count .onTimeout := by
    rw [hpasses, List.count, List.countP_map, List.count]
    refine List.countP_congr fun op _ => ?_
    simp
  have hat : ∀ i : ℕ, ops[i]? = some .onTimeout →
      (x.timer.passes x.started ops)[i]? = some true := by
    intro i hi
    rw [hpasses, List.getElem?_map, hi]
    rfl
  constructor
  · intro h
    refine ⟨hcount ▸ h.once, fun i hi hcancel => ?_⟩
    have hpassed := (hat i hi).symm.trans (h.cancelled i hi hcancel)
    simp at hpassed
  · rintro ⟨hone, hfirst⟩
    exact ⟨hcount ▸ hone, fun i hi hcancel => absurd hcancel (hfirst i hi)⟩

end

/-- For every session, request id and order of the operations: a removal does what it is for iff the
    timer is registered, and timeouts are held back iff there is nothing to guard against. -/
theorem removesExactly_backsOut_iff {ι : Type*} (x : TimedSession ι) (ops : List TimerOp) :
    (RemovesExactly x.pushTimers x.timer.push.requestId ↔
        x.timer.push.requestId ∈ x.pushTimers) ∧
      (BacksOut x ops ↔ NothingToGuard ops) :=
  ⟨removesExactly_iff x, backsOut_iff x ops⟩

/-- A session without timers, and a timer to be started in it. -/
def freshTimer : TimedSession Unit where
  pushTimers := ∅
  timer := ⟨0, (), .createSession 0 0 ⟨"clid-0", true, "puid-0", "10.0.0.1:8443", none, 0, 1⟩,
    ⟨"clid-0", 0, "6c84fb90-12c4-11e1-840d-7b25c5ee775a"⟩⟩
  registered r hr := absurd hr (AList.notMem_empty r)
  uuid := by decide

/-- The timer is cancelled, and the timeout that was scheduled before gets past; so does another one.
    A removal of a timer that is not there reports success. -/
theorem not_backsOut_cancelled :
    freshTimer.timer.passes freshTimer.started [.cancel, .onTimeout, .onTimeout]
        = [false, true, true] ∧
      ¬ BacksOut freshTimer [.cancel, .onTimeout] ∧ ¬ BacksOut freshTimer [.onTimeout, .onTimeout] ∧
      (removePushTimer freshTimer.pushTimers freshTimer.timer.push.requestId).2 = true ∧
      freshTimer.timer.push.requestId ∉ freshTimer.pushTimers ∧
      ¬ RemovesExactly freshTimer.pushTimers freshTimer.timer.push.requestId := by
  have hafter : ¬ BacksOut freshTimer [.cancel, .onTimeout] := fun h =>
    ((backsOut_iff _ _).mp h).first 1 rfl (by decide)
  have htwice : ¬ BacksOut freshTimer [.onTimeout, .onTimeout] := fun h =>
    absurd ((backsOut_iff _ _).mp h).one (by decide)
  exact ⟨rfl, hafter, htwice, rfl, AList.notMem_empty _,
    fun h => AList.notMem_empty _ ((removesExactly_iff freshTimer).mp h)⟩

/-! ### The turns of the push world -/

/-- The turns that run `_removeTimer` and the cancel of an ack are these operations. -/
theorem removeTimer_act {ι : Type*} [DecidableEq ι] (w : World ι) (timer : PushTimer ι) :
    ((PushTimer.removeTimer w timer).next = [.timeoutRead timer] ↔
        (timer.act (w.pushTimers (timer.worker, timer.session)) .onTimeout).2 = true) ∧
      (w.removeTimer timer).1.pushTimers (timer.worker, timer.session)
        = (timer.act (w.pushTimers (timer.worker, timer.session)) .cancel).1 := by
  constructor
  · unfold PushTimer.removeTimer World.removeTimer PushTimer.act
    cases hremoved :
      (removePushTimer (w.pushTimers (timer.worker, timer.session)) timer.push.requestId).2 with
    | false => simp [hremoved]
    | true => simp [hremoved]
  · simp [World.removeTimer, PushTimer.act]

end Elephant.Push
