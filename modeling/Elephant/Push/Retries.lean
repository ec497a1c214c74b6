import Elephant.Schemes.Retry
import Elephant.Push.World

/-! One push callback, from `send` to its end (`push/callback.coffee`).

        no url ────────────────────────────────────────────▶ deletePushRequestByIndex
        post 0 ─▶ completed 0 ─retry─▶ … ─▶ completed k ───▶ deletePushRequestByIndex

    The receiver's answers are a stream of outcomes, one for each attempt. -/

namespace Elephant.Push
open Elephant.Schemes Elephant.Schemes.Retry

/-- How `request.post` comes out. -/
inductive PostOutcome where
  | error
  | response (statusCode : ℕ)
  deriving DecidableEq, Repr

/-- What `_send` calls back with. -/
inductive SendError where
  | request
  | temporaryOutage
  deriving DecidableEq, Repr

inductive CallbackEvent where
  | post (attempt : ℕ) (options : RequestOptions)
  | completed (attempt : ℕ) (outcome : PostOutcome)
  | deletePushRequestByIndex (pushIndex : ℕ)
  deriving DecidableEq, Repr

def CallbackEvent.isPost : CallbackEvent → Bool
  | .post _ _ => true
  | _ => false

/-- A network error, or a status that indicates an outage of the receiver. -/
def PostOutcome.Temporary (o : PostOutcome) : Prop :=
  o = .error ∨ o = .response 502 ∨ o = .response 503 ∨ o = .response 504

namespace PushCallback

/-- The error of `_send`'s completion callback. -/
def sendError : PostOutcome → Option SendError
  | .error => some .request
  | .response statusCode => if statusCode ∈ RETRY_STATUS then some .temporaryOutage else none

/-- `_deletePushRequest`. -/
def deleteEvents (callback : PushCallback) : List CallbackEvent :=
  [.deletePushRequestByIndex callback.pushRequest.pushIndex]

/-- One attempt. `next null` is called when `operation.retry err` is false. -/
def attemptEvents (callback : PushCallback) (attempt : ℕ) (outcome : PostOutcome) (retried : Bool) :
    List CallbackEvent :=
  [.post attempt callback.requestOptions, .completed attempt outcome] ++
    if retried then [] else callback.deleteEvents

/-- `not @pushRequest.callbackUrl`. -/
def NoUrl (callback : PushCallback) : Prop := callback.pushRequest.callbackUrl.getD "" = ""

instance (callback : PushCallback) : Decidable callback.NoUrl :=
  inferInstanceAs (Decidable (_ = _))

/-- `send` with `PUSH_CALLBACK_RETRIES` retries: the waterfall of `_sendWithRetry` and
    `_deletePushRequest`. -/
def sendEvents (retries : ℕ) (callback : PushCallback) (outcomes : ℕ → PostOutcome) :
    List CallbackEvent :=
  if callback.NoUrl then callback.deleteEvents
  else attempt (fun o => (sendError o).isSome) callback.attemptEvents outcomes retries 0

end PushCallback

open PushCallback

/-! ### The attempts -/

theorem isSome_sendError_iff (o : PostOutcome) : (sendError o).isSome = true ↔ o.Temporary := by
  cases o with
  | error => simp [sendError, PostOutcome.Temporary]
  | response statusCode =>
    have hmem : statusCode ∈ RETRY_STATUS ↔ statusCode = 502 ∨ statusCode = 503 ∨ statusCode = 504 := by
      simp [RETRY_STATUS]
    rw [sendError, apply_ite Option.isSome]
    simp [PostOutcome.Temporary, hmem]

/-- The attempts made before the request is deleted. -/
def attemptsMade (callback : PushCallback) (outcomes : ℕ → PostOutcome) (k : ℕ) :
    List CallbackEvent :=
  (List.range k).flatMap fun i => callback.attemptEvents i (outcomes i) true

section

variable (callback : PushCallback) (outcomes : ℕ → PostOutcome)

theorem attemptsMade_succ (k : ℕ) : attemptsMade callback outcomes (k + 1) =
    attemptsMade callback outcomes k ++ callback.attemptEvents k (outcomes k) true := by
  rw [attemptsMade, List.range_succ, List.flatMap_append, List.flatMap_singleton, ← attemptsMade]

theorem sendEvents_eq (retries : ℕ) (h : ¬ callback.NoUrl) : sendEvents retries callback outcomes =
    attemptsMade callback outcomes
        (made (fun o => (sendError o).isSome) outcomes retries 0 + 1) ++ callback.deleteEvents := by
  rw [sendEvents, if_neg h, attempt_eq, ← List.range_eq_range', ← attemptsMade, attemptsMade_succ,
    List.append_assoc, Nat.zero_add]
  rfl

theorem countP_attemptsMade (k : ℕ) :
    (attemptsMade callback outcomes k).countP CallbackEvent.isPost = k := by
  induction k with
  | zero => rfl
  | succ k ih =>
    rw [attemptsMade_succ, List.countP_append, ih]
    rfl

theorem mem_attemptsMade {k : ℕ} {e : CallbackEvent} :
    e ∈ attemptsMade callback outcomes k ↔
      ∃ i < k, e = .post i callback.requestOptions ∨ e = .completed i (outcomes i) := by
  simp [attemptsMade, attemptEvents]

theorem deletion_notMem_attemptsMade (k j : ℕ) :
    .deletePushRequestByIndex j ∉ attemptsMade callback outcomes k := by
  rw [mem_attemptsMade]
  rintro ⟨i, -, h | h⟩
  · exact CallbackEvent.noConfusion h
  · exact CallbackEvent.noConfusion h

theorem completed_mem_attemptsMade {k n : ℕ} {options : RequestOptions}
    (h : .post n options ∈ attemptsMade callback outcomes k) :
    .completed n (outcomes n) ∈ attemptsMade callback outcomes k := by
  rw [mem_attemptsMade] at h ⊢
  obtain ⟨i, hi, h | h⟩ := h
  · rw [CallbackEvent.post.injEq] at h
    exact ⟨n, h.1 ▸ hi, .inr rfl⟩
  · exact CallbackEvent.noConfusion h

end

/-- For every stream of outcomes and number of retries: as many attempts as the retries allow and the
    outcomes ask for, all completed, and then one deletion of the push request. -/
theorem sendEvents_attempts_then_delete (retries : ℕ) (callback : PushCallback)
    (outcomes : ℕ → PostOutcome) :
    (((sendEvents retries callback outcomes).countP CallbackEvent.isPost : ℕ) : ℕ∞) =
        (if callback.NoUrl then 0
          else 1 + min (retries : ℕ∞) (initialRun fun i => (outcomes i).Temporary)) ∧
      ∃ attempts, sendEvents retries callback outcomes
          = attempts ++ [.deletePushRequestByIndex callback.pushRequest.pushIndex] ∧
        (∀ j, .deletePushRequestByIndex j ∉ attempts) ∧
        ∀ n options, .post n options ∈ attempts → .completed n (outcomes n) ∈ attempts := by
  by_cases hurl : callback.NoUrl
  · have hevents : sendEvents retries callback outcomes = callback.deleteEvents := if_pos hurl
    rw [hevents, if_pos hurl]
    refine ⟨rfl, [], rfl, fun _ => List.not_mem_nil, fun n options h => ?_⟩
    exact absurd h List.not_mem_nil
  · have hevents := sendEvents_eq callback outcomes retries hurl
    have hmade := made_eq_min (fun o => (sendError o).isSome) outcomes retries
    simp only [isSome_sendError_iff] at hmade
    refine ⟨?_, _, hevents, deletion_notMem_attemptsMade callback outcomes _,
      fun _ _ => completed_mem_attemptsMade callback outcomes⟩
    have hcount : (sendEvents retries callback outcomes).countP CallbackEvent.isPost
        = 1 + made (fun o => (sendError o).isSome) outcomes retries 0 := by
      rw [hevents, List.countP_append, countP_attemptsMade, Nat.add_comm 1]
      rfl
    rw [if_neg hurl, ← hmade, hcount, Nat.cast_add, Nat.cast_one]

/-! ### The turns of the push world -/

def PostOutcome.toOutcome : PostOutcome → Outcome
  | .error => .error
  | .response statusCode => .response statusCode

/-- The turn that runs on an outcome takes the decision of `operation.retry`. -/
theorem sendWithRetry_next {ι : Type*} (w : World ι) (callback : PushCallback) (left : ℕ)
    (o : PostOutcome) (h : ¬ callback.NoUrl) :
    (sendWithRetry w callback left o.toOutcome).map Turn.next =
      some ((retry left (sendError o).isSome).elim [.callbackDelete callback]
        fun left' => [.callbackPost callback left']) := by
  rw [NoUrl] at h
  unfold sendWithRetry
  rw [if_neg h]
  cases o with
  | error =>
    cases left with
    | zero => rfl
    | succ left => rfl
  | response statusCode =>
    rw [PostOutcome.toOutcome, sendError]
    by_cases hstatus : statusCode ∈ RETRY_STATUS
    · cases left with
      | zero => simp [hstatus, PushCallback.retry, done, Retry.retry]
      | succ left => simp [hstatus, PushCallback.retry, Retry.retry]
    · cases left with
      | zero => simp [hstatus, done, Retry.retry]
      | succ left => simp [hstatus, done, Retry.retry]

/-- What the turns of a callback do in a world, each followed by the tasks it leaves. -/
def turnEvents {ι : Type*} [DecidableEq ι] (retries : ℕ) (w : World ι) (outcomes : ℕ → PostOutcome) :
    ℕ → ℕ → Task ι → List CallbackEvent
  | turns + 1, n, .callbackPost callback left =>
    [.post n callback.requestOptions, .completed n (outcomes n)] ++
      (((exec retries w (.callbackPost callback left) (outcomes n).toOutcome).map Turn.next).getD
        []).flatMap (turnEvents retries w outcomes turns (n + 1))
  | _ + 1, _, .callbackDelete callback => callback.deleteEvents
  | _, _, _ => []

/-- Enough turns of the world are the attempts from there on. -/
theorem turnEvents_eq {ι : Type*} [DecidableEq ι] (retries : ℕ) (w : World ι)
    (outcomes : ℕ → PostOutcome) {callback : PushCallback} (h : ¬ callback.NoUrl)
    (turns left n : ℕ) (hturns : left + 2 ≤ turns) :
    turnEvents retries w outcomes turns n (.callbackPost callback left) =
      attempt (fun o => (sendError o).isSome) callback.attemptEvents outcomes left n := by
  induction turns generalizing left n with
  | zero => omega
  | succ turns ih =>
    obtain ⟨turns', rfl⟩ : ∃ turns', turns = turns' + 1 := ⟨turns - 1, by omega⟩
    have hnext := sendWithRetry_next w callback left (outcomes n) h
    rw [turnEvents, attempt_retry]
    simp only [exec, hnext, Option.getD_some]
    cases hretry : retry left (sendError (outcomes n)).isSome with
    | none => simp [attemptEvents, turnEvents]
    | some left' =>
      have hleft := eq_succ_of_retry hretry
      have hrest := ih left' (n + 1) (by omega)
      simp [attemptEvents, hrest]

end Elephant.Push
