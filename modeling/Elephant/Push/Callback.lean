import Elephant.Push.Invariant
import Elephant.Schemes.Run

/-! What an app is told about its push.

    As long as database calls succeed and acks cancel only timers that have not fired, every push is
    orderly, and an orderly push reports once: 200 after a successful ack of its own client and
    request id, the send error's status after a failed send, 504 after a timeout. -/

namespace Elephant.Push
open Elephant.Schemes Elephant.Model Elephant.Listen

/-- The statuses of the callbacks started for push `k`. -/
def statuses (k : ℕ) (l : List Effect) : List ℕ :=
  l.filterMap fun
    | .callbackStarted j status => if j = k then some status else none
    | _ => none

/-- An ack with the push's own client id and request id was answered with success. -/
def AckedOwn {ι : Type*} (p : PushRequest) (w : World ι) : Prop := ∃ j a, .acked j a ∈ w.log ∧ Own p a

/-- What the callback of a push reports, and what becomes of its row. -/
structure ReportsOnce {ι : Type*} (p : PushRequest) (w : World ι) : Prop where
  once : (statuses p.pushIndex w.log).length ≤ 1
  acked : ∀ st ∈ statuses p.pushIndex w.log, st = 200 ↔ AckedOwn p w
  failed : ∀ st ∈ statuses p.pushIndex w.log, ∀ e, .sendFailed p.pushIndex e ∈ w.log → st = e.status
  timedOut : ∀ st ∈ statuses p.pushIndex w.log, st ≠ 200 →
    (∀ e, .sendFailed p.pushIndex e ∉ w.log) → st = 504
  deletedOnce : w.log.count (.rowDeleted p.pushIndex) ≤ 1
  deletedAfter : .rowDeleted p.pushIndex ∈ w.log →
    [.callbackFinished p.pushIndex, .rowDeleted p.pushIndex].Sublist w.log
  quiescent : w.tasks = [] → (statuses p.pushIndex w.log).length = 1 ∧
    w.log.count (.rowDeleted p.pushIndex) = 1 ∧ w.rows.find p.pushIndex = none

section

variable {ι : Type*} {w : World ι} {p : PushRequest} {k : ℕ}

theorem mem_history {e : Effect} (he : e.about k = true) : e ∈ history w k ↔ e ∈ w.log := by
  simp [history, he]

theorem mem_statuses {l : List Effect} {st : ℕ} :
    st ∈ statuses k l ↔ .callbackStarted k st ∈ l := by
  rw [statuses, List.mem_filterMap]
  constructor
  · rintro ⟨e, he, hst⟩
    cases e <;> simp at hst
    obtain ⟨rfl, rfl⟩ := hst
    exact he
  · exact fun h => ⟨_, h, by simp⟩

theorem statuses_history : statuses k (history w k) = statuses k w.log := by
  rw [statuses, history, List.filterMap_filter]
  refine List.filterMap_congr fun e _ => ?_
  cases e <;> simp [Effect.about]

/-- The effects after a report do not report. -/
theorem statuses_of_history {l tail : List Effect} (hh : history w k = l ++ tail)
    (htail : ∀ e ∈ tail, e = .callbackFinished k ∨ e = .rowDeleted k) :
    statuses k w.log = statuses k l := by
  have hnil : statuses k tail = [] := by
    rw [List.eq_nil_iff_forall_not_mem]
    intro st hst
    simpa using htail _ (mem_statuses.mp hst)
  rw [← statuses_history, hh, statuses, List.filterMap_append, ← statuses, ← statuses, hnil,
    List.append_nil]

theorem count_history : (history w k).count (.rowDeleted k) = w.log.count (.rowDeleted k) :=
  List.count_filter (by simp [Effect.about])

/-- What a started callback says, from its history. -/
theorem Reported.status {l : List Effect} (h : Reported p l) : ∃ st, statuses p.pushIndex l = [st] ∧
    (st = 200 ↔ ∃ a, .acked p.pushIndex a ∈ l) ∧ (∀ a, .acked p.pushIndex a ∈ l → Own p a) ∧
    (∀ e, .sendFailed p.pushIndex e ∈ l → st = e.status) ∧
    (st ≠ 200 → (∀ e, .sendFailed p.pushIndex e ∉ l) → st = 504) ∧
    .rowDeleted p.pushIndex ∉ l := by
  cases h with
  | timeout => exact ⟨504, by simp [statuses], by simp, by simp, by simp, by simp, by simp⟩
  | ack a ha =>
    refine ⟨200, by simp [statuses], by simp, fun b hb => ?_, by simp, by simp, by simp⟩
    obtain rfl : b = a := by simpa using hb
    exact ha
  | failure e l hf =>
    obtain ⟨he, hl⟩ := hf
    have h200 : e.status ≠ 200 := by
      clear hl
      revert e
      decide
    refine ⟨e.status, ?_, ?_, ?_, ?_, ?_, ?_⟩ <;> rcases hl with rfl | rfl <;> simp_all [statuses]

/-- Any other effect of the push is part of the report. -/
theorem mem_of_tail {l tail : List Effect} {e : Effect} (hh : history w k = l ++ tail)
    (htail : ∀ e ∈ tail, e = .callbackFinished k ∨ e = .rowDeleted k)
    (hf : e ≠ .callbackFinished k) (hd : e ≠ .rowDeleted k) : e ∈ history w k ↔ e ∈ l := by
  rw [hh, List.mem_append, or_iff_left fun he => (htail e he).elim hf hd]

/-- An orderly push has not started its callback, or has started it once. -/
theorem Orderly.reported (h : Orderly p w) :
    (statuses p.pushIndex (history w p.pushIndex) = [] ∧
      (∀ a, .acked p.pushIndex a ∉ history w p.pushIndex) ∧
      .rowDeleted p.pushIndex ∉ history w p.pushIndex ∧ tasksOf w p.pushIndex ≠ []) ∨
    ∃ l tail, Reported p l ∧ history w p.pushIndex = l ++ tail ∧
      (∀ e ∈ tail, e = .callbackFinished p.pushIndex ∨ e = .rowDeleted p.pushIndex) ∧
      (.rowDeleted p.pushIndex ∉ tail ∧ tasksOf w p.pushIndex ≠ [] ∨
        tail = [.callbackFinished p.pushIndex, .rowDeleted p.pushIndex] ∧
          w.rows.find p.pushIndex = none) := by
  rcases h with ⟨t, htasks, htold, -⟩ | ⟨-, hrow, l, hl, hh⟩
  · have hne : tasksOf w p.pushIndex ≠ [] := by simp [htasks]
    cases t with
    | callbackPost cb n =>
      exact Or.inr ⟨_, [], htold.2, by simp, by simp, Or.inl ⟨by simp, hne⟩⟩
    | callbackDelete cb =>
      obtain ⟨-, l, hl, hh⟩ := htold
      exact Or.inr ⟨l, _, hl, hh, by simp, Or.inl ⟨by simp, hne⟩⟩
    | failureRead m e =>
      obtain ⟨-, -, hh | hh⟩ := htold <;> exact Or.inl (by simp [hh, hne, statuses])
    | failureCallback row e =>
      obtain ⟨-, -, hh | hh⟩ := htold <;> exact Or.inl (by simp [hh, hne, statuses])
    | ackCancel i a => exact htold.elim
    | _ => simp only [Told] at htold; exact Or.inl (by simp [htold, hne, statuses])
  · exact Or.inr ⟨l, _, hl, hh, by simp, Or.inr ⟨rfl, hrow⟩⟩

theorem PushInv.orderly (hI : PushInv False w) (hp : p ∈ w.pushes) : Orderly p w :=
  (hI.life p hp).resolve_right fun h => h.1

/-- A success is logged for the push whose ids the ack carries. -/
theorem PushInv.ackedOwn_iff (hI : PushInv False w) (hp : p ∈ w.pushes) :
    AckedOwn p w ↔ ∃ a, .acked p.pushIndex a ∈ history w p.pushIndex := by
  have hown {q : PushRequest} (hq : q ∈ w.pushes) {a : AckReq}
      (ha : .acked q.pushIndex a ∈ history w q.pushIndex) : Own q a := by
    rcases (hI.orderly hq).reported with ⟨-, hno, -⟩ | ⟨l, tail, hl, hh, htail, -⟩
    · exact absurd ha (hno a)
    · obtain ⟨-, -, -, hown, -⟩ := hl.status
      exact hown a ((mem_of_tail hh htail (by simp) (by simp)).mp ha)
  constructor
  · rintro ⟨j, a, ha, hpa⟩
    have hj := hI.logged _ ha j (by simp [Effect.about])
    have hq : w.pushes[j]? = some w.pushes[j] := List.getElem?_eq_getElem hj
    have hidx := (hI.index j _ hq).1
    have hmem : w.pushes[j] ∈ w.pushes := List.getElem_mem hj
    have haq : .acked w.pushes[j].pushIndex a ∈ history w w.pushes[j].pushIndex := by
      rw [hidx]
      exact (mem_history (by simp [Effect.about])).mpr ha
    have heq : w.pushes[j] = p := hI.ids _ hmem _ hp ((hown hmem haq).2.symm.trans hpa.2)
    exact ⟨a, heq ▸ haq⟩
  · rintro ⟨a, ha⟩
    exact ⟨_, a, (mem_history (by simp [Effect.about])).mp ha, hown hp ha⟩

theorem PushInv.reportsOnce (hI : PushInv False w) (hp : p ∈ w.pushes) : ReportsOnce p w := by
  have hfailed (e : HttpError) : .sendFailed p.pushIndex e ∈ w.log ↔
      .sendFailed p.pushIndex e ∈ history w p.pushIndex := (mem_history (by simp [Effect.about])).symm
  have hdel : .rowDeleted p.pushIndex ∈ w.log ↔ .rowDeleted p.pushIndex ∈ history w p.pushIndex :=
    (mem_history (by simp [Effect.about])).symm
  have hsub : (history w p.pushIndex).Sublist w.log := List.filter_sublist
  have hidle : w.tasks = [] → tasksOf w p.pushIndex = [] := fun h => by simp [tasksOf, h]
  rcases (hI.orderly hp).reported with ⟨hst, -, hrow, hne⟩ | ⟨l, tail, hl, hh, htail, hrest⟩
  · rw [statuses_history] at hst
    have hcount := List.count_eq_zero.mpr hrow
    rw [count_history] at hcount
    exact ⟨by simp [hst], by simp [hst], by simp [hst], by simp [hst], by simp [hcount],
      fun h => absurd (hdel.mp h) hrow, fun h => absurd (hidle h) hne⟩
  · obtain ⟨st, hst, h200, -, hfail, htime, hrow⟩ := hl.status
    have hall : statuses p.pushIndex w.log = [st] := (statuses_of_history hh htail).trans hst
    have hcount : w.log.count (.rowDeleted p.pushIndex) = tail.count (.rowDeleted p.pushIndex) := by
      rw [← count_history, hh, List.count_append, List.count_eq_zero.mpr hrow, Nat.zero_add]
    have hacked (a : AckReq) := mem_of_tail hh htail (e := .acked p.pushIndex a) (by simp) (by simp)
    have hsent (e : HttpError) := mem_of_tail hh htail (e := .sendFailed p.pushIndex e) (by simp)
      (by simp)
    refine ⟨by simp [hall], ?_, ?_, ?_, ?_, ?_, ?_⟩
    · simpa only [hall, List.mem_singleton, forall_eq, hI.ackedOwn_iff hp, hacked] using h200
    · simpa only [hall, List.mem_singleton, forall_eq, hfailed, hsent] using hfail
    · simpa only [hall, List.mem_singleton, forall_eq, hfailed, hsent] using htime
    · rw [hcount]
      rcases hrest with ⟨hno, -⟩ | ⟨rfl, -⟩
      · rw [List.count_eq_zero.mpr hno]; exact Nat.zero_le _
      · simp
    · intro h
      rw [hdel, hh, List.mem_append, or_iff_right hrow] at h
      rcases hrest with ⟨hno, -⟩ | ⟨rfl, -⟩
      · exact absurd h hno
      · exact (List.sublist_append_right _ _).trans (hh ▸ hsub)
    · intro h
      rcases hrest with ⟨-, hne⟩ | ⟨rfl, hnone⟩
      · exact absurd (hidle h) hne
      · exact ⟨by simp [hall], by rw [hcount]; simp, hnone⟩

end

/-- Every push handed over reports once, in every state of every run in which the database answers
    and no ack cancels a timer that has fired. -/
theorem reportsOnce_of_inTime {ι : Type*} [DecidableEq ι] (retries : ℕ) (ids : ι → ServerId × WorkerId)
    (es : List (PushEvent ι))
    (h : AllSteps (pushStep retries) (fun w e => DbOk w e ∧ InTime w e) (.create ids) es) :
    AllStates (pushStep retries) (fun w => ∀ p ∈ w.pushes, ReportsOnce p w) (.create ids) es := by
  intro pre w hpre hrun p hp
  have hI : PushInv False w := inv_run (fun _ _ _ hI hC hs => hI.step (.inr hC) hs)
    (PushInv.create False ids) (allSteps_initial hpre h) hrun
  exact hI.reportsOnce hp

instance {ι : Type*} [DecidableEq ι] (w : World ι) (e : PushEvent ι) : Decidable (DbOk w e) :=
  match e with
  | .turn n o => inferInstanceAs (Decidable (∀ t ∈ w.tasks[n]?, dbOk t o = true))
  | .handOver _ _ _ _ => isTrue trivial
  | .worker _ _ => isTrue trivial
  | .ack _ _ _ => isTrue trivial

/-- The timer that the task, if it is an ack's cancel, would find. -/
def foundTimer {ι : Type*} (w : World ι) : Option (Task ι) → Option (PushTimer ι)
  | some (.ackCancel i a) =>
    match (w.workers i).sessionManager.getSession a.clientId with
    | some (.own s) =>
      match (w.pushTimers (i, s)).read a.requestId with
      | some (.own x) => some x
      | _ => none
    | _ => none
  | _ => none

theorem inTime_iff {ι : Type*} {w : World ι} {n : ℕ} {o : Outcome} :
    InTime w (.turn n o) ↔ ∀ x ∈ foundTimer w w.tasks[n]?, .armed x ∈ w.tasks := by
  simp only [InTime, foundTimer, Option.mem_def]
  grind

instance {ι : Type*} [DecidableEq ι] (w : World ι) (e : PushEvent ι) : Decidable (InTime w e) :=
  match e with
  | .turn n _ => decidable_of_iff (∀ x ∈ foundTimer w w.tasks[n]?, .armed x ∈ w.tasks) inTime_iff.symm
  | .handOver _ _ _ _ => isTrue trivial
  | .worker _ _ => isTrue trivial
  | .ack _ _ _ => isTrue trivial

/-- A client listens and a push to it is sent, up to the armed timer. -/
def sendPush : List (PushEvent Unit) :=
  [.worker () (.listen 0 (.ofFirst 1 "puid-0")),
    .handOver () "clid-0" "6c84fb90-12c4-11e1-840d-7b25c5ee775a"
      (some ⟨"https://app/done", none, none⟩),
    .turn 0 .ok, .turn 0 .ok, .turn 0 .ok, .turn 0 .ok]

/-- The client acks while the timer is armed. -/
def ackWhileArmed : List (PushEvent Unit) :=
  sendPush ++ [.ack () "clid-0" "6c84fb90-12c4-11e1-840d-7b25c5ee775a", .turn 1 .ok, .turn 0 .ok,
    .turn 0 .ok, .turn 0 (.response 200), .turn 0 .ok]

theorem reportsOnce_ackWhileArmed : ∃ w, run (pushStep 3) (.create fun _ => ("10.0.0.1:8443", 1))
    ackWhileArmed = some w ∧ w.pushes.length = 1 ∧ statuses 0 w.log = [200] ∧
      ∀ p ∈ w.pushes, ReportsOnce p w :=
  ⟨_, rfl, by decide, by decide, reportsOnce_of_inTime 3 (fun _ => ("10.0.0.1:8443", 1)) ackWhileArmed
    (by decide) _ _ (List.prefix_refl _) rfl⟩

/-- The timeout fires and the ack's cancel runs before the timeout's own `_removeTimer`. -/
def ackAfterTimeout : List (PushEvent Unit) :=
  sendPush ++ [.ack () "clid-0" "6c84fb90-12c4-11e1-840d-7b25c5ee775a", .turn 0 .ok, .turn 1 .ok,
    .turn 0 .ok, .turn 1 .ok, .turn 1 .ok, .turn 0 .ok, .turn 0 .ok]

/-- The ack finds the timer that has fired, and `_removeTimer` does not see that it is gone: the app
    is told 200 and 504. -/
theorem not_reportsOnce_ackAfterTimeout : ∃ w,
    run (pushStep 3) (.create fun _ => ("10.0.0.1:8443", 1)) ackAfterTimeout = some w ∧
      AllSteps (pushStep 3) DbOk (.create fun _ => ("10.0.0.1:8443", 1)) ackAfterTimeout ∧
      statuses 0 w.log = [200, 504] ∧ ¬ ∀ p ∈ w.pushes, ReportsOnce p w := by
  refine ⟨_, rfl, by decide, by decide, fun h => ?_⟩
  exact absurd (h _ (List.mem_singleton.mpr rfl)).once (by decide)

end Elephant.Push
