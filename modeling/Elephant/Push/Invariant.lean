import Elephant.Push.Life

/-! The invariant of the push world.

    Rows, request ids, sessions and timers fit together in every world that can be reached, and every
    push is orderly or late. The timer tables of the sessions and the pool agree: a registered timer is
    armed or has just fired, and an armed timer is registered. Hence the test in `removePushTimer`
    never stops a timeout, and an ack finds a timer that is armed or has just fired. -/

namespace Elephant.Push
open Elephant.Schemes Elephant.Model Elephant.Listen

/-- What holds in every world; `L` says whether a push may be late. -/
structure PushInv (L : Prop) (w : World ι) : Prop where
  rows : ∀ k row, w.rows.find k = some row → w.pushes[k]? = some row
  index : ∀ (k : ℕ) (p : PushRequest), w.pushes[k]? = some p →
    p.pushIndex = k ∧ p.requestId.length = 36
  ids : ∀ p ∈ w.pushes, ∀ q ∈ w.pushes, p.requestId = q.requestId → p = q
  sessions : ∀ i c s, (w.workers i).sessionManager.getSession c = some (.own s) → s.clientId = c
  known : ∀ t ∈ w.tasks, ∀ m ∈ t.push?, ∃ p ∈ w.pushes, m = pushMsg p
  logged : ∀ e ∈ w.log, ∀ k, e.about k = true → k < w.pushes.length
  entries : ∀ i s r t, (w.pushTimers (i, s)).read r = some (.own t) →
    t.worker = i ∧ t.session = s ∧ t.push.requestId = r ∧ s.clientId = t.push.clientId ∧
      (.armed t ∈ w.tasks ∨ .timeoutRemove t ∈ w.tasks)
  armed : ∀ t, .armed t ∈ w.tasks →
    (w.pushTimers (t.worker, t.session)).read t.push.requestId = some (.own t)
  life : ∀ p ∈ w.pushes, Orderly p w ∨ L ∧ Late p w

/-- A task that is about another push, or none, does not show. -/
theorem filter_concat_of_not {ι : Type*} {t : Task ι} {k : ℕ} (h : t.about k = false)
    (l : List (Task ι)) : (l ++ [t]).filter (Task.about k) = l.filter (Task.about k) := by
  rw [List.filter_append, List.filter_cons_of_neg (by simp [h]), List.filter_nil, List.append_nil]

/-- The request ids of the tasks are those of pushes that were handed over, so UUIDs. -/
theorem PushInv.length_requestId {ι : Type*} {w : World ι} {L : Prop} (hI : PushInv L w)
    {t : Task ι} (ht : t ∈ w.tasks) {m : PushMsg} (hm : m ∈ t.push?) : m.requestId.length = 36 := by
  obtain ⟨p, hp, rfl⟩ := hI.known t ht m hm
  obtain ⟨k, hk⟩ := List.mem_iff_getElem?.mp hp
  exact (hI.index k p hk).2

theorem PushInv.length_registered {ι : Type*} {w : World ι} {L : Prop} (hI : PushInv L w) {i : ι}
    {s : Session} {r : String} {x : PushTimer ι} (hx : (w.pushTimers (i, s)).lookup r = some x) :
    r.length = 36 := by
  obtain ⟨-, -, hreq, -, htask⟩ := hI.entries i s r x (PlainObject.read_eq_own.mpr hx)
  rw [← hreq]
  rcases htask with h | h <;> exact hI.length_requestId h rfl

theorem PushInv.isIn_eq_false {ι : Type*} {w : World ι} {L : Prop} (hI : PushInv L w) {i : ι}
    {s : Session} {r : String} (hr : r.length < 36) (hproto : r ∉ protoNames) :
    (w.pushTimers (i, s)).isIn r = false := by
  rw [PlainObject.isIn, Bool.or_eq_false_iff, decide_eq_false_iff_not, decide_eq_false_iff_not]
  refine ⟨fun hmem => ?_, hproto⟩
  obtain ⟨x, hx⟩ := Option.isSome_iff_exists.mp (AList.lookup_isSome.mpr hmem)
  have hlen := hI.length_registered hx
  omega

/-- No inherited name has the length of a UUID. -/
theorem ne_proto_of_length {r : String} (h : r.length = 36) : r ≠ "__proto__" := by
  rintro rfl
  exact absurd h (by decide)

theorem notMem_protoNames_of_length {r : String} (h : r.length = 36) : r ∉ protoNames :=
  PlainObject.notMem_protoNames_of_lt (by omega)

/-- A task that is about push `k` shows that the push was handed over. -/
theorem PushInv.lt_of_about {ι : Type*} {w : World ι} {L : Prop} (hI : PushInv L w) {t : Task ι}
    (ht : t ∈ w.tasks) {k : ℕ} (hk : t.about k = true) : k < w.pushes.length := by
  obtain ⟨m, hm, rfl⟩ : ∃ m, t.push? = some m ∧ m.pushIndex = k := by
    simpa [Task.about] using hk
  obtain ⟨p, hp, rfl⟩ := hI.known t ht m hm
  obtain ⟨j, hj⟩ := List.mem_iff_getElem?.mp hp
  rw [show (pushMsg p).pushIndex = j from (hI.index j p hj).1]
  exact (List.getElem?_eq_some_iff.mp hj).1

/-- A task before the timer runs out is the only one of its push. -/
theorem PushInv.pre_unique {ι : Type*} {w : World ι} {L : Prop} (hI : PushInv L w) {t t' : Task ι}
    (ht : t ∈ w.tasks) (ht' : t' ∈ w.tasks) (hpre : t.isPre = true) {m m' : PushMsg}
    (hm : t.push? = some m) (hm' : t'.push? = some m') (hreq : m.requestId = m'.requestId) :
    t = t' ∧ ∃ p ∈ w.pushes, m = pushMsg p ∧ Told p t (history w p.pushIndex) := by
  obtain ⟨p, hp, rfl⟩ := hI.known t ht m hm
  obtain ⟨p', hp', rfl⟩ := hI.known t' ht' m' hm'
  obtain rfl := hI.ids p hp p' hp' hreq
  have hk : t.about p.pushIndex = true := by rw [Task.about, hm]; simp [pushMsg]
  have hk' : t'.about p.pushIndex = true := by rw [Task.about, hm']; simp [pushMsg]
  rcases hI.life p hp with hord | ⟨-, hlate⟩
  · obtain ⟨htasks, htold, -⟩ := hord.token ht hk
    rw [(hord.token ht' hk').1, List.singleton_inj] at htasks
    exact ⟨htasks.symm, p, hp, rfl, htold⟩
  · have := hlate.1 t (List.mem_filter.mpr ⟨ht, hk⟩)
    rw [hpre] at this; simp at this

/-! ### Arrivals -/

section Arrivals

variable {ι : Type*} {w : World ι} {L : Prop}

/-- Nothing is pending under the index that the next push gets, and nothing is logged. -/
theorem PushInv.fresh (hI : PushInv L w) :
    tasksOf w w.pushes.length = [] ∧ history w w.pushes.length = [] := by
  constructor
  · refine List.filter_eq_nil_iff.mpr fun t ht hk => ?_
    exact absurd (hI.lt_of_about ht hk) (Nat.lt_irrefl _)
  · refine List.filter_eq_nil_iff.mpr fun e he hk => ?_
    exact absurd (hI.logged e he _ hk) (Nat.lt_irrefl _)

theorem PushInv.pushIndex_lt (hI : PushInv L w) {p : PushRequest} (hp : p ∈ w.pushes) :
    p.pushIndex < w.pushes.length := by
  obtain ⟨k, hk⟩ := List.mem_iff_getElem?.mp hp
  rw [(hI.index k p hk).1]
  exact (List.getElem?_eq_some_iff.mp hk).1

/-- An earlier push does not see a new one. -/
theorem PushInv.life_handOver (hI : PushInv L w) {i : ι} {row p : PushRequest} {rows : PushTable}
    {pushes : List PushRequest} (hrows : w.rows.insert row = some rows) (hp : p ∈ w.pushes)
    (hne : row.pushIndex ≠ p.pushIndex) :
    Orderly p { w with
        rows := rows, pushes := pushes, tasks := w.tasks ++ [.message i (pushMsg row)] } ∨
      L ∧ Late p { w with
        rows := rows, pushes := pushes, tasks := w.tasks ++ [.message i (pushMsg row)] } := by
  have htasks : (w.tasks ++ [Task.message i (pushMsg row)]).filter (Task.about p.pushIndex)
      = tasksOf w p.pushIndex :=
    filter_concat_of_not (by simp [Task.about, Task.push?, pushMsg, hne]) _
  have hrow : rows.find p.pushIndex = w.rows.find p.pushIndex := Table.find_insert_ne hrows hne.symm
  refine (hI.life p hp).imp (fun hord => ?_) (And.imp_right fun hlate => ?_)
  · rw [Orderly, tasksOf, htasks, hrow]; exact hord
  · rw [Late, tasksOf, htasks]; exact hlate

/-- A push is handed to a worker. -/
theorem PushInv.handOver (hI : PushInv L w) {i : ι} {row : PushRequest} {rows : PushTable}
    (hindex : row.pushIndex = w.pushes.length) (hfresh : freshUuid w row.requestId)
    (hrows : w.rows.insert row = some rows) :
    PushInv L { w with
      rows := rows
      pushes := w.pushes ++ [row]
      tasks := w.tasks ++ [.message i (pushMsg row)] } := by
  have hget : ∀ {k p}, (w.pushes ++ [row])[k]? = some p →
      w.pushes[k]? = some p ∨ k = row.pushIndex ∧ p = row := by
    intro k p hp
    rw [hindex]
    exact getElem?_concat_some hp
  have hmem : ∀ {p}, p ∈ w.pushes ++ [row] → p ∈ w.pushes ∨ p = row := by simp
  refine ⟨fun k r hr => ?_, fun k p hp => ?_, fun p hp q hq hpq => ?_, hI.sessions,
    fun t ht m hm => ?_, fun e he k hk => ?_, fun i s r x hx => ?_, fun x hx => ?_, fun p hp => ?_⟩
  · by_cases hk : k = row.pushIndex
    · subst hk
      rw [Table.find_insert_self hrows, Option.some.injEq] at hr; subst hr
      simp [hindex]
    · rw [Table.find_insert_ne hrows hk] at hr
      exact getElem?_concat_of_some (hI.rows k r hr)
  · rcases hget hp with hp | ⟨rfl, rfl⟩
    · exact hI.index k p hp
    · exact ⟨rfl, hfresh.1⟩
  · rcases hmem hp with hold | rfl <;> rcases hmem hq with hold' | rfl
    · exact hI.ids p hold q hold' hpq
    · exact absurd hpq (hfresh.2 p hold)
    · exact absurd hpq.symm (hfresh.2 q hold')
    · rfl
  · rcases List.mem_append.mp ht with ht | ht
    · obtain ⟨p, hp, hmp⟩ := hI.known t ht m hm
      exact ⟨p, List.mem_append_left _ hp, hmp⟩
    · rw [List.mem_singleton] at ht; subst ht
      exact ⟨row, List.mem_append_right _ (List.mem_singleton_self _), (Option.some.inj hm).symm⟩
  · have := hI.logged e he k hk
    rw [List.length_append]; omega
  · obtain ⟨hw, hs, hr, hc, htask⟩ := hI.entries i s r x hx
    exact ⟨hw, hs, hr, hc, htask.imp (List.mem_append_left _) (List.mem_append_left _)⟩
  · rcases List.mem_append.mp hx with hx | hx
    · exact hI.armed x hx
    · simp at hx
  · rcases hmem hp with hold | rfl
    · have hlt := hI.pushIndex_lt hold
      exact hI.life_handOver hrows hold (by omega)
    · obtain ⟨htasks, hhist⟩ := hI.fresh
      rw [← hindex] at htasks hhist
      refine Or.inl (Or.inl ⟨.message i (pushMsg p), ?_, ⟨rfl, hhist⟩, Table.find_insert_self hrows⟩)
      rw [tasksOf] at htasks
      rw [tasksOf, List.filter_append, htasks]
      simp [Task.about, Task.push?, pushMsg]

/-- A task that is about no push is added: an ack arrives. -/
theorem PushInv.ack (hI : PushInv L w) (i : ι) (a : AckReq) :
    PushInv L { w with nextAck := w.nextAck + 1, tasks := w.tasks ++ [.ackCancel i a] } := by
  have htasks : ∀ k, (w.tasks ++ [Task.ackCancel i a]).filter (Task.about k) = tasksOf w k :=
    fun k => filter_concat_of_not rfl _
  refine ⟨hI.rows, hI.index, hI.ids, hI.sessions, fun t ht m hm => ?_, hI.logged,
    fun i s r x hx => ?_, fun x hx => ?_, fun p hp => ?_⟩
  · rcases List.mem_append.mp ht with ht | ht
    · exact hI.known t ht m hm
    · rw [List.mem_singleton] at ht; subst ht; simp [Task.push?] at hm
  · obtain ⟨hw, hs, hr, hc, htask⟩ := hI.entries i s r x hx
    exact ⟨hw, hs, hr, hc, htask.imp (List.mem_append_left _) (List.mem_append_left _)⟩
  · rcases List.mem_append.mp hx with hx | hx
    · exact hI.armed x hx
    · simp at hx
  · refine (hI.life p hp).imp (fun hord => ?_) (And.imp_right fun hlate => ?_)
    · rw [Orderly, tasksOf, htasks]; exact hord
    · rw [Late, tasksOf, htasks]; exact hlate

end Arrivals

/-! ### Turns -/

section Turn

variable {ι : Type*} [DecidableEq ι] {retries : ℕ} {w w' : World ι} {n : ℕ} {t : Task ι} {o : Outcome}
  {turn : Turn ι} {L : Prop} {p : PushRequest}

/-- The world after a turn of the task at position `n`. -/
def World.after (w : World ι) (n : ℕ) (turn : Turn ι) : World ι :=
  { turn.world with
    tasks := clear turn.cleared (replaceAt w.tasks n turn.next)
    log := w.log ++ turn.effects }

/-- The world without the entry of a timer. -/
def World.erase (w : World ι) (x : PushTimer ι) : World ι :=
  { w with pushTimers := Function.update w.pushTimers (x.worker, x.session)
            ((w.pushTimers (x.worker, x.session)).erase x.push.requestId) }

theorem history_after (k : ℕ) :
    history (w.after n turn) k = history w k ++ turn.effects.filter (Effect.about k) :=
  List.filter_append ..

theorem mem_tasks_after {x : Task ι} (hx : x ∈ (w.after n turn).tasks) :
    x ∈ w.tasks ∨ x ∈ turn.next :=
  mem_replaceAt (List.mem_of_mem_filter hx)

/-- A task stays if it is neither the one that runs nor the timeout that is cleared. -/
theorem mem_after {x : Task ι} (hn : w.tasks[n]? = some t) (hx : x ∈ w.tasks) (hne : x ≠ t)
    (hc : ∀ y ∈ turn.cleared, x ≠ .armed y) : x ∈ (w.after n turn).tasks :=
  List.mem_filter.mpr ⟨mem_replaceAt_ne hn hx hne, by simpa using hc⟩

theorem mem_after_next {x : Task ι} (hx : x ∈ turn.next) (hc : turn.cleared = none) :
    x ∈ (w.after n turn).tasks := by
  rw [World.after, hc, clear_none]; exact mem_replaceAt_next hx

/-- A push that neither the task nor the cleared timeout is about. -/
theorem after_frame (hn : w.tasks[n]? = some t) (hrun : Runs retries w t o turn) {k : ℕ}
    (ht : t.about k = false) (hc : ∀ x ∈ turn.cleared, x.push.pushIndex ≠ k) :
    tasksOf (w.after n turn) k = tasksOf w k ∧ history (w.after n turn) k = history w k ∧
      (w.after n turn).rows.find k = w.rows.find k := by
  obtain ⟨hnext, heff, hrow⟩ := hrun.frame ht hc
  refine ⟨?_, by rw [history_after, heff, List.append_nil], hrow⟩
  exact (filter_clear hc _).trans (filter_replaceAt_of_not hn ht hnext)

namespace PushInv

/-- No entry is called `false` or `true`, and `removePushTimer` always deletes. -/
theorem removeTimer_eq (hI : PushInv L w) (x : PushTimer ι) : w.removeTimer x = (w.erase x, true) := by
  have hkey : (w.pushTimers (x.worker, x.session)).isIn
      (if x.push.requestId = "" then "true" else "false") = false := by
    split
    · exact hI.isIn_eq_false (by decide) (by decide)
    · exact hI.isIn_eq_false (by decide) (by decide)
  simp [World.removeTimer, removePushTimer, hkey, World.erase]

/-- A turn that clears a timeout is an ack's. -/
theorem ack_of_cleared (hI : PushInv L w) (hrun : Runs retries w t o turn) {x : PushTimer ι}
    (hx : turn.cleared = some x) : ∃ i a s, t = .ackCancel i a ∧
      (w.workers i).sessionManager.getSession a.clientId = some (.own s) ∧
      (w.pushTimers (i, s)).read a.requestId = some (.own x) ∧
      turn = ⟨w.erase x, [.ackRead a x.push], some x, [.timerCancelled x.push.pushIndex]⟩ := by
  cases hrun with
  | ackCancels hs ht =>
    simp only [Option.some.injEq] at hx; subst hx
    exact ⟨_, _, _, rfl, hs, ht, by rw [hI.removeTimer_eq]⟩
  | _ => simp [SendPush.handleFailure, SendPush.startTimer, PushTimer.onTimeout,
      PushTimer.removeTimer, PushCallback.send, PushCallback.done, Ack.refuse] at hx

/-- An ack takes the token of an armed timer. -/
theorem orderly_cancel (hI : PushInv L w) {i : ι} {a : AckReq} {s : Session} {x : PushTimer ι}
    (hn : w.tasks[n]? = some (.ackCancel i a))
    (hs : (w.workers i).sessionManager.getSession a.clientId = some (.own s))
    (ht : (w.pushTimers (i, s)).read a.requestId = some (.own x))
    (harmed : .armed x ∈ w.tasks) (hk : x.push.pushIndex = p.pushIndex) (hord : Orderly p w) :
    Orderly p (w.after n
      ⟨w.erase x, [.ackRead a x.push], some x, [.timerCancelled x.push.pushIndex]⟩) := by
  have habout : Task.about p.pushIndex (.armed x) = true := by simp [Task.about, Task.push?, hk]
  obtain ⟨htasks, ⟨hpush, -, hh⟩, hrow⟩ := hord.token harmed habout
  obtain ⟨-, -, hreq, hclient, -⟩ := hI.entries i s _ x ht
  have hown : Own p a := by
    rw [hpush] at hreq hclient
    exact ⟨(hI.sessions i _ s hs).symm.trans hclient, hreq.symm⟩
  refine Or.inl ⟨.ackRead a x.push, ?_, ⟨hpush, hown, ?_⟩, hrow⟩
  · exact filter_replaceAt_cancel hn rfl htasks (by simp [Task.about, Task.push?, hk]) (by simp)
      (by simp)
  · rw [history_after, hh]; simp [Effect.about, hk]

/-- An orderly push stays orderly. -/
theorem orderly_after (hI : PushInv L w) (hn : w.tasks[n]? = some t) (hrun : Runs retries w t o turn)
    (hdb : t.about p.pushIndex = true → dbOk t o = true)
    (hcancel : ∀ x ∈ turn.cleared, x.push.pushIndex = p.pushIndex → .armed x ∈ w.tasks)
    (hord : Orderly p w) : Orderly p (w.after n turn) := by
  cases habout : t.about p.pushIndex with
  | true =>
    obtain ⟨htasks, htold, hrow⟩ := hord.token (List.mem_of_getElem? hn) habout
    obtain ⟨hclear, hlife⟩ := htold.runs hrow hI.sessions
      (fun x _ => by rw [hI.removeTimer_eq]) hrun (hdb habout)
    rw [Orderly, history_after, tasksOf, World.after, hclear, clear_none,
      (filter_replaceAt_single turn.next hn habout htasks).2]
    exact hlife
  | false =>
    by_cases hx : ∃ x ∈ turn.cleared, x.push.pushIndex = p.pushIndex
    · obtain ⟨x, hx, hk⟩ := hx
      obtain ⟨i, a, s, rfl, hs, ht, rfl⟩ := hI.ack_of_cleared hrun hx
      exact hI.orderly_cancel hn hs ht (hcancel x hx hk) hk hord
    · simp only [not_exists, not_and] at hx
      obtain ⟨htasks, hhist, hrow⟩ := after_frame hn hrun habout hx
      rw [Orderly, htasks, hhist, hrow]; exact hord

/-- A late push stays late. -/
theorem late_after (hI : PushInv L w) (hn : w.tasks[n]? = some t) (hrun : Runs retries w t o turn)
    (hlate : Late p w) : Late p (w.after n turn) := by
  obtain ⟨hpost, hover⟩ := hlate
  by_cases hpre : t.isPre = true
  · -- the task is about another push, and so is all it does
    have habout : t.about p.pushIndex = false := by
      by_contra hab
      have hab : t.about p.pushIndex = true := by simpa using hab
      have := hpost t (List.mem_filter.mpr ⟨List.mem_of_getElem? hn, hab⟩)
      rw [hpre] at this; simp at this
    have hclear : ∀ x ∈ turn.cleared, x.push.pushIndex ≠ p.pushIndex := by
      intro x hx
      obtain ⟨i, a, s, rfl, -⟩ := hI.ack_of_cleared hrun hx
      simp [Task.isPre] at hpre
    obtain ⟨htasks, hhist, -⟩ := after_frame hn hrun habout hclear
    rw [Late, htasks, hhist]; exact ⟨hpost, hover⟩
  · obtain ⟨hnext, heff⟩ := hrun.post (by simpa using hpre)
    refine ⟨fun x hx => ?_, fun hs => ?_⟩
    · obtain ⟨hx, hab⟩ := List.mem_filter.mp hx
      rcases mem_tasks_after hx with hx | hx
      · exact hpost x (List.mem_filter.mpr ⟨hx, hab⟩)
      · exact hnext x hx
    · rw [history_after, List.mem_append] at hs
      rw [history_after, List.mem_append, List.mem_append]
      rcases hs with hs | hs
      · rcases hover hs with h | h
        · exact Or.inl (Or.inl h)
        · exact Or.inr (Or.inl h)
      · exact absurd (List.mem_of_mem_filter hs) (heff p.pushIndex)

/-- What is not orderly after a turn is late. -/
theorem life_after (hI : PushInv L w) (hp : p ∈ w.pushes) (hn : w.tasks[n]? = some t)
    (hrun : Runs retries w t o turn)
    (hC : L ∨ (dbOk t o = true ∧ ∀ x ∈ turn.cleared, .armed x ∈ w.tasks)) :
    Orderly p (w.after n turn) ∨ L ∧ Late p (w.after n turn) := by
  rcases hI.life p hp with hord | ⟨hL, hlate⟩
  · by_cases hok : (t.about p.pushIndex = true → dbOk t o = true) ∧
        ∀ x ∈ turn.cleared, x.push.pushIndex = p.pushIndex → .armed x ∈ w.tasks
    · exact Or.inl (hI.orderly_after hn hrun hok.1 hok.2 hord)
    · have hL : L := by
        rcases hC with hL | hC
        · exact hL
        · exact absurd ⟨fun _ => hC.1, fun x hx _ => hC.2 x hx⟩ hok
      refine Or.inr ⟨hL, hI.late_after hn hrun (hord.late fun y hy => ?_)⟩
      -- the token is past the timer: a database call, or a timeout that has fired
      have htoken : ∃ t', t' ∈ w.tasks ∧ t'.about p.pushIndex = true ∧ t'.isPre = false := by
        rw [not_and_or, not_forall, not_forall] at hok
        rcases hok with ⟨hab, hdb⟩ | ⟨x, hx⟩
        · exact ⟨t, List.mem_of_getElem? hn, hab, isPre_of_dbOk (by simpa using hdb)⟩
        · simp only [not_forall] at hx
          obtain ⟨hx, hk, harmed⟩ := hx
          obtain ⟨i, a, s, rfl, hs, ht, rfl⟩ := hI.ack_of_cleared hrun hx
          obtain ⟨-, -, -, -, htask⟩ := hI.entries i s _ x ht
          exact ⟨.timeoutRemove x, htask.resolve_left harmed, by simp [Task.about, Task.push?, hk], rfl⟩
      obtain ⟨t', ht', hab, hpost⟩ := htoken
      rw [(hord.token ht' hab).1, List.mem_singleton] at hy
      rw [hy]; exact hpost
  · exact Or.inr ⟨hL, hI.late_after hn hrun hlate⟩

/-- The pushes of the tasks a turn leaves were handed over. -/
theorem known_next (hI : PushInv L w) (hn : w.tasks[n]? = some t) (hrun : Runs retries w t o turn) :
    ∀ x ∈ turn.next, ∀ m ∈ x.push?, ∃ p ∈ w.pushes, m = pushMsg p := by
  have hself := hI.known t (List.mem_of_getElem? hn)
  have hrow : ∀ {k row}, w.rows.find k = some row → ∃ p ∈ w.pushes, pushMsg row = pushMsg p :=
    fun hf => ⟨_, List.mem_of_getElem? (hI.rows _ _ hf), rfl⟩
  cases hrun with
  | timeoutFound hf => simpa [Task.push?] using hrow hf
  | failureFound hf => simpa [Task.push?] using hrow hf
  | ackFound hf => simpa [Task.push?] using hrow hf
  | ackCancels hs ht =>
    obtain ⟨-, -, -, -, htask⟩ := hI.entries _ _ _ _ ht
    have : ∃ p ∈ w.pushes, _ = pushMsg p := htask.elim (hI.known _ · _ rfl) (hI.known _ · _ rfl)
    simpa [Task.push?] using this
  | removed =>
    intro x hx
    simp only [PushTimer.removeTimer] at hx
    split at hx <;> simp at hx
    subst hx; exact hself
  | _ =>
    simp_all [Task.push?, SendPush.handleFailure, SendPush.startTimer, PushTimer.onTimeout,
      PushCallback.send, PushCallback.create, PushCallback.done, Ack.refuse]

theorem logged_effects (hI : PushInv L w) (hn : w.tasks[n]? = some t)
    (hrun : Runs retries w t o turn) :
    ∀ e ∈ turn.effects, ∀ k, e.about k = true → k < w.pushes.length := by
  intro e he k hk
  by_contra hlt
  have habout : t.about k = false := by
    by_contra h
    exact hlt (hI.lt_of_about (List.mem_of_getElem? hn) (by simpa using h))
  have hclear : ∀ x ∈ turn.cleared, x.push.pushIndex ≠ k := by
    rintro x hx rfl
    obtain ⟨i, a, s, -, -, ht, -⟩ := hI.ack_of_cleared hrun hx
    obtain ⟨-, -, -, -, htask⟩ := hI.entries i s _ x ht
    rcases htask with h | h <;>
      exact hlt (hI.lt_of_about h (by simp [Task.about, Task.push?]))
  have hnil := (hrun.frame habout hclear).2.1
  have hmem : e ∈ turn.effects.filter (Effect.about k) := List.mem_filter.mpr ⟨he, hk⟩
  rw [hnil] at hmem; simp at hmem

/-! ### Timer tables and the pool -/

theorem entries_after (hI : PushInv L w) (hn : w.tasks[n]? = some t)
    (hrun : Runs retries w t o turn) (i : ι) (s : Session) (r : String) (x : PushTimer ι)
    (hx : ((w.after n turn).pushTimers (i, s)).read r = some (.own x)) :
    x.worker = i ∧ x.session = s ∧ x.push.requestId = r ∧ s.clientId = x.push.clientId ∧
      (.armed x ∈ (w.after n turn).tasks ∨ .timeoutRemove x ∈ (w.after n turn).tasks) := by
  -- an entry of before whose tasks are still there
  have hkeep : (w.pushTimers (i, s)).read r = some (.own x) →
      (.armed x ∈ w.tasks → t ≠ .armed x ∧ turn.cleared ≠ some x) → t ≠ .timeoutRemove x →
      x.worker = i ∧ x.session = s ∧ x.push.requestId = r ∧ s.clientId = x.push.clientId ∧
        (.armed x ∈ (w.after n turn).tasks ∨ .timeoutRemove x ∈ (w.after n turn).tasks) := by
    intro hread harmed hremove
    obtain ⟨hw, hs, hr, hc, htask⟩ := hI.entries i s r x hread
    refine ⟨hw, hs, hr, hc, ?_⟩
    rcases htask with h | h
    · exact Or.inl (mem_after hn h (harmed h).1.symm fun y hy hxy => by
        obtain rfl : x = y := by simpa using hxy
        exact (harmed h).2 hy)
    · exact Or.inr (mem_after hn h hremove.symm fun _ _ => by simp)
  cases hrun with
  | @started i' m s' =>
    rcases PlainObject.read_of_update_assign _ _ _ _ _ hx with ⟨hkey, rfl, rfl⟩ | hold
    · obtain ⟨rfl, rfl⟩ := Prod.mk.inj hkey
      have hmem := List.mem_of_getElem? hn
      obtain ⟨-, p, -, rfl, -, hc, -⟩ := hI.pre_unique hmem hmem rfl rfl rfl rfl
      exact ⟨rfl, rfl, rfl, hc, Or.inl (mem_after_next (List.mem_singleton_self _) rfl)⟩
    · exact hkeep hold
        (fun _ => ⟨by simp, by simp [SendPush.startTimer]⟩) (by simp)
  | @fired y =>
    by_cases hxy : x = y
    · subst hxy
      obtain ⟨hw, hs, hr, hc, -⟩ := hI.entries i s r x hx
      exact ⟨hw, hs, hr, hc, Or.inr (mem_after_next (List.mem_singleton_self _) rfl)⟩
    · exact hkeep hx (fun _ => ⟨by simpa using Ne.symm hxy, by simp [PushTimer.onTimeout]⟩) (by simp)
  | @removed y =>
    simp only [World.after, PushTimer.removeTimer, hI.removeTimer_eq] at hx
    obtain ⟨hkey, hread⟩ := PlainObject.read_of_update_erase _ _ _ _ _ hx
    refine hkeep hread (fun _ => ⟨by simp, by simp [PushTimer.removeTimer]⟩) ?_
    rintro ⟨⟩
    obtain ⟨hw, hs, hr, -⟩ := hI.entries i s r x hread
    exact hkey ⟨by rw [hw, hs], hr.symm⟩
  | @ackCancels i' a s' y hs ht =>
    simp only [World.after, hI.removeTimer_eq] at hx
    obtain ⟨hkey, hread⟩ := PlainObject.read_of_update_erase _ _ _ _ _ hx
    refine hkeep hread (fun _ => ⟨by simp, ?_⟩) (by simp)
    rintro ⟨⟩
    obtain ⟨hw, hs, hr, -⟩ := hI.entries i s r x hread
    exact hkey ⟨by rw [hw, hs], hr.symm⟩
  | _ => exact hkeep hx (fun _ => ⟨by simp, by simp [SendPush.handleFailure, PushCallback.send,
      PushCallback.done, Ack.refuse]⟩) (by simp)

theorem armed_after (hI : PushInv L w) (hn : w.tasks[n]? = some t) (hrun : Runs retries w t o turn)
    (x : PushTimer ι) (hx : .armed x ∈ (w.after n turn).tasks) :
    ((w.after n turn).pushTimers (x.worker, x.session)).read x.push.requestId = some (.own x) := by
  have hmem := List.mem_of_getElem? hn
  cases hrun with
  | @started i m s =>
    rcases mem_tasks_after hx with hold | hnew
    · refine (PlainObject.read_update_assign_ne _ _ _ _ _ _ ?_).trans (hI.armed x hold)
      rintro ⟨-, hreq⟩
      have := (hI.pre_unique hold hmem rfl rfl rfl hreq).1
      simp at this
    · obtain rfl := by simpa [SendPush.startTimer] using hnew
      have huuid : m.requestId.length = 36 := hI.length_requestId hmem rfl
      exact PlainObject.read_update_assign_self _ _ _ (ne_proto_of_length huuid) _
  | @removed y =>
    have hold : .armed x ∈ w.tasks := by
      rcases mem_tasks_after hx with hold | hnew
      · exact hold
      · simp only [PushTimer.removeTimer] at hnew
        split at hnew <;> simp at hnew
    simp only [World.after, PushTimer.removeTimer, hI.removeTimer_eq]
    refine (PlainObject.read_update_erase_ne _ _ _ _ _ ?_).trans (hI.armed x hold)
    rintro ⟨-, hreq⟩
    have := (hI.pre_unique hold hmem rfl rfl rfl hreq).1
    simp at this
  | @ackCancels i a s y hs ht =>
    obtain ⟨hrep, hne⟩ := mem_clear.mp hx
    have hold : .armed x ∈ w.tasks := by
      rcases mem_replaceAt hrep with hold | hnew
      · exact hold
      · simp at hnew
    obtain ⟨rfl, rfl, hreq, -⟩ := hI.entries i s _ y ht
    simp only [World.after, hI.removeTimer_eq]
    refine (PlainObject.read_update_erase_ne _ _ _ _ _ ?_).trans (hI.armed x hold)
    -- two armed timers do not share an entry
    rintro ⟨hkey, hr⟩
    have hx' := hI.armed x hold
    rw [hkey, hr, hreq, ht] at hx'
    exact hne (by simpa using hx'.symm)
  | _ =>
    rcases mem_tasks_after hx with hold | hnew
    · exact hI.armed x hold
    · simp [SendPush.handleFailure, PushTimer.onTimeout, PushCallback.send, PushCallback.done,
        Ack.refuse] at hnew

theorem after (hI : PushInv L w) (hn : w.tasks[n]? = some t) (hrun : Runs retries w t o turn)
    (hC : L ∨ (dbOk t o = true ∧ ∀ x ∈ turn.cleared, .armed x ∈ w.tasks)) :
    PushInv L (w.after n turn) := by
  obtain ⟨hpushes, hworkers, -⟩ := hrun.same
  have hpushes : (w.after n turn).pushes = w.pushes := hpushes
  refine ⟨fun k row hrow => ?_, ?_, ?_, ?_, fun x hx => ?_, fun e he => ?_, hI.entries_after hn hrun,
    hI.armed_after hn hrun, fun p hp => ?_⟩
  · rw [hpushes]; exact hI.rows k row (hrun.find_of_find hrow)
  · rw [hpushes]; exact hI.index
  · rw [hpushes]; exact hI.ids
  · rw [show (w.after n turn).workers = w.workers from hworkers]; exact hI.sessions
  · rw [hpushes]
    rcases mem_tasks_after hx with hx | hx
    · exact hI.known x hx
    · exact hI.known_next hn hrun x hx
  · rw [hpushes]
    rcases List.mem_append.mp he with he | he
    · exact hI.logged e he
    · exact hI.logged_effects hn hrun e he
  · exact hI.life_after (hpushes ▸ hp) hn hrun hC

end PushInv

/-- A turn registers a timer only where it starts one. -/
theorem Runs.entry (hI : PushInv L w) (h : Runs retries w t o turn) {i : ι} {s : Session}
    {r : String} {x : PushTimer ι} (hx : (turn.world.pushTimers (i, s)).read r = some (.own x)) :
    (w.pushTimers (i, s)).read r = some (.own x) ∨ t = .startTimer i x.push s := by
  cases h with
  | @started i' m s' =>
    rcases PlainObject.read_of_update_assign _ _ _ _ _ hx with ⟨hkey, -, rfl⟩ | hold
    · obtain ⟨rfl, rfl⟩ := Prod.mk.inj hkey
      exact .inr rfl
    · exact .inl hold
  | @removed y =>
    simp only [PushTimer.removeTimer, hI.removeTimer_eq] at hx
    exact .inl (PlainObject.read_of_update_erase _ _ _ _ _ hx).2
  | @ackCancels i' a s' y hs ht =>
    simp only [hI.removeTimer_eq] at hx
    exact .inl (PlainObject.read_of_update_erase _ _ _ _ _ hx).2
  | _ => exact .inl hx

/-- An ack that cancels a timer does so before the timer's timeout has fired. -/
def InTime (w : World ι) : PushEvent ι → Prop
  | .turn n _ => ∀ i a, w.tasks[n]? = some (.ackCancel i a) →
      ∀ s x, (w.workers i).sessionManager.getSession a.clientId = some (.own s) →
        (w.pushTimers (i, s)).read a.requestId = some (.own x) → .armed x ∈ w.tasks
  | _ => True

/-- The database call of the step, if it makes one, succeeds. -/
def DbOk (w : World ι) : PushEvent ι → Prop
  | .turn n o => ∀ t ∈ w.tasks[n]?, dbOk t o = true
  | _ => True

theorem PushInv.step {e : PushEvent ι} (hI : PushInv L w) (hC : L ∨ (DbOk w e ∧ InTime w e))
    (hstep : pushStep retries w e = some w') : PushInv L w' := by
  cases e with
  | handOver i c r callback =>
    simp only [pushStep] at hstep
    split at hstep
    · rename_i hfresh
      obtain ⟨rows, hrows, rfl⟩ := Option.map_eq_some_iff.mp hstep
      exact hI.handOver rfl hfresh hrows
    · simp at hstep
  | worker i e =>
    obtain ⟨s, hs, rfl⟩ := Option.map_eq_some_iff.mp hstep
    refine ⟨hI.rows, hI.index, hI.ids, fun j => ?_, hI.known, hI.logged, hI.entries, hI.armed, hI.life⟩
    by_cases hj : j = i
    · subst hj
      simp only [Function.update_self]
      exact clientId_of_step (hI.sessions j) hs
    · simp only [Function.update_of_ne hj]
      exact hI.sessions j
  | ack i c r =>
    obtain rfl := Option.some.inj hstep
    exact hI.ack i _
  | turn n o =>
    obtain ⟨t, turn, hn, hrun, rfl⟩ := pushStep_turn hstep
    refine hI.after hn hrun (hC.imp_right ?_)
    rintro ⟨hdb, htime⟩
    refine ⟨hdb t hn, fun x hx => ?_⟩
    obtain ⟨i, a, s, rfl, hs, ht, -⟩ := hI.ack_of_cleared hrun hx
    exact htime i a hn s x hs ht

/-- What is not a turn leaves the pushes of before alone. -/
theorem PushInv.arrival {e : PushEvent ι} (hI : PushInv L w) (hp : p ∈ w.pushes)
    (he : ∀ n o, e ≠ .turn n o) (hstep : pushStep retries w e = some w') :
    p ∈ w'.pushes ∧ tasksOf w' p.pushIndex = tasksOf w p.pushIndex ∧
      history w' p.pushIndex = history w p.pushIndex ∧
      w'.rows.find p.pushIndex = w.rows.find p.pushIndex := by
  cases e with
  | handOver i c r callback =>
    simp only [pushStep] at hstep
    split at hstep
    · obtain ⟨rows, hrows, rfl⟩ := Option.map_eq_some_iff.mp hstep
      obtain ⟨k, hk⟩ := List.mem_iff_getElem?.mp hp
      have hlt := (List.getElem?_eq_some_iff.mp hk).1
      have hne : w.pushes.length ≠ p.pushIndex := by rw [(hI.index k p hk).1]; omega
      refine ⟨List.mem_append_left _ hp, ?_, rfl, Table.find_insert_ne hrows hne.symm⟩
      exact filter_concat_of_not
        (by simp [Task.about, Task.push?, pushMsg, createPushRequest, hne]) _
    · simp at hstep
  | worker i e =>
    obtain ⟨s, -, rfl⟩ := Option.map_eq_some_iff.mp hstep
    exact ⟨hp, rfl, rfl, rfl⟩
  | ack i c r =>
    cases hstep
    exact ⟨hp, filter_concat_of_not rfl _, rfl, rfl⟩
  | turn n o => exact absurd rfl (he n o)

end Turn

theorem PushInv.create {ι : Type*} (L : Prop) (ids : ι → ServerId × WorkerId) :
    PushInv L (.create ids) := by
  refine ⟨fun k row h => ?_, ?_, ?_, fun i c s h => ?_, ?_, ?_, fun i s r t h => ?_, ?_, ?_⟩
  · simp [World.create, Table.find, Table.empty] at h
  · simp [World.create]
  · simp [World.create]
  · simp [World.create, SpdyServer.create, SessionManager.create, SessionManager.getSession,
      PlainObject.read_eq_own] at h
  · simp [World.create]
  · simp [World.create]
  · simp [World.create, PlainObject.read_eq_own] at h
  · simp [World.create]
  · simp [World.create]

end Elephant.Push
