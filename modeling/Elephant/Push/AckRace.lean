import Elephant.Push.Callback

/-! An ack that races the start of its timer.

    The push data leaves with `stream.end`; the timer that an ack looks for is registered only two
    turns later:

        stream.end ──▶ finish ──▶ _startTimer ──▶ armed ──▶ timeout ──▶ _removeTimer
             └── ack: 404, later 504 ──┘            └── ack: 200    └── ack: 504 all the same

    An ack of the client on the session of the push succeeds exactly from the armed timer on, until
    an ack has taken it or its timeout has fired. -/

namespace Elephant.Push
open Elephant.Schemes Elephant.Model Elephant.Listen

section

variable {ι : Type*}

/-- The worker and session through which the task's push is sent. -/
def Task.sender : Task ι → Option (ι × Session)
  | .serverPush i _ s => some (i, s)
  | .stream i _ s => some (i, s)
  | .startTimer i _ s => some (i, s)
  | .armed x => some (x.worker, x.session)
  | _ => none

/-- Push `k` is sent through session `s` of worker `i`. -/
def SentOn (w : World ι) (k : ℕ) (i : ι) (s : Session) : Prop :=
  ∀ t ∈ tasksOf w k, ∀ q ∈ t.sender, q = (i, s)

/-- Ack `a` of push `p` is not refused, and no status but 200 is reported. -/
structure Answered (p : PushRequest) (a : AckReq) (w : World ι) : Prop where
  notRefused : ∀ e, .refused a e ∉ w.log
  status : ∀ st, .callbackStarted p.pushIndex st ∈ w.log → st = 200
  idle : w.tasks = [] → .acked p.pushIndex a ∈ w.log ∧ .callbackStarted p.pushIndex 200 ∈ w.log

def Task.carries (j : ℕ) : Task ι → Bool
  | .ackCancel _ a => a.id = j
  | .ackRead a _ => a.id = j
  | .ackCallback a _ => a.id = j
  | _ => false

def Effect.grants (j : ℕ) : Effect → Bool
  | .acked _ a => a.id = j
  | _ => false

def Effect.refuses (j : ℕ) : Effect → Bool
  | .refused a _ => a.id = j
  | _ => false

/-- Every ack is at work or answered, once, and a push whose timer is registered is orderly. -/
structure AckInv (w : World ι) : Prop where
  inv : PushInv True w
  once : ∀ j, w.tasks.countP (Task.carries j) + w.log.countP (Effect.grants j) +
    w.log.countP (Effect.refuses j) ≤ if j < w.nextAck then 1 else 0
  registered : ∀ i s r x, (w.pushTimers (i, s)).read r = some (.own x) →
    ∀ p ∈ w.pushes, x.push = pushMsg p → Orderly p w

variable {w : World ι} {p : PushRequest} {a : AckReq}

/-- What is at work is not answered, and what succeeded is not refused. -/
theorem AckInv.notRefused (hA : AckInv w)
    (h : (∃ t ∈ w.tasks, t.carries a.id = true) ∨ ∃ k, .acked k a ∈ w.log) (e : HttpError) :
    .refused a e ∉ w.log := by
  intro he
  have hrefused : 0 < w.log.countP (Effect.refuses a.id) :=
    List.countP_pos_iff.mpr ⟨_, he, by simp [Effect.refuses]⟩
  have hone := hA.once a.id
  have hle : (if a.id < w.nextAck then 1 else 0) ≤ 1 := by split <;> omega
  rcases h with ⟨t, ht, hc⟩ | ⟨k, hk⟩
  · have := List.countP_pos_iff.mpr ⟨t, ht, hc⟩
    omega
  · have : 0 < w.log.countP (Effect.grants a.id) :=
      List.countP_pos_iff.mpr ⟨_, hk, by simp [Effect.grants]⟩
    omega

/-- Ack `a` is at work on push `p`, or has succeeded. -/
def Taken (p : PushRequest) (a : AckReq) (w : World ι) : Prop :=
  (∃ m, .ackRead a m ∈ tasksOf w p.pushIndex) ∨ (∃ row, .ackCallback a row ∈ tasksOf w p.pushIndex) ∨
    .acked p.pushIndex a ∈ history w p.pushIndex

/-- The invariant of what follows a successful cancel. -/
structure TakenInv (p : PushRequest) (a : AckReq) (w : World ι) : Prop where
  ack : AckInv w
  pushed : p ∈ w.pushes
  orderly : Orderly p w
  taken : Taken p a w

/-- The timer of a push that an ack has taken is out of play. -/
theorem TakenInv.not_timer (hT : TakenInv p a w) {x : PushTimer ι}
    (hk : x.push.pushIndex = p.pushIndex) :
    .armed x ∉ w.tasks ∧ .timeoutRemove x ∉ w.tasks := by
  have key : ∀ t ∈ w.tasks, t.about p.pushIndex = true → t ≠ .armed x ∧ t ≠ .timeoutRemove x := by
    intro t ht hab
    obtain ⟨htasks, htold, -⟩ := hT.orderly.token ht hab
    rcases hT.taken with ⟨m, hm⟩ | ⟨row, hm⟩ | hm
    · rw [htasks, List.mem_singleton] at hm; subst hm; simp
    · rw [htasks, List.mem_singleton] at hm; subst hm; simp
    · constructor
      · rintro rfl; rw [htold.2.2] at hm; simp at hm
      · rintro rfl; rw [htold.2] at hm; simp at hm
  have hab : Task.about p.pushIndex (.armed x) = true := by simp [Task.about, Task.push?, hk]
  exact ⟨fun h => (key _ h hab).1 rfl, fun h => (key _ h hab).2 rfl⟩

/-- Once the ack has succeeded, the one status reported is 200. -/
theorem TakenInv.statuses_eq (hT : TakenInv p a w)
    (h : .acked p.pushIndex a ∈ history w p.pushIndex) : statuses p.pushIndex w.log = [200] := by
  rcases hT.orderly.reported with ⟨-, hno, -⟩ | ⟨l, tail, hl, hh, htail, -⟩
  · exact absurd h (hno a)
  · obtain ⟨st, hst, h200, -⟩ := hl.status
    have hl' : .acked p.pushIndex a ∈ l := (mem_of_tail hh htail (by simp) (by simp)).mp h
    rw [statuses_of_history hh htail, hst, h200.mpr ⟨a, hl'⟩]

theorem TakenInv.answered (hT : TakenInv p a w) : Answered p a w := by
  have hlog : .acked p.pushIndex a ∈ history w p.pushIndex → .acked p.pushIndex a ∈ w.log :=
    List.mem_of_mem_filter
  refine ⟨hT.ack.notRefused ?_, fun st hst => ?_, fun hidle => ?_⟩
  · rcases hT.taken with ⟨m, hm⟩ | ⟨row, hm⟩ | hm
    · exact Or.inl ⟨_, List.mem_of_mem_filter hm, by simp [Task.carries]⟩
    · exact Or.inl ⟨_, List.mem_of_mem_filter hm, by simp [Task.carries]⟩
    · exact Or.inr ⟨_, hlog hm⟩
  · have hh : .callbackStarted p.pushIndex st ∈ history w p.pushIndex :=
      (mem_history (by simp [Effect.about])).mpr hst
    rcases hT.taken with ⟨m, hm⟩ | ⟨row, hm⟩ | hm
    · obtain ⟨ht, hab⟩ := List.mem_filter.mp hm
      rw [(hT.orderly.token ht hab).2.1.2.2] at hh; simp at hh
    · obtain ⟨ht, hab⟩ := List.mem_filter.mp hm
      rw [(hT.orderly.token ht hab).2.1.2.2] at hh; simp at hh
    · have := mem_statuses.mpr hst
      rw [hT.statuses_eq hm] at this
      simpa using this
  · rcases hT.taken with ⟨m, hm⟩ | ⟨row, hm⟩ | hm
    · simp [tasksOf, hidle] at hm
    · simp [tasksOf, hidle] at hm
    · exact ⟨hlog hm, mem_statuses.mp (by rw [hT.statuses_eq hm]; simp)⟩

/-! ### The timer of an ack -/

/-- A timer the ack finds is the push's own, and its token. -/
theorem AckInv.token_of_read (hA : AckInv w) (hp : p ∈ w.pushes) (hown : Own p a) {i : ι} {s : Session}
    {x : PushTimer ι} (hread : (w.pushTimers (i, s)).read a.requestId = some (.own x)) :
    Orderly p w ∧ x.push = pushMsg p ∧ (.armed x ∈ w.tasks ∨ .timeoutRemove x ∈ w.tasks) := by
  obtain ⟨-, -, hreq, -, htask⟩ := hA.inv.entries i s _ x hread
  have hknown : ∃ q ∈ w.pushes, x.push = pushMsg q :=
    htask.elim (hA.inv.known _ · _ rfl) (hA.inv.known _ · _ rfl)
  obtain ⟨q, hq, hpush⟩ := hknown
  have hqp : q = p := by
    refine hA.inv.ids q hq p hp ?_
    rw [hpush] at hreq
    exact hreq.trans hown.2
  subst hqp
  exact ⟨hA.registered i s _ x hread q hq hpush, hpush, htask⟩

/-- The log of a push whose timer is armed. -/
theorem Orderly.log_of_armed (hord : Orderly p w) {x : PushTimer ι} (hpush : x.push = pushMsg p)
    (harmed : .armed x ∈ w.tasks) : .timerStarted p.pushIndex ∈ w.log ∧
      .timerCancelled p.pushIndex ∉ w.log ∧ .timedOut p.pushIndex ∉ w.log := by
  have habout : Task.about p.pushIndex (.armed x) = true := by
    simp [Task.about, Task.push?, hpush, pushMsg]
  obtain ⟨-, ⟨-, -, hh⟩, -⟩ := hord.token harmed habout
  have hmem {e : Effect} (he : e.about p.pushIndex = true) := mem_history (w := w) he
  rw [← hmem (by simp [Effect.about]), ← hmem (by simp [Effect.about]),
    ← hmem (by simp [Effect.about]), hh]
  simp

/-- A timer that was started, and neither taken by an ack nor fired, is armed. -/
theorem AckInv.armed_of_started (hA : AckInv w) (hp : p ∈ w.pushes)
    (hstart : .timerStarted p.pushIndex ∈ w.log) (hcancel : .timerCancelled p.pushIndex ∉ w.log)
    (htime : .timedOut p.pushIndex ∉ w.log) :
    Orderly p w ∧ ∃ x, x.push = pushMsg p ∧ .armed x ∈ tasksOf w p.pushIndex := by
  have hmem {e : Effect} (he : e.about p.pushIndex = true) := mem_history (w := w) he
  rw [← hmem (by simp [Effect.about])] at hstart hcancel htime
  rcases hA.inv.life p hp with hord | ⟨-, hlate⟩
  · refine ⟨hord, ?_⟩
    by_contra hno
    have hlate : Late p w := hord.late fun t ht => ?_
    · exact (hlate.2 hstart).elim htime hcancel
    · obtain ⟨htasks, htold, -⟩ := hord.token (List.mem_of_mem_filter ht) (List.mem_filter.mp ht).2
      cases t with
      | armed x => exact absurd ⟨x, htold.1, ht⟩ hno
      | message i m => rw [htold.2] at hstart; simp at hstart
      | serverPush i m s => rw [htold.2.2] at hstart; simp at hstart
      | stream i m s => rw [htold.2.2] at hstart; simp at hstart
      | startTimer i m s => rw [htold.2.2] at hstart; simp at hstart
      | _ => rfl
  · exact ((hlate.2 hstart).elim htime hcancel).elim

end

section

variable {ι : Type*} [DecidableEq ι] {retries : ℕ} {w w' : World ι} {n : ℕ} {t : Task ι}
  {o : Outcome} {turn : Turn ι} {p : PushRequest} {a : AckReq} {i : ι} {s : Session}

/-- Some run with a database that answers leads to a state of which `G` holds. -/
def Leads (retries : ℕ) (G : World ι → Prop) (w : World ι) : Prop :=
  ∃ es w', AllSteps (pushStep retries) DbOk w es ∧ run (pushStep retries) w es = some w' ∧ G w'

/-- The timeout of a push is reported to its callback. -/
def TimedOut (p : PushRequest) (w : World ι) : Prop := .callbackStarted p.pushIndex 504 ∈ w.log

/-- The ack can be brought to its success. -/
def Reaches (retries : ℕ) (p : PushRequest) (a : AckReq) (w : World ι) : Prop :=
  Leads retries (fun w' => .acked p.pushIndex a ∈ w'.log ∧ .callbackStarted p.pushIndex 200 ∈ w'.log) w

/-- Whatever follows, as long as the database answers, the ack is well answered and can be brought
    to its success. -/
def Succeeds (retries : ℕ) (p : PushRequest) (a : AckReq) (w : World ι) : Prop :=
  ∀ es w', AllSteps (pushStep retries) DbOk w es → run (pushStep retries) w es = some w' →
    Answered p a w' ∧ Reaches retries p a w'

/-! ### Acks are answered once -/

/-- A turn hands on or answers the ack of its task, and no other. -/
theorem Runs.answers (h : Runs retries w t o turn) (j : ℕ) :
    turn.next.countP (Task.carries j) + turn.effects.countP (Effect.grants j) +
      turn.effects.countP (Effect.refuses j) ≤ if t.carries j then 1 else 0 := by
  cases h with
  | removed => simp only [PushTimer.removeTimer]; split <;> simp [Task.carries]
  | _ => simp [Task.carries, Effect.grants, Effect.refuses, List.countP_cons, SendPush.handleFailure,
      SendPush.startTimer, PushTimer.onTimeout, PushCallback.send, PushCallback.done, Ack.refuse]

namespace AckInv

/-- A timer that is registered after a turn belongs to an orderly push. -/
theorem registered_after (hA : AckInv w) (hn : w.tasks[n]? = some t) (hrun : Runs retries w t o turn)
    {i : ι} {s : Session} {r : String} {x : PushTimer ι}
    (hx : ((w.after n turn).pushTimers (i, s)).read r = some (.own x)) (hp : p ∈ w.pushes)
    (hpush : x.push = pushMsg p) : Orderly p (w.after n turn) := by
  have hmem := List.mem_of_getElem? hn
  have habout {t : Task ι} (ht : t.push? = some x.push) : t.about p.pushIndex = true := by
    simp [Task.about, ht, hpush, pushMsg]
  rcases hrun.entry hA.inv hx with hold | rfl
  · obtain ⟨hworker, hsession, hreq, -, htask⟩ := hA.inv.entries i s r x hold
    have hord := hA.registered i s r x hold p hp hpush
    -- the token of the push is its timer
    have htoken : ∀ t ∈ w.tasks, t.about p.pushIndex = true → t = .armed x ∨ t = .timeoutRemove x := by
      intro t ht hk
      have htasks := (hord.token ht hk).1
      rcases htask with h | h
      · exact .inl (List.singleton_inj.mp (htasks.symm.trans (hord.token h (habout rfl)).1))
      · exact .inr (List.singleton_inj.mp (htasks.symm.trans (hord.token h (habout rfl)).1))
    refine hA.inv.orderly_after hn hrun (fun hk => ?_) (fun y hy hk => ?_) hord
    · rcases htoken t hmem hk with rfl | rfl <;> cases o <;> rfl
    · obtain ⟨i', a, s', rfl, -, hread, rfl⟩ := hA.inv.ack_of_cleared hrun hy
      obtain ⟨-, -, -, -, hy' | hy'⟩ := hA.inv.entries i' s' _ y hread
      · exact hy'
      · -- a fired timer that is cancelled would not be registered any more
        have hky : Task.about p.pushIndex (.timeoutRemove y) = true := by
          simp [Task.about, Task.push?, hk]
        obtain h | h := htoken _ hy' hky
        · simp at h
        · obtain rfl : y = x := by simpa using h
          obtain ⟨hkey, -⟩ := PlainObject.read_of_update_erase _ _ _ _ _ hx
          exact absurd ⟨by rw [hworker, hsession], hreq.symm⟩ hkey
  · -- the timer starts here
    have hord : Orderly p w := by
      rcases hA.inv.life p hp with hord | ⟨-, hlate⟩
      · exact hord
      · exact absurd (hlate.1 _ (List.mem_filter.mpr ⟨hmem, habout rfl⟩)) (by simp [Task.isPre])
    refine hA.inv.orderly_after hn hrun (fun _ => by cases o <;> rfl) (fun y hy _ => ?_) hord
    obtain ⟨_, _, _, ht, -⟩ := hA.inv.ack_of_cleared hrun hy
    simp at ht

theorem after (hA : AckInv w) (hn : w.tasks[n]? = some t) (hrun : Runs retries w t o turn) :
    AckInv (w.after n turn) := by
  refine ⟨hA.inv.after hn hrun (Or.inl trivial), fun j => ?_, fun i s r x hx p hp hpush => ?_⟩
  · have hclear : (w.after n turn).tasks.countP (Task.carries j)
        ≤ (replaceAt w.tasks n turn.next).countP (Task.carries j) :=
      List.Sublist.countP_le List.filter_sublist
    have hpool : (replaceAt w.tasks n turn.next).countP (Task.carries j) +
        (if t.carries j then 1 else 0) = w.tasks.countP (Task.carries j) +
        turn.next.countP (Task.carries j) := countP_replaceAt hn
    have hturn := hrun.answers j
    have hold := hA.once j
    have hack : (w.after n turn).nextAck = w.nextAck := hrun.same.2.2
    rw [hack, show (w.after n turn).log = w.log ++ turn.effects from rfl, List.countP_append,
      List.countP_append]
    omega
  · have hpushes : (w.after n turn).pushes = w.pushes := hrun.same.1
    exact hA.registered_after hn hrun hx (hpushes ▸ hp) hpush

/-- What is not a turn leaves registered timers and their pushes alone. -/
theorem registered_arrival {e : PushEvent ι} (hA : AckInv w) (he : ∀ n o, e ≠ .turn n o)
    (hstep : pushStep retries w e = some w') (htimers : w'.pushTimers = w.pushTimers)
    (hpushes : ∀ p ∈ w'.pushes, p ∈ w.pushes ∨ p.pushIndex = w.pushes.length)
    (i : ι) (s : Session) (r : String) (x : PushTimer ι)
    (hx : (w'.pushTimers (i, s)).read r = some (.own x)) (p : PushRequest) (hp : p ∈ w'.pushes)
    (hpush : x.push = pushMsg p) : Orderly p w' := by
  rw [htimers] at hx
  have hold : p ∈ w.pushes := by
    refine (hpushes p hp).resolve_right fun hnew => ?_
    obtain ⟨-, -, -, -, htask⟩ := hA.inv.entries i s r x hx
    have hlt : p.pushIndex < w.pushes.length := by
      rcases htask with h | h <;>
        exact hA.inv.lt_of_about h (by simp [Task.about, Task.push?, hpush, pushMsg])
    omega
  obtain ⟨-, htasks, hhist, hrow⟩ := hA.inv.arrival hold he hstep
  rw [Orderly, htasks, hhist, hrow]
  exact hA.registered i s r x hx p hold hpush

theorem step {e : PushEvent ι} (hA : AckInv w) (hstep : pushStep retries w e = some w') :
    AckInv w' := by
  have hinv : PushInv True w' := hA.inv.step (Or.inl trivial) hstep
  cases e with
  | handOver i c r callback =>
    have hregistered := hA.registered_arrival (fun _ _ => by simp) hstep
    simp only [pushStep] at hstep
    split at hstep
    · obtain ⟨rows, -, rfl⟩ := Option.map_eq_some_iff.mp hstep
      refine ⟨hinv, fun j => ?_, hregistered rfl fun p hp => ?_⟩
      · simpa [List.countP_append, Task.carries] using hA.once j
      · rcases List.mem_append.mp hp with hp | hp
        · exact .inl hp
        · rw [List.mem_singleton.mp hp]; exact .inr rfl
    · simp at hstep
  | worker i e =>
    have hregistered := hA.registered_arrival (fun _ _ => by simp) hstep
    obtain ⟨s, -, rfl⟩ := Option.map_eq_some_iff.mp hstep
    exact ⟨hinv, hA.once, hregistered rfl fun p hp => .inl hp⟩
  | ack i c r =>
    have hregistered := hA.registered_arrival (fun _ _ => by simp) hstep
    cases hstep
    refine ⟨hinv, fun j => ?_, hregistered rfl fun p hp => .inl hp⟩
    have hold := hA.once j
    simp only [List.countP_append, List.countP_singleton, Task.carries, decide_eq_true_eq]
    split_ifs at hold ⊢ <;> omega
  | turn n o =>
    obtain ⟨t, turn, hn, hrun, rfl⟩ := pushStep_turn hstep
    exact hA.after hn hrun

theorem create {ι : Type*} (ids : ι → ServerId × WorkerId) : AckInv (.create ids) :=
  ⟨PushInv.create True ids, by simp [World.create], by simp [World.create]⟩

end AckInv

/-- One turn on the way. -/
theorem leads_of_turn {G : World ι → Prop} (hn : w.tasks[n]? = some t) (hdb : dbOk t .ok = true)
    (hexec : exec retries w t .ok = some turn) (h : Leads retries G (w.after n turn)) :
    Leads retries G w := by
  obtain ⟨es, w', hes, hrun, hgoal⟩ := h
  have hstep : pushStep retries w (.turn n .ok) = some (w.after n turn) := by
    simp [pushStep, hn, hexec, World.after]
  refine ⟨.turn n .ok :: es, w', ⟨?_, fun u hu => ?_⟩, run_cons_some.mpr ⟨_, hstep, hrun⟩, hgoal⟩
  · intro t' ht'
    rw [hn, Option.mem_def, Option.some.injEq] at ht'; subst ht'; exact hdb
  · rw [hstep, Option.some.injEq] at hu; subst hu; exact hes

/-! ### A push that an ack has taken -/

namespace TakenInv

theorem taken_after (hT : TakenInv p a w) (hn : w.tasks[n]? = some t)
    (hrun : Runs retries w t o turn) (hdb : dbOk t o = true)
    (hclear : ∀ x ∈ turn.cleared, x.push.pushIndex ≠ p.pushIndex) : Taken p a (w.after n turn) := by
  have hkeep (h : .acked p.pushIndex a ∈ history w p.pushIndex) : Taken p a (w.after n turn) :=
    Or.inr (Or.inr (by rw [history_after]; exact List.mem_append_left _ h))
  cases hab : t.about p.pushIndex with
  | false =>
    obtain ⟨htasks, hhist, -⟩ := after_frame hn hrun hab hclear
    rw [Taken, htasks, hhist]; exact hT.taken
  | true =>
    obtain ⟨htasks, htold, hrow⟩ := hT.orderly.token (List.mem_of_getElem? hn) hab
    rcases hT.taken with ⟨m, hm⟩ | ⟨row, hm⟩ | hm
    · -- the read finds the row and leaves the callback to be started
      rw [htasks, List.mem_singleton] at hm; subst hm
      obtain ⟨rfl, -, -⟩ := htold
      cases hrun with
      | @ackFound _ _ row hf =>
        refine Or.inr (Or.inl ⟨row, List.mem_filter.mpr ⟨mem_after_next ?_ rfl, ?_⟩⟩)
        · exact List.mem_singleton_self _
        · simp [Task.about, Task.push?, pushMsg, pushIndex_of_find hf]
      | ackDropped hf =>
        rcases hf with ⟨rfl, -⟩ | ⟨hf, -⟩
        · simp [dbOk] at hdb
        · rw [pushMsg, hrow] at hf; simp at hf
    · rw [htasks, List.mem_singleton] at hm; subst hm
      obtain ⟨rfl, -, -⟩ := htold
      cases hrun with
      | ackStarts =>
        refine Or.inr (Or.inr ?_)
        rw [history_after]
        exact List.mem_append_right _ (by simp [PushCallback.send, Effect.about])
    · exact hkeep hm

theorem after (hT : TakenInv p a w) (hn : w.tasks[n]? = some t) (hrun : Runs retries w t o turn)
    (hdb : dbOk t o = true) : TakenInv p a (w.after n turn) := by
  have hclear : ∀ x ∈ turn.cleared, x.push.pushIndex ≠ p.pushIndex := by
    intro x hx hk
    obtain ⟨i, b, s, -, -, hread, -⟩ := hT.ack.inv.ack_of_cleared hrun hx
    obtain ⟨-, -, -, -, htask⟩ := hT.ack.inv.entries i s _ x hread
    exact htask.elim (hT.not_timer hk).1 (hT.not_timer hk).2
  refine ⟨hT.ack.after hn hrun, hrun.same.1 ▸ hT.pushed, ?_, hT.taken_after hn hrun hdb hclear⟩
  exact hT.ack.inv.orderly_after hn hrun (fun _ => hdb) (fun x hx hk => absurd hk (hclear x hx))
    hT.orderly

theorem step {e : PushEvent ι} (hT : TakenInv p a w) (hdb : DbOk w e)
    (hstep : pushStep retries w e = some w') : TakenInv p a w' := by
  by_cases he : ∃ n o, e = .turn n o
  · obtain ⟨n, o, rfl⟩ := he
    obtain ⟨t, turn, hn, hrun, rfl⟩ := pushStep_turn hstep
    exact hT.after hn hrun (hdb t hn)
  · obtain ⟨hpushed, htasks, hhist, hrow⟩ := hT.ack.inv.arrival hT.pushed
      (fun n o h => he ⟨n, o, h⟩) hstep
    refine ⟨hT.ack.step hstep, hpushed, ?_, ?_⟩
    · rw [Orderly, htasks, hhist, hrow]; exact hT.orderly
    · rw [Taken, htasks, hhist]; exact hT.taken

theorem run {es : List (PushEvent ι)} (hT : TakenInv p a w)
    (hdb : AllSteps (pushStep retries) DbOk w es)
    (hrun : Schemes.run (pushStep retries) w es = some w') :
    TakenInv p a w' :=
  inv_run (fun _ _ _ hT hdb hs => hT.step hdb hs) hT hdb hrun

theorem reaches_of_acked (hT : TakenInv p a w)
    (h : .acked p.pushIndex a ∈ history w p.pushIndex) : Reaches retries p a w :=
  ⟨[], w, trivial, rfl, List.mem_of_mem_filter h, mem_statuses.mp (by rw [hT.statuses_eq h]; simp)⟩

theorem reaches_of_ackCallback (hT : TakenInv p a w) {row : PushRequest}
    (h : .ackCallback a row ∈ w.tasks) (hrow : row.pushIndex = p.pushIndex) :
    Reaches retries p a w := by
  obtain ⟨n, hn⟩ := List.mem_iff_getElem?.mp h
  have hexec : exec retries w (.ackCallback a row) .ok = some (PushCallback.send w retries
    (.create row none) [.acked row.pushIndex a]) := rfl
  refine leads_of_turn hn rfl hexec ((hT.after hn (runs_of_exec hexec) rfl).reaches_of_acked ?_)
  rw [history_after]
  exact List.mem_append_right _ (by simp [PushCallback.send, Effect.about, hrow])

/-- Two turns of the ack's own task are enough. -/
theorem reaches (hT : TakenInv p a w) : Reaches retries p a w := by
  rcases hT.taken with ⟨m, hm⟩ | ⟨row, hm⟩ | hm
  · obtain ⟨ht, hab⟩ := List.mem_filter.mp hm
    obtain ⟨-, ⟨rfl, -, -⟩, hrow⟩ := hT.orderly.token ht hab
    obtain ⟨n, hn⟩ := List.mem_iff_getElem?.mp ht
    have hexec : exec retries w (.ackRead a (pushMsg p)) .ok
        = some ⟨w, [.ackCallback a p], none, []⟩ := by
      simp [exec, Ack.getPushRequest, pushMsg, hrow]
    refine leads_of_turn hn rfl hexec ?_
    refine (hT.after hn (runs_of_exec hexec) rfl).reaches_of_ackCallback ?_ rfl
    exact mem_after_next (List.mem_singleton_self _) rfl
  · obtain ⟨ht, hab⟩ := List.mem_filter.mp hm
    obtain ⟨-, ⟨rfl, -, -⟩, -⟩ := hT.orderly.token ht hab
    exact hT.reaches_of_ackCallback ht rfl
  · exact hT.reaches_of_acked hm

theorem succeeds (hT : TakenInv p a w) : Succeeds retries p a w :=
  fun _ _ hdb hrun => ⟨(hT.run hdb hrun).answered, (hT.run hdb hrun).reaches⟩

end TakenInv

/-! ### The ack's cancel -/

/-- The cancel of an ack that finds a session always runs. -/
theorem AckInv.cancels (hA : AckInv w) (retries : ℕ) (hn : w.tasks[n]? = some (.ackCancel i a))
    (hp : p ∈ w.pushes) (hown : Own p a)
    (hs : (w.workers i).sessionManager.getSession a.clientId = some (.own s)) :
    ∃ turn, exec retries w (.ackCancel i a) .ok = some turn ∧
      pushStep retries w (.turn n .ok) = some (w.after n turn) := by
  have hproto : a.requestId ∉ protoNames := by
    obtain ⟨k, hk⟩ := List.mem_iff_getElem?.mp hp
    rw [hown.2]
    exact notMem_protoNames_of_length (hA.inv.index k p hk).2
  have hexec : ∃ turn, exec retries w (.ackCancel i a) .ok = some turn := by
    simp only [exec, Ack.cancelPushTimer, hs, getPushTimer, PlainObject.read, hproto, if_false]
    cases (w.pushTimers (i, s)).lookup a.requestId with
    | none => exact ⟨_, rfl⟩
    | some x => exact ⟨_, rfl⟩
  obtain ⟨turn, hexec⟩ := hexec
  exact ⟨turn, hexec, by simp [pushStep, hn, hexec, World.after]⟩

/-- An armed timer of the session is taken. -/
theorem AckInv.takenInv (hA : AckInv w) (hn : w.tasks[n]? = some (.ackCancel i a))
    (hp : p ∈ w.pushes) (hown : Own p a)
    (hs : (w.workers i).sessionManager.getSession a.clientId = some (.own s))
    (hsent : SentOn w p.pushIndex i s) (hord : Orderly p w) {x : PushTimer ι}
    (hpush : x.push = pushMsg p) (harmed : .armed x ∈ tasksOf w p.pushIndex)
    (hrun : Runs retries w (.ackCancel i a) .ok turn) : TakenInv p a (w.after n turn) := by
  have hfrom : (x.worker, x.session) = (i, s) := hsent _ harmed _ rfl
  obtain ⟨hmem, hab⟩ := List.mem_filter.mp harmed
  have hread : (w.pushTimers (i, s)).read a.requestId = some (.own x) := by
    have := hA.inv.armed x hmem
    rw [hfrom, hpush] at this
    rw [hown.2]; exact this
  have hturn : turn
      = ⟨w.erase x, [.ackRead a x.push], some x, [.timerCancelled x.push.pushIndex]⟩ := by
    cases hrun with
    | ackUnknown _ hno => exact absurd hread (hno s x hs)
    | ackCancels hs' ht =>
      rw [hs, Option.some.injEq, Found.own.injEq] at hs'; subst hs'
      rw [hread, Option.some.injEq, Found.own.injEq] at ht; subst ht
      rw [hA.inv.removeTimer_eq]
  refine ⟨hA.after hn hrun, hrun.same.1 ▸ hp, ?_, Or.inl ⟨x.push, ?_⟩⟩
  · rw [hturn]
    exact hA.inv.orderly_cancel hn hs hread hmem (by rw [hpush]; rfl) hord
  · rw [hturn]
    refine List.mem_filter.mpr ⟨mem_clear.mpr ⟨mem_replaceAt_next ?_, by simp⟩, ?_⟩
    · exact List.mem_singleton_self _
    · simp [Task.about, Task.push?, hpush, pushMsg]

/-! ### An ack behind the timeout -/

theorem leads_of_timeoutCallback (h : .timeoutCallback p ∈ w.tasks) : Leads retries (TimedOut p) w := by
  obtain ⟨n, hn⟩ := List.mem_iff_getElem?.mp h
  refine leads_of_turn hn rfl rfl ⟨[], _, trivial, rfl, ?_⟩
  exact List.mem_append_right _ List.mem_cons_self

theorem leads_of_timeoutRead {x : PushTimer ι} (hpush : x.push = pushMsg p)
    (hrow : w.rows.find p.pushIndex = some p) (h : .timeoutRead x ∈ w.tasks) :
    Leads retries (TimedOut p) w := by
  obtain ⟨n, hn⟩ := List.mem_iff_getElem?.mp h
  have hexec : exec retries w (.timeoutRead x) .ok = some ⟨w, [.timeoutCallback p], none, []⟩ := by
    simp [exec, PushTimer.getPushRequest, hpush, pushMsg, hrow]
  refine leads_of_turn hn rfl hexec (leads_of_timeoutCallback ?_)
  exact mem_after_next (List.mem_singleton_self _) rfl

/-- `_removeTimer` reports no error when an ack has been there before it. -/
theorem AckInv.leads_of_timeoutRemove (hA : AckInv w) {x : PushTimer ι} (hpush : x.push = pushMsg p)
    (hrow : w.rows.find p.pushIndex = some p) (h : .timeoutRemove x ∈ w.tasks) :
    Leads retries (TimedOut p) w := by
  obtain ⟨n, hn⟩ := List.mem_iff_getElem?.mp h
  have hexec : exec retries w (.timeoutRemove x) .ok
      = some ⟨w.erase x, [.timeoutRead x], none, []⟩ := by
    simp [exec, PushTimer.removeTimer, hA.inv.removeTimer_eq]
  refine leads_of_turn hn rfl hexec (leads_of_timeoutRead hpush ?_ ?_)
  · exact hrow
  · exact mem_after_next (List.mem_singleton_self _) rfl

/-- A timeout that has fired goes on to its own report, though an ack has taken the timer. -/
theorem AckInv.leads_of_fired (hA : AckInv w) (hn : w.tasks[n]? = some (.ackCancel i a))
    (hord : Orderly p w) {x : PushTimer ι} (hpush : x.push = pushMsg p)
    (hfired : .timeoutRemove x ∈ w.tasks) (hrun : Runs retries w (.ackCancel i a) .ok turn) :
    Leads retries (TimedOut p) (w.after n turn) := by
  have hab : Task.about p.pushIndex (.timeoutRemove x) = true := by
    simp [Task.about, Task.push?, hpush, pushMsg]
  obtain ⟨-, -, hrow⟩ := hord.token hfired hab
  have hrows : (w.after n turn).rows = w.rows := by
    cases hrun with
    | ackUnknown _ _ => rfl
    | ackCancels _ _ => simp [World.after, hA.inv.removeTimer_eq, World.erase]
  refine (hA.after hn hrun).leads_of_timeoutRemove hpush (hrows ▸ hrow) ?_
  exact mem_after hn hfired (by simp) (by simp)

end

/-- In every reachable state, an ack with the push's own ids whose client has the push's session
    cancels: it succeeds, whatever follows, iff by then the timer has been started, no other ack has
    taken it and its timeout has not fired. -/
theorem succeeds_iff_started {ι : Type*} [DecidableEq ι] (retries : ℕ) (ids : ι → ServerId × WorkerId)
    (es : List (PushEvent ι)) (w : World ι) (hrun : run (pushStep retries) (.create ids) es = some w)
    (n : ℕ) (i : ι) (a : AckReq) (hn : w.tasks[n]? = some (.ackCancel i a)) (p : PushRequest)
    (hp : p ∈ w.pushes) (hown : Own p a) (s : Session)
    (hs : (w.workers i).sessionManager.getSession a.clientId = some (.own s))
    (hsent : SentOn w p.pushIndex i s) :
    ∃ w', pushStep retries w (.turn n .ok) = some w' ∧ (Succeeds retries p a w' ↔
      .timerStarted p.pushIndex ∈ w.log ∧ .timerCancelled p.pushIndex ∉ w.log ∧
        .timedOut p.pushIndex ∉ w.log) := by
  have hA : AckInv w := inv_run (fun _ _ _ hA _ hs => hA.step hs) (AckInv.create ids)
    (allSteps_true _ es) hrun
  obtain ⟨turn, hexec, hstep⟩ := hA.cancels retries hn hp hown hs
  have hruns := runs_of_exec hexec
  refine ⟨_, hstep, fun hsucc => ?_, fun ⟨hstart, hcancel, htime⟩ => ?_⟩
  · cases hruns with
    | @ackUnknown _ _ e _ _ =>
      refine absurd ?_ ((hsucc [] _ trivial rfl).1.notRefused e)
      exact List.mem_append_right _ (List.mem_singleton_self _)
    | @ackCancels _ _ s' x hs' hread =>
      obtain ⟨hord, hpush, harmed | hfired⟩ := hA.token_of_read hp hown hread
      · exact hord.log_of_armed hpush harmed
      · obtain ⟨es', w', hdb, hrun', h504⟩ := hA.leads_of_fired hn hord hpush hfired (runs_of_exec hexec)
        have hstatus := (hsucc es' w' hdb hrun').1.status 504 h504
        simp at hstatus
  · obtain ⟨hord, x, hpush, harmed⟩ := hA.armed_of_started hp hstart hcancel htime
    exact (hA.takenInv hn hp hown hs hsent hord hpush harmed hruns).succeeds

instance {ι : Type*} [DecidableEq ι] (w : World ι) (k : ℕ) (i : ι) (s : Session) :
    Decidable (SentOn w k i s) :=
  inferInstanceAs (Decidable (∀ t ∈ tasksOf w k, ∀ q ∈ t.sender, q = (i, s)))

instance (p : PushRequest) (a : AckReq) : Decidable (Own p a) :=
  inferInstanceAs (Decidable (_ ∧ _))

theorem succeeds_ackWhileArmed : ∃ w w',
    run (pushStep 3) (.create fun _ => ("10.0.0.1:8443", 1))
      (sendPush ++ [.ack () "clid-0" "6c84fb90-12c4-11e1-840d-7b25c5ee775a"]) = some w ∧
    pushStep 3 w (.turn 1 .ok) = some w' ∧
    ∃ p ∈ w.pushes, Succeeds 3 p ⟨0, "clid-0", "6c84fb90-12c4-11e1-840d-7b25c5ee775a"⟩ w' := by
  obtain ⟨w', hstep, hiff⟩ := succeeds_iff_started 3 (fun _ => ("10.0.0.1:8443", 1))
    (sendPush ++ [.ack () "clid-0" "6c84fb90-12c4-11e1-840d-7b25c5ee775a"]) _ rfl 1 () _ rfl _
    (List.mem_singleton.mpr rfl) (by decide) _ rfl (by decide)
  exact ⟨_, w', rfl, hstep, _, List.mem_singleton.mpr rfl, hiff.mpr (by decide)⟩

/-- The client acks as soon as the push data has left, before `finish`. -/
def ackBeforeFinish : List (PushEvent Unit) :=
  sendPush.take 4 ++ [.ack () "clid-0" "6c84fb90-12c4-11e1-840d-7b25c5ee775a"]

/-- The ack's cancel, then `finish`, `_startTimer` and the timeout. -/
def timerAfterAck : List (PushEvent Unit) :=
  [.turn 1 .ok, .turn 0 .ok, .turn 0 .ok, .turn 0 .ok, .turn 0 .ok, .turn 0 .ok, .turn 0 .ok]

/-- On the session of the push and before the timeout, the client is told 404 and the app 504. -/
theorem not_succeeds_ackBeforeFinish : ∃ w w' s,
    run (pushStep 3) (.create fun _ => ("10.0.0.1:8443", 1)) ackBeforeFinish = some w ∧
    .streamEnded 0 ∈ w.log ∧ .timedOut 0 ∉ w.log ∧
    (w.workers ()).sessionManager.getSession "clid-0" = some (.own s) ∧ SentOn w 0 () s ∧
    AllSteps (pushStep 3) DbOk w timerAfterAck ∧ run (pushStep 3) w timerAfterAck = some w' ∧
    .refused ⟨0, "clid-0", "6c84fb90-12c4-11e1-840d-7b25c5ee775a"⟩ Ack.unknownRequest ∈ w'.log ∧
    statuses 0 w'.log = [504] :=
  ⟨_, _, _, rfl, by decide, by decide, rfl, by decide, by decide, rfl, by decide, by decide⟩

end Elephant.Push
