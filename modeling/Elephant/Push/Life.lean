import Elephant.Push.World

/-! Following one push through the world.

    Every pending task except an ack that has not looked for its timer yet is about one push. In an
    orderly life a push has exactly one such task at any time, its token, until its row is deleted;
    the token says what has happened to the push so far (`Told`). Two things end the orderly life: a
    database call that fails, and an ack that cancels a timer whose timeout has fired already, which
    leaves the push with two tokens. From then on the push is `Late`; until then it is `Orderly`. -/

namespace Elephant.Push
open Elephant.Schemes Elephant.Model Elephant.Listen

/-- The push a task is about. -/
def Task.push? {ι : Type*} : Task ι → Option PushMsg
  | .message _ m => some m
  | .serverPush _ m _ => some m
  | .stream _ m _ => some m
  | .startTimer _ m _ => some m
  | .armed t => some t.push
  | .timeoutRemove t => some t.push
  | .timeoutRead t => some t.push
  | .timeoutCallback row => some (pushMsg row)
  | .failureRead m _ => some m
  | .failureCallback row _ => some (pushMsg row)
  | .ackCancel _ _ => none
  | .ackRead _ m => some m
  | .ackCallback _ row => some (pushMsg row)
  | .callbackPost cb _ => some (pushMsg cb.pushRequest)
  | .callbackDelete cb => some (pushMsg cb.pushRequest)

/-- The task is about the push with index `k`. -/
def Task.about {ι : Type*} (k : ℕ) (t : Task ι) : Bool := t.push?.map PushMsg.pushIndex = some k

def Effect.about (k : ℕ) : Effect → Bool
  | .streamEnded j => j = k
  | .sendFailed j _ => j = k
  | .timerStarted j => j = k
  | .timerCancelled j => j = k
  | .timedOut j => j = k
  | .gaveUp j _ => j = k
  | .callbackStarted j _ => j = k
  | .callbackFinished j => j = k
  | .rowDeleted j => j = k
  | .acked j _ => j = k
  | .refused _ _ => false

/-- The push has not been taken over by an ack, its timeout or a send failure. -/
def Task.isPre {ι : Type*} : Task ι → Bool
  | .message _ _ => true
  | .serverPush _ _ _ => true
  | .stream _ _ _ => true
  | .startTimer _ _ _ => true
  | .armed _ => true
  | _ => false

section

variable {ι : Type*}

def tasksOf (w : World ι) (k : ℕ) : List (Task ι) := w.tasks.filter (Task.about k)

def history (w : World ι) (k : ℕ) : List Effect := w.log.filter (Effect.about k)

/-! ### What a token tells -/

/-- The ack bears the push's own client id and request id. -/
def Own (p : PushRequest) (a : AckReq) : Prop := a.clientId = p.clientId ∧ a.requestId = p.requestId

/-- The send of push `k` has failed with `e`. -/
def SendFailure (k : ℕ) (e : HttpError) (h : List Effect) : Prop :=
  e ∈ SendPush.sendErrors ∧ (h = [.sendFailed k e] ∨ h = [.streamEnded k, .sendFailed k e])

/-- A callback has been started, for one of the three reasons. -/
inductive Reported (p : PushRequest) : List Effect → Prop where
  | timeout : Reported p [.streamEnded p.pushIndex, .timerStarted p.pushIndex, .timedOut p.pushIndex,
      .callbackStarted p.pushIndex 504]
  | ack (a : AckReq) (h : Own p a) : Reported p [.streamEnded p.pushIndex,
      .timerStarted p.pushIndex, .timerCancelled p.pushIndex, .callbackStarted p.pushIndex 200,
      .acked p.pushIndex a]
  | failure (e : HttpError) (l : List Effect) (h : SendFailure p.pushIndex e l) :
      Reported p (l ++ [.callbackStarted p.pushIndex e.status])

/-- What has happened to push `p` while `t` is its token. -/
def Told (p : PushRequest) : Task ι → List Effect → Prop
  | .message _ m, h => m = pushMsg p ∧ h = []
  | .serverPush _ m s, h => m = pushMsg p ∧ s.clientId = p.clientId ∧ h = []
  | .stream _ m s, h => m = pushMsg p ∧ s.clientId = p.clientId ∧ h = [.streamEnded p.pushIndex]
  | .startTimer _ m s, h => m = pushMsg p ∧ s.clientId = p.clientId ∧ h = [.streamEnded p.pushIndex]
  | .armed t, h => t.push = pushMsg p ∧ t.session.clientId = p.clientId ∧
      h = [.streamEnded p.pushIndex, .timerStarted p.pushIndex]
  | .timeoutRemove t, h => t.push = pushMsg p ∧
      h = [.streamEnded p.pushIndex, .timerStarted p.pushIndex, .timedOut p.pushIndex]
  | .timeoutRead t, h => t.push = pushMsg p ∧
      h = [.streamEnded p.pushIndex, .timerStarted p.pushIndex, .timedOut p.pushIndex]
  | .timeoutCallback row, h => row = p ∧
      h = [.streamEnded p.pushIndex, .timerStarted p.pushIndex, .timedOut p.pushIndex]
  | .failureRead m e, h => m = pushMsg p ∧ SendFailure p.pushIndex e h
  | .failureCallback row e, h => row = p ∧ SendFailure p.pushIndex e h
  | .ackCancel _ _, _ => False
  | .ackRead a m, h => m = pushMsg p ∧ Own p a ∧
      h = [.streamEnded p.pushIndex, .timerStarted p.pushIndex, .timerCancelled p.pushIndex]
  | .ackCallback a row, h => row = p ∧ Own p a ∧
      h = [.streamEnded p.pushIndex, .timerStarted p.pushIndex, .timerCancelled p.pushIndex]
  | .callbackPost cb _, h => cb.pushRequest = p ∧ Reported p h
  | .callbackDelete cb, h => cb.pushRequest = p ∧
      ∃ l, Reported p l ∧ h = l ++ [.callbackFinished p.pushIndex]

/-- One token and a row, or a finished callback and no row. -/
def Life (p : PushRequest) (ts : List (Task ι)) (h : List Effect) (row : Option PushRequest) : Prop :=
  (∃ t, ts = [t] ∧ Told p t h ∧ row = some p) ∨
    (ts = [] ∧ row = none ∧ ∃ l, Reported p l ∧
      h = l ++ [.callbackFinished p.pushIndex, .rowDeleted p.pushIndex])

def Orderly (p : PushRequest) (w : World ι) : Prop :=
  Life p (tasksOf w p.pushIndex) (history w p.pushIndex) (w.rows.find p.pushIndex)

/-- The push has been taken over, and if its timer was started that was by an ack or the timeout. -/
def Late (p : PushRequest) (w : World ι) : Prop :=
  (∀ t ∈ tasksOf w p.pushIndex, t.isPre = false) ∧
    (.timerStarted p.pushIndex ∈ history w p.pushIndex →
      .timedOut p.pushIndex ∈ history w p.pushIndex ∨
        .timerCancelled p.pushIndex ∈ history w p.pushIndex)

end

/-! ### What one turn does -/

section Turn

variable {ι : Type*} [DecidableEq ι]

/-- All the turns there are. -/
inductive Runs (retries : ℕ) (w : World ι) : Task ι → Outcome → Turn ι → Prop where
  | unsent {i : ι} {m : PushMsg} {o : Outcome} {e : HttpError} (he : e ∈ SendPush.sendErrors) :
      Runs retries w (.message i m) o (SendPush.handleFailure w m e)
  | sent {i : ι} {m : PushMsg} {s : Session}
      (hs : (w.workers i).sessionManager.getSession m.clientId = some (.own s)) :
      Runs retries w (.message i m) .ok ⟨w, [.serverPush i m s], none, []⟩
  | pushFailed {i : ι} {m : PushMsg} {s : Session} :
      Runs retries w (.serverPush i m s) .error
        (SendPush.handleFailure w m SendPush.streamPushError)
  | ended {i : ι} {m : PushMsg} {s : Session} :
      Runs retries w (.serverPush i m s) .ok ⟨w, [.stream i m s], none, [.streamEnded m.pushIndex]⟩
  | streamFailed {i : ι} {m : PushMsg} {s : Session} :
      Runs retries w (.stream i m s) .error
        (SendPush.handleFailure w m SendPush.spdyStreamPushError)
  | streamFinished {i : ι} {m : PushMsg} {s : Session} :
      Runs retries w (.stream i m s) .ok ⟨w, [.startTimer i m s], none, []⟩
  | started {i : ι} {m : PushMsg} {s : Session} :
      Runs retries w (.startTimer i m s) .ok (SendPush.startTimer w i m s)
  | fired {t : PushTimer ι} : Runs retries w (.armed t) .ok (PushTimer.onTimeout w t)
  | removed {t : PushTimer ι} : Runs retries w (.timeoutRemove t) .ok (PushTimer.removeTimer w t)
  | timeoutFound {t : PushTimer ι} {row : PushRequest}
      (hf : w.rows.find t.push.pushIndex = some row) :
      Runs retries w (.timeoutRead t) .ok ⟨w, [.timeoutCallback row], none, []⟩
  | timeoutDropped {t : PushTimer ι} {o : Outcome} {why : Option String}
      (h : o = .error ∨ w.rows.find t.push.pushIndex = none) :
      Runs retries w (.timeoutRead t) o ⟨w, [], none, [.gaveUp t.push.pushIndex why]⟩
  | timeoutStarts {row : PushRequest} : Runs retries w (.timeoutCallback row) .ok
      (PushCallback.send w retries (.create row (some PushTimer.ackTimeout)) [])
  | failureFound {m : PushMsg} {e : HttpError} {row : PushRequest}
      (hf : w.rows.find m.pushIndex = some row) :
      Runs retries w (.failureRead m e) .ok ⟨w, [.failureCallback row e], none, []⟩
  | failureDropped {m : PushMsg} {e : HttpError} {o : Outcome} {why : Option String}
      (h : o = .error ∨ w.rows.find m.pushIndex = none) :
      Runs retries w (.failureRead m e) o ⟨w, [], none, [.gaveUp m.pushIndex why]⟩
  | failureStarts {row : PushRequest} {e : HttpError} : Runs retries w (.failureCallback row e) .ok
      (PushCallback.send w retries (.create row (some e)) [])
  | ackUnknown {i : ι} {a : AckReq} {e : HttpError} (he : e ≠ Ack.dbError)
      (h : ∀ s t, (w.workers i).sessionManager.getSession a.clientId = some (.own s) →
        (w.pushTimers (i, s)).read a.requestId ≠ some (.own t)) :
      Runs retries w (.ackCancel i a) .ok (Ack.refuse w a e)
  | ackCancels {i : ι} {a : AckReq} {s : Session} {t : PushTimer ι}
      (hs : (w.workers i).sessionManager.getSession a.clientId = some (.own s))
      (ht : (w.pushTimers (i, s)).read a.requestId = some (.own t)) :
      Runs retries w (.ackCancel i a) .ok ⟨(w.removeTimer t).1, [.ackRead a t.push], some t,
        [.timerCancelled t.push.pushIndex]⟩
  | ackFound {a : AckReq} {m : PushMsg} {row : PushRequest}
      (hf : w.rows.find m.pushIndex = some row) :
      Runs retries w (.ackRead a m) .ok ⟨w, [.ackCallback a row], none, []⟩
  | ackDropped {a : AckReq} {m : PushMsg} {o : Outcome} {e : HttpError}
      (h : o = .error ∧ e = Ack.dbError ∨
        w.rows.find m.pushIndex = none ∧ e = Ack.noPushRequest) :
      Runs retries w (.ackRead a m) o (Ack.refuse w a e)
  | ackStarts {a : AckReq} {row : PushRequest} : Runs retries w (.ackCallback a row) .ok
      (PushCallback.send w retries (.create row none) [.acked row.pushIndex a])
  | postAgain {cb : PushCallback} {left : ℕ} {o : Outcome} :
      Runs retries w (.callbackPost cb (left + 1)) o ⟨w, [.callbackPost cb left], none, []⟩
  | postDone {cb : PushCallback} {left : ℕ} {o : Outcome} : Runs retries w (.callbackPost cb left) o
      (PushCallback.done w cb)
  | deleted {cb : PushCallback} : Runs retries w (.callbackDelete cb) .ok
      ⟨{ w with rows := w.rows.destroy cb.pushRequest.pushIndex }, [], none,
        [.rowDeleted cb.pushRequest.pushIndex]⟩
  | notDeleted {cb : PushCallback} : Runs retries w (.callbackDelete cb) .error
      ⟨w, [], none, [.gaveUp cb.pushRequest.pushIndex none]⟩

variable {retries : ℕ} {w : World ι} {t : Task ι} {o : Outcome} {turn : Turn ι}

theorem runs_message {i : ι} {m : PushMsg} (h : SendPush.pushToClient w i m o = some turn) :
    Runs retries w (.message i m) o turn := by
  unfold SendPush.pushToClient at h
  split at h
  · cases h; exact .unsent (by decide)
  · rename_i s hs
    split at h
    · cases h; exact .sent hs
    · cases h; exact .unsent (by decide)
  · split at h
    · cases h; exact .unsent (by decide)
    · simp at h
  · simp at h

theorem runs_ackCancel {i : ι} {a : AckReq} (h : Ack.cancelPushTimer w i a = some turn) :
    Runs retries w (.ackCancel i a) .ok turn := by
  unfold Ack.cancelPushTimer at h
  split at h
  · rename_i hs
    cases h; exact .ackUnknown (by decide) fun s _ hs' => by rw [hs] at hs'; simp at hs'
  · simp at h
  · rename_i s hs
    split at h
    · rename_i ht
      cases h
      refine .ackUnknown (by decide) fun s' t hs' ht' => ?_
      rw [hs, Option.some.injEq, Found.own.injEq] at hs'; subst hs'
      rw [show (w.pushTimers (i, s)).read a.requestId = none from ht] at ht'; simp at ht'
    · simp at h
    · rename_i t ht
      cases h; exact .ackCancels hs ht

theorem runs_post {cb : PushCallback} {left : ℕ}
    (h : PushCallback.sendWithRetry w cb left o = some turn) :
    Runs retries w (.callbackPost cb left) o turn := by
  have hretry : Runs retries w (.callbackPost cb left) o (PushCallback.retry w cb left) := by
    cases left with
    | zero => exact .postDone
    | succ left => exact .postAgain
  unfold PushCallback.sendWithRetry at h
  split at h
  · split at h
    · cases h; exact .postDone
    · simp at h
  · split at h
    · simp at h
    · cases h; exact hretry
    · cases h
      split
      · exact hretry
      · exact .postDone

/-- Every turn is one of them. -/
theorem runs_of_exec (h : exec retries w t o = some turn) : Runs retries w t o turn := by
  cases t with
  | message i m => exact runs_message h
  | serverPush i m s => cases o <;> cases h <;> constructor
  | stream i m s => cases o <;> cases h <;> constructor
  | startTimer i m s => cases o <;> cases h; exact .started
  | armed t => cases o <;> cases h; exact .fired
  | timeoutRemove t => cases o <;> cases h; exact .removed
  | timeoutRead t =>
    cases o with
    | ok =>
      simp only [exec, PushTimer.getPushRequest] at h
      split at h <;> rename_i hf <;> cases h
      · exact .timeoutFound hf
      · exact .timeoutDropped (Or.inr hf)
    | error => cases h; exact .timeoutDropped (Or.inl rfl)
    | response c => cases h
  | timeoutCallback row => cases o <;> cases h; exact .timeoutStarts
  | failureRead m e =>
    cases o with
    | ok =>
      simp only [exec, SendPush.getPushRequest] at h
      split at h <;> rename_i hf <;> cases h
      · exact .failureFound hf
      · exact .failureDropped (Or.inr hf)
    | error => cases h; exact .failureDropped (Or.inl rfl)
    | response c => cases h
  | failureCallback row e => cases o <;> cases h; exact .failureStarts
  | ackCancel i a =>
    cases o with
    | ok => exact runs_ackCancel h
    | _ => cases h
  | ackRead a m =>
    cases o with
    | ok =>
      simp only [exec, Ack.getPushRequest] at h
      split at h <;> rename_i hf <;> cases h
      · exact .ackFound hf
      · exact .ackDropped (Or.inr ⟨hf, rfl⟩)
    | error => cases h; exact .ackDropped (Or.inl ⟨rfl, rfl⟩)
    | response c => cases h
  | ackCallback a row => cases o <;> cases h; exact .ackStarts
  | callbackPost cb left => exact runs_post h
  | callbackDelete cb => cases o <;> cases h <;> constructor

theorem pushStep_turn {w' : World ι} {n : ℕ} (h : pushStep retries w (.turn n o) = some w') :
    ∃ t turn, w.tasks[n]? = some t ∧ Runs retries w t o turn ∧
      w' = { turn.world with
        tasks := clear turn.cleared (replaceAt w.tasks n turn.next)
        log := w.log ++ turn.effects } := by
  simp only [pushStep, Option.bind_eq_some_iff, Option.map_eq_some_iff] at h
  obtain ⟨t, ht, turn, hturn, rfl⟩ := h
  exact ⟨t, turn, ht, runs_of_exec hturn, rfl⟩

/-! ### Frame: what a turn leaves alone -/

@[simp] theorem clear_none (l : List (Task ι)) : clear none l = l := by simp [clear]

theorem mem_clear {timer : PushTimer ι} {l : List (Task ι)} {x : Task ι} :
    x ∈ clear (some timer) l ↔ x ∈ l ∧ x ≠ .armed timer := by simp [clear]

/-- Clearing a timeout takes no task of another push. -/
theorem filter_clear {timer : Option (PushTimer ι)} {k : ℕ}
    (h : ∀ x ∈ timer, x.push.pushIndex ≠ k) (l : List (Task ι)) :
    (clear timer l).filter (Task.about k) = l.filter (Task.about k) := by
  rw [clear, List.filter_filter]
  refine List.filter_congr fun t _ => ?_
  cases hk : t.about k with
  | false => simp
  | true =>
    simp only [Bool.true_and, decide_eq_true_eq]
    rintro x hx rfl
    exact h x hx (by simpa [Task.about, Task.push?] using hk)

theorem Runs.same (h : Runs retries w t o turn) : turn.world.pushes = w.pushes ∧
    turn.world.workers = w.workers ∧ turn.world.nextAck = w.nextAck := by
  cases h <;> exact ⟨rfl, rfl, rfl⟩

/-- A row that is found has the index it was looked up by. -/
theorem pushIndex_of_find {rows : PushTable} {k : ℕ} {row : PushRequest}
    (h : rows.find k = some row) : row.pushIndex = k :=
  (Table.find_eq_some.mp h).2

/-- Turns only ever delete rows. -/
theorem Runs.find_of_find (h : Runs retries w t o turn) {k : ℕ} {row : PushRequest}
    (hf : turn.world.rows.find k = some row) : w.rows.find k = some row := by
  cases h with
  | deleted => exact Table.find_of_destroy hf
  | _ => exact hf

/-- A turn acts on the push of its task and on that of the timeout it clears. -/
theorem Runs.frame (h : Runs retries w t o turn) {k : ℕ} (ht : t.about k = false)
    (hc : ∀ x ∈ turn.cleared, x.push.pushIndex ≠ k) :
    turn.next.filter (Task.about k) = [] ∧ turn.effects.filter (Effect.about k) = [] ∧
      turn.world.rows.find k = w.rows.find k := by
  cases h with
  | timeoutFound hf =>
    simpa [Task.about, Task.push?, pushMsg, pushIndex_of_find hf] using ht
  | failureFound hf =>
    simpa [Task.about, Task.push?, pushMsg, pushIndex_of_find hf] using ht
  | ackFound hf =>
    simpa [Task.about, Task.push?, pushMsg, pushIndex_of_find hf] using ht
  | ackCancels hs htimer =>
    have hk := hc _ rfl
    simp [Task.about, Task.push?, Effect.about, World.removeTimer, hk]
  | @removed timer =>
    have hk : timer.push.pushIndex ≠ k := by simpa [Task.about, Task.push?] using ht
    refine ⟨?_, rfl, rfl⟩
    simp only [PushTimer.removeTimer]
    split <;> simp [Task.about, Task.push?, hk]
  | @deleted cb =>
    have hk : cb.pushRequest.pushIndex ≠ k := by
      simpa [Task.about, Task.push?, pushMsg] using ht
    exact ⟨rfl, by simp [Effect.about, hk], Table.find_destroy_ne (Ne.symm hk)⟩
  | _ =>
    simp_all [Task.about, Task.push?, Effect.about, pushMsg, SendPush.handleFailure,
      SendPush.startTimer, PushTimer.onTimeout, PushCallback.send, PushCallback.create,
      PushCallback.done, Ack.refuse]

/-! ### The token moves on -/

/-- The turn is not a database call that fails. -/
def dbOk {ι : Type*} : Task ι → Outcome → Bool
  | .timeoutRead _, .error => false
  | .failureRead _ _, .error => false
  | .ackRead _ _, .error => false
  | .callbackDelete _, .error => false
  | _, _ => true

theorem isPre_of_dbOk {ι : Type*} {t : Task ι} {o : Outcome} (h : dbOk t o = false) :
    t.isPre = false := by
  cases t <;> cases o <;> simp_all [dbOk, Task.isPre]

theorem Told.about_eq {ι : Type*} {p : PushRequest} {t : Task ι} {h : List Effect}
    (ht : Told p t h) : t.about p.pushIndex = true := by
  cases t <;> simp_all [Told, Task.about, Task.push?, pushMsg]

theorem Told.life {ι : Type*} {p : PushRequest} {row : Option PushRequest} (hrow : row = some p)
    (t : Task ι) {h : List Effect} (ht : Told p t h) :
    Life p ([t].filter (Task.about p.pushIndex)) h row := by
  rw [List.filter_cons, ht.about_eq, if_pos rfl]
  exact Or.inl ⟨t, rfl, ht, hrow⟩

theorem status_of_sendErrors {e : HttpError} (h : e ∈ SendPush.sendErrors) :
    PushCallback.statusOf (some e) = e.status := by
  revert e; decide

/-- An orderly token leaves an orderly life behind, unless a database call fails. -/
theorem Told.runs {p : PushRequest} {h : List Effect} (ht : Told p t h)
    (hrow : w.rows.find p.pushIndex = some p)
    (hsess : ∀ i c s, (w.workers i).sessionManager.getSession c = some (.own s) → s.clientId = c)
    (hremove : ∀ x, t = .timeoutRemove x → (w.removeTimer x).2 = true)
    (hrun : Runs retries w t o turn) (hdb : dbOk t o = true) :
    turn.cleared = none ∧ Life p (turn.next.filter (Task.about p.pushIndex))
      (h ++ turn.effects.filter (Effect.about p.pushIndex))
      (turn.world.rows.find p.pushIndex) := by
  cases hrun with
  | unsent he =>
    obtain ⟨rfl, rfl⟩ := ht
    refine ⟨rfl, Told.life hrow (.failureRead _ _) ⟨rfl, he, Or.inl ?_⟩⟩
    simp [SendPush.handleFailure, Effect.about, pushMsg]
  | sent hs =>
    obtain ⟨rfl, rfl⟩ := ht
    exact ⟨rfl, Told.life hrow (.serverPush _ _ _) ⟨rfl, hsess _ _ _ hs, rfl⟩⟩
  | pushFailed =>
    obtain ⟨rfl, -, rfl⟩ := ht
    refine ⟨rfl, Told.life hrow (.failureRead _ _) ⟨rfl, by decide, Or.inl ?_⟩⟩
    simp [SendPush.handleFailure, Effect.about, pushMsg]
  | ended =>
    obtain ⟨rfl, hc, rfl⟩ := ht
    refine ⟨rfl, Told.life hrow (.stream _ _ _) ⟨rfl, hc, ?_⟩⟩
    simp [Effect.about, pushMsg]
  | streamFailed =>
    obtain ⟨rfl, -, rfl⟩ := ht
    refine ⟨rfl, Told.life hrow (.failureRead _ _) ⟨rfl, by decide, Or.inr ?_⟩⟩
    simp [SendPush.handleFailure, Effect.about, pushMsg]
  | streamFinished =>
    obtain ⟨rfl, hc, rfl⟩ := ht
    exact ⟨rfl, Told.life hrow (.startTimer _ _ _) ⟨rfl, hc, rfl⟩⟩
  | started =>
    obtain ⟨rfl, hc, rfl⟩ := ht
    refine ⟨rfl, Told.life hrow (.armed _) ⟨rfl, hc, ?_⟩⟩
    simp [SendPush.startTimer, Effect.about, pushMsg]
  | fired =>
    obtain ⟨hp, -, rfl⟩ := ht
    refine ⟨rfl, Told.life hrow (.timeoutRemove _) ⟨hp, ?_⟩⟩
    simp [PushTimer.onTimeout, Effect.about, hp, pushMsg]
  | removed =>
    obtain ⟨hp, rfl⟩ := ht
    refine ⟨rfl, ?_⟩
    simp only [PushTimer.removeTimer, hremove _ rfl, if_true]
    exact Told.life hrow (.timeoutRead _) ⟨hp, rfl⟩
  | timeoutFound hf =>
    obtain ⟨hp, rfl⟩ := ht
    rw [hp, pushMsg, hrow, Option.some.injEq] at hf; subst hf
    exact ⟨rfl, Told.life hrow (.timeoutCallback _) ⟨rfl, rfl⟩⟩
  | timeoutDropped hf =>
    obtain ⟨hp, rfl⟩ := ht
    rcases hf with rfl | hf
    · simp [dbOk] at hdb
    · rw [hp, pushMsg, hrow] at hf; simp at hf
  | timeoutStarts =>
    obtain ⟨rfl, rfl⟩ := ht
    refine ⟨rfl, Told.life hrow (.callbackPost _ _) ⟨rfl, ?_⟩⟩
    simpa [PushCallback.send, PushCallback.create, Effect.about, PushCallback.statusOf,
      PushTimer.ackTimeout] using Reported.timeout
  | failureFound hf =>
    obtain ⟨rfl, hfail⟩ := ht
    rw [pushMsg, hrow, Option.some.injEq] at hf; subst hf
    exact ⟨rfl, Told.life hrow (.failureCallback _ _) ⟨rfl, by simpa using hfail⟩⟩
  | failureDropped hf =>
    obtain ⟨rfl, -⟩ := ht
    rcases hf with rfl | hf
    · simp [dbOk] at hdb
    · rw [pushMsg, hrow] at hf; simp at hf
  | failureStarts =>
    obtain ⟨rfl, hfail⟩ := ht
    refine ⟨rfl, Told.life hrow (.callbackPost _ _) ⟨rfl, ?_⟩⟩
    simpa [PushCallback.send, PushCallback.create, Effect.about, status_of_sendErrors hfail.1]
      using Reported.failure _ _ hfail
  | ackUnknown he hno => exact ht.elim
  | ackCancels hs htimer => exact ht.elim
  | ackFound hf =>
    obtain ⟨rfl, hown, rfl⟩ := ht
    rw [pushMsg, hrow, Option.some.injEq] at hf; subst hf
    exact ⟨rfl, Told.life hrow (.ackCallback _ _) ⟨rfl, hown, rfl⟩⟩
  | ackDropped hf =>
    obtain ⟨rfl, -, -⟩ := ht
    rcases hf with ⟨rfl, -⟩ | ⟨hf, -⟩
    · simp [dbOk] at hdb
    · rw [pushMsg, hrow] at hf; simp at hf
  | ackStarts =>
    obtain ⟨rfl, hown, rfl⟩ := ht
    refine ⟨rfl, Told.life hrow (.callbackPost _ _) ⟨rfl, ?_⟩⟩
    simpa [PushCallback.send, PushCallback.create, Effect.about, PushCallback.statusOf]
      using Reported.ack _ hown
  | postAgain =>
    obtain ⟨rfl, hrep⟩ := ht
    exact ⟨rfl, Told.life hrow (.callbackPost _ _) ⟨rfl, by simpa using hrep⟩⟩
  | postDone =>
    obtain ⟨rfl, hrep⟩ := ht
    refine ⟨rfl, Told.life hrow (.callbackDelete _) ⟨rfl, h, hrep, ?_⟩⟩
    simp [PushCallback.done, Effect.about]
  | deleted =>
    obtain ⟨rfl, l, hrep, rfl⟩ := ht
    refine ⟨rfl, Or.inr ⟨rfl, Table.find_destroy_self, l, hrep, ?_⟩⟩
    simp [Effect.about]
  | notDeleted => simp [dbOk] at hdb

/-! ### Late pushes -/

/-- Once a push is taken over it stays so, and no timer is started any more. -/
theorem Runs.post (h : Runs retries w t o turn) (ht : t.isPre = false) :
    (∀ x ∈ turn.next, x.isPre = false) ∧ ∀ k, .timerStarted k ∉ turn.effects := by
  cases h with
  | removed =>
    refine ⟨fun x hx => ?_, fun k hk => by simp [PushTimer.removeTimer] at hk⟩
    simp only [PushTimer.removeTimer] at hx
    split at hx <;> simp at hx
    subst hx; rfl
  | _ =>
    simp_all [Task.isPre, PushCallback.send, PushCallback.create, PushCallback.done, Ack.refuse]

theorem Reported.overtaken {p : PushRequest} {h : List Effect} (hr : Reported p h)
    (hs : .timerStarted p.pushIndex ∈ h) :
    .timedOut p.pushIndex ∈ h ∨ .timerCancelled p.pushIndex ∈ h := by
  cases hr with
  | timeout => simp
  | ack a ha => simp
  | failure e l hf => rcases hf with ⟨-, rfl | rfl⟩ <;> simp at hs

theorem Told.overtaken {ι : Type*} {p : PushRequest} {t : Task ι} {h : List Effect}
    (ht : Told p t h) (hpre : t.isPre = false) (hs : .timerStarted p.pushIndex ∈ h) :
    .timedOut p.pushIndex ∈ h ∨ .timerCancelled p.pushIndex ∈ h := by
  cases t with
  | failureRead m e => rcases ht with ⟨-, -, rfl | rfl⟩ <;> simp at hs
  | failureCallback row e => rcases ht with ⟨-, -, rfl | rfl⟩ <;> simp at hs
  | callbackPost cb n => exact ht.2.overtaken hs
  | callbackDelete cb =>
    obtain ⟨-, l, hl, rfl⟩ := ht
    rcases hl.overtaken (by simpa using hs) with h | h <;> simp [h]
  | _ => simp_all [Told, Task.isPre]

/-- An orderly push whose token is past the timer meets what is asked of a late one. -/
theorem Orderly.late {ι : Type*} {p : PushRequest} {w : World ι} (h : Orderly p w)
    (hpost : ∀ t ∈ tasksOf w p.pushIndex, t.isPre = false) : Late p w := by
  refine ⟨hpost, fun hs => ?_⟩
  rcases h with ⟨t, htasks, htold, -⟩ | ⟨-, -, l, hl, hh⟩
  · exact htold.overtaken (hpost t (by rw [htasks]; exact List.mem_singleton_self t)) hs
  · rw [hh] at hs ⊢
    rcases hl.overtaken (by simpa using hs) with h | h <;> simp [h]

/-- A task about an orderly push is its only one. -/
theorem Orderly.token {ι : Type*} {p : PushRequest} {w : World ι} {t : Task ι} (h : Orderly p w)
    (ht : t ∈ w.tasks) (hk : t.about p.pushIndex = true) :
    tasksOf w p.pushIndex = [t] ∧ Told p t (history w p.pushIndex) ∧
      w.rows.find p.pushIndex = some p := by
  have hmem : t ∈ tasksOf w p.pushIndex := List.mem_filter.mpr ⟨ht, hk⟩
  rcases h with ⟨t', htasks, htold, hrow⟩ | ⟨htasks, -⟩
  · rw [htasks, List.mem_singleton] at hmem; subst hmem
    exact ⟨htasks, htold, hrow⟩
  · rw [htasks] at hmem; simp at hmem

end Turn

end Elephant.Push
