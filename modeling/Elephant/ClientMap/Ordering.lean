import Elephant.ClientMap.Store

/-! The master's handlers, one database operation at a time.

    The master starts a handler for every message as it arrives, and nothing makes a handler wait for
    the one before it: `add` is a find followed by an insert or an update, `remove` is one delete, and
    each of these runs on its own over the connection pool.

        ADD_CLIENT:  getClient ──absent──▶ insert          DEL_CLIENT:  destroy
                         ╰──────present──▶ updateInstance

    All messages here are about one push id `p`, with whatever client ids, and the table may hold rows
    of other push ids. The row should be the one that the last message asks for. The main result says
    for which schedules it is, and that the messages applied one after the other then leave the same. -/

namespace Elephant.ClientMap
open Elephant.Schemes Elephant.Model Elephant.Listen

/-- How far a handler is: `found b` is an `add` whose find has answered. -/
inductive Phase where
  | start
  | found (present : Bool)
  | done
  deriving DecidableEq, Repr

structure Handler where
  msg : WorkerMsg
  phase : Phase
  deriving DecidableEq, Repr

/-- The master: the table, the handlers in arrival order, and whether some `add` has reported an
    error. -/
structure Master where
  clientmap : ClientTable
  handlers : List Handler
  failed : Bool

/-- The next database operation of a handler: the table, the handler's phase, and whether an error
    was reported. -/
def runOp (t : ClientTable) : WorkerMsg → Phase → Option (ClientTable × Phase × Bool)
  | .addClient _ p _ _, .start => some (t, .found (MySqlClientMap.getClient t p).isSome, false)
  | .addClient c p s w, .found false =>
    match MySqlClientMap.insert t p c s w with
    | some t' => some (t', .done, false)
    | none => some (t, .done, true)
  | .addClient c p s w, .found true =>
    match MySqlClientMap.updateInstance t p c s w with
    | some t' => some (t', .done, false)
    | none => some (t, .done, true)
  | .delClient _ p, .start => some (MySqlClientMap.remove t p, .done, false)
  | _, _ => none

inductive MasterEvent where
  | arrive (m : WorkerMsg)
  | exec (i : ℕ)
  deriving DecidableEq, Repr

/-- Messages about `p` arrive, and handlers run their operations, in any order. -/
def masterStep (p : PushId) (s : Master) : MasterEvent → Option Master
  | .arrive m =>
    if msgPushId m = p then
      some { s with handlers := s.handlers ++ [⟨m, .start⟩] }
    else none
  | .exec i =>
    s.handlers[i]?.bind fun h =>
      (runOp s.clientmap h.msg h.phase).map fun (t, phase, err) =>
        ⟨t, s.handlers.set i ⟨h.msg, phase⟩, s.failed || err⟩

/-- The messages of a list of handlers that are done, in arrival order. -/
def doneMsgs (l : List Handler) : List WorkerMsg :=
  (l.filter fun h => h.phase = .done).map Handler.msg

/-- The row that messages about `p` ask for: present with the server and worker of the last one, if
    that is an `ADD_CLIENT`, and absent after a `DEL_CLIENT`. -/
def asked (p : PushId) (t₀ : ClientTable) (ms : List WorkerMsg) : Option Row :=
  (ms.getLast?.map outcome).getD (t₀.find p)

/-- The row is what the messages that are done ask for, and no `add` has reported an error. -/
def Serial (p : PushId) (t₀ : ClientTable) (s : Master) : Prop :=
  s.clientmap.find p = asked p t₀ (doneMsgs s.handlers) ∧ s.failed = false

/-- An insert runs while the row is absent, an update while it is present, and both while no other
    push id has a row of the client; neither these nor a delete run after a later message is done,
    unless they then change nothing. -/
def TimelyOp (s : Master) (i : ℕ) : WorkerMsg → Phase → Prop
  | .addClient c p _ _, .found false =>
    doneMsgs (s.handlers.drop (i + 1)) = [] ∧ s.clientmap.find p = none ∧ Unheld s.clientmap p c
  | .addClient c p sv w, .found true =>
    if doneMsgs (s.handlers.drop (i + 1)) = [] then
      s.clientmap.find p ≠ none ∧ Unheld s.clientmap p c
    else s.clientmap.find p = none ∨ s.clientmap.find p = some (MySqlClientMap.row p c sv w)
  | .delClient _ p, .start =>
    doneMsgs (s.handlers.drop (i + 1)) = [] ∨ s.clientmap.find p = none
  | _, _ => True

def Timely (s : Master) : MasterEvent → Prop
  | .arrive _ => True
  | .exec i => ∀ h ∈ s.handlers[i]?, TimelyOp s i h.msg h.phase

/-! ### Serial execution -/

section Serial

variable {p : PushId} {t₀ : ClientTable}

theorem find_foldl_processMsg_ne {q : PushId} (hq : q ≠ p) {ms : List WorkerMsg}
    (hms : ∀ m ∈ ms, msgPushId m = p) (t : ClientTable) :
    (ms.foldl processMsg t).find q = t.find q := by
  induction ms generalizing t with
  | nil => rfl
  | cons m ms ih =>
    rw [List.foldl_cons, ih fun x hx => hms x (List.mem_cons_of_mem _ hx)]
    refine find_processMsg_ne t ?_
    rw [hms m List.mem_cons_self]
    exact Ne.symm hq

theorem Free.congr {t t' : ClientTable} {m : WorkerMsg} (h : Free t m)
    (hne : ∀ q, q ≠ msgPushId m → t'.find q = t.find q) : Free t' m := by
  cases m with
  | delClient c q => exact trivial
  | addClient c q s w => exact Unheld.congr h hne

/-- What messages about `p` leave one after the other is what the last one asks for, if no other push
    id has a row of its client. -/
theorem find_foldl_processMsg {ms : List WorkerMsg} (hms : ∀ m ∈ ms, msgPushId m = p)
    (hfree : ∀ m ∈ ms.getLast?, Free t₀ m) : (ms.foldl processMsg t₀).find p = asked p t₀ ms := by
  rcases List.eq_nil_or_concat ms with rfl | ⟨ms, m, rfl⟩
  · rfl
  · rw [List.concat_eq_append] at hms hfree ⊢
    rw [asked, List.foldl_concat, List.getLast?_concat]
    have hm : msgPushId m = p := hms m List.mem_concat_self
    have hms' : ∀ x ∈ ms, msgPushId x = p := fun x hx => hms x (List.mem_append_left _ hx)
    have hlast : Free (ms.foldl processMsg t₀) m := by
      refine Free.congr (hfree m (by simp)) fun q hq => ?_
      exact find_foldl_processMsg_ne (hm ▸ hq) hms' t₀
    rw [← hm]
    exact find_processMsg_of_free hlast

theorem doneMsgs_append (l l' : List Handler) : doneMsgs (l ++ l') = doneMsgs l ++ doneMsgs l' := by
  rw [doneMsgs, List.filter_append, List.map_append]; rfl

/-- A handler that is not done is not counted, wherever it stands. -/
theorem doneMsgs_set {l : List Handler} {i : ℕ} {h : Handler} (hi : l[i]? = some h)
    (hd : h.phase ≠ .done) (m : WorkerMsg) (ph : Phase) :
    doneMsgs l = doneMsgs (l.take i) ++ doneMsgs (l.drop (i + 1)) ∧
      doneMsgs (l.set i ⟨m, ph⟩) = doneMsgs (l.take i) ++
        (if ph = .done then [m] else []) ++ doneMsgs (l.drop (i + 1)) := by
  obtain ⟨hlt, hget⟩ := List.getElem?_eq_some_iff.mp hi
  constructor
  · conv_lhs => rw [← List.take_append_drop i l, List.drop_eq_getElem_cons hlt, hget]
    simp [doneMsgs, hd]
  · rw [List.set_eq_take_append_cons_drop, if_pos hlt]
    by_cases hph : ph = .done <;> simp [doneMsgs, hph]

/-- The last message that is done once a handler ends: its own, unless a later one was done. -/
theorem getLast?_doneMsgs_done {l : List Handler} {i : ℕ} {h : Handler} (hi : l[i]? = some h)
    (hd : h.phase ≠ .done) (m : WorkerMsg) : (doneMsgs (l.set i ⟨m, .done⟩)).getLast?
      = if doneMsgs (l.drop (i + 1)) = [] then some m else (doneMsgs l).getLast? := by
  obtain ⟨hold, hnew⟩ := doneMsgs_set hi hd m .done
  rw [hnew, hold]
  cases hlater : doneMsgs (l.drop (i + 1)) with
  | nil => simp
  | cons x xs => simp [List.getLast?_append]

end Serial

/-! ### One operation -/

section Exec

variable {p : PushId} {t₀ t' : ClientTable} {s s' : Master} {i : ℕ} {m : WorkerMsg} {ph ph' : Phase}
  {err : Bool}

theorem masterStep_exec (hstep : masterStep p s (.exec i) = some s') :
    ∃ m ph t' ph' err, s.handlers[i]? = some ⟨m, ph⟩ ∧
      runOp s.clientmap m ph = some (t', ph', err) ∧
      s' = ⟨t', s.handlers.set i ⟨m, ph'⟩, s.failed || err⟩ := by
  simp only [masterStep, Option.bind_eq_some_iff, Option.map_eq_some_iff] at hstep
  obtain ⟨⟨m, ph⟩, hi, ⟨t', ph', err⟩, hop, rfl⟩ := hstep
  exact ⟨m, ph, t', ph', err, hi, hop, rfl⟩

/-- The end of a handler keeps the row asked for iff it reports no error and leaves the row it asks
    for, or, when a later message is done already, the row as it was. -/
theorem serial_done_iff (hs : Serial p t₀ s) (hi : s.handlers[i]? = some ⟨m, ph⟩) (hd : ph ≠ .done)
    (t' : ClientTable) (err : Bool) :
    Serial p t₀ ⟨t', s.handlers.set i ⟨m, .done⟩, s.failed || err⟩ ↔
      t'.find p = (if doneMsgs (s.handlers.drop (i + 1)) = [] then outcome m
        else s.clientmap.find p) ∧ err = false := by
  obtain ⟨hrow, hfail⟩ := hs
  rw [Serial, asked, getLast?_doneMsgs_done hi hd, hfail, Bool.false_or, hrow, asked]
  split <;> rfl

/-- The find changes nothing and ends nothing. -/
theorem serial_found (hs : Serial p t₀ s) (hi : s.handlers[i]? = some ⟨m, .start⟩) (b : Bool) :
    Serial p t₀ ⟨s.clientmap, s.handlers.set i ⟨m, .found b⟩, s.failed || false⟩ := by
  obtain ⟨hold, hnew⟩ := doneMsgs_set hi (by simp) m (.found b)
  rw [Serial, hold] at hs
  simpa [Serial, hnew] using hs

/-- An insert fails on a row that is there or on a client id that another row has. -/
theorem serial_insert_iff {c : ClientId} {sv : ServerId} {w : WorkerId} (hs : Serial p t₀ s)
    (hi : s.handlers[i]? = some ⟨.addClient c p sv w, .found false⟩)
    (hop : runOp s.clientmap (.addClient c p sv w) (.found false) = some (t', ph', err)) :
    Serial p t₀ ⟨t', s.handlers.set i ⟨.addClient c p sv w, ph'⟩, s.failed || err⟩ ↔
      TimelyOp s i (.addClient c p sv w) (.found false) := by
  have hdone := serial_done_iff hs hi (by simp)
  by_cases hok : s.clientmap.find p = none ∧ Unheld s.clientmap p c
  · obtain ⟨t, ht, hfind, -⟩ := MySqlClientMap.insert_absent sv w (unheld_iff.mp hok.2) hok.1
    obtain ⟨rfl, rfl, rfl⟩ := by simpa [runOp, ht] using hop
    rw [hdone, hfind]
    simp [TimelyOp, hok, outcome]
  · have hnone : MySqlClientMap.insert s.clientmap p c sv w = none := by
      by_cases habs : s.clientmap.find p = none
      · exact MySqlClientMap.insert_held sv w fun h => hok ⟨habs, h⟩
      · exact MySqlClientMap.insert_present sv w habs
    obtain ⟨rfl, rfl, rfl⟩ := by simpa [runOp, hnone] using hop
    rw [hdone]
    simp [TimelyOp, hok]

/-- An update of a row that is gone changes nothing, and one to a client id that another row has
    fails. -/
theorem serial_update_iff {c : ClientId} {sv : ServerId} {w : WorkerId} (hs : Serial p t₀ s)
    (hi : s.handlers[i]? = some ⟨.addClient c p sv w, .found true⟩)
    (hop : runOp s.clientmap (.addClient c p sv w) (.found true) = some (t', ph', err)) :
    Serial p t₀ ⟨t', s.handlers.set i ⟨.addClient c p sv w, ph'⟩, s.failed || err⟩ ↔
      TimelyOp s i (.addClient c p sv w) (.found true) := by
  have hdone := serial_done_iff hs hi (by simp)
  by_cases habs : s.clientmap.find p = none
  · obtain ⟨rfl, rfl, rfl⟩ := by simpa [runOp, MySqlClientMap.update_absent sv w habs] using hop
    rw [hdone]
    simp [TimelyOp, habs, outcome]
  by_cases hfree : Unheld s.clientmap p c
  · obtain ⟨t, ht, hfind, -⟩ := MySqlClientMap.update_present sv w (unheld_iff.mp hfree) habs
    obtain ⟨rfl, rfl, rfl⟩ := by simpa [runOp, ht] using hop
    rw [hdone, hfind]
    by_cases hlater : doneMsgs (s.handlers.drop (i + 1)) = []
    · simp [TimelyOp, habs, hlater, hfree, outcome]
    · simpa [TimelyOp, habs, hlater] using eq_comm
  · obtain ⟨rfl, rfl, rfl⟩ := by
      simpa [runOp, MySqlClientMap.update_held sv w habs hfree] using hop
    have hother : s.clientmap.find p ≠ some (MySqlClientMap.row p c sv w) :=
      fun h => hfree (unheld_of_find h rfl)
    rw [hdone]
    simp [TimelyOp, habs, hfree, hother]

theorem serial_delete_iff {c : ClientId} (hs : Serial p t₀ s)
    (hi : s.handlers[i]? = some ⟨.delClient c p, .start⟩)
    (hop : runOp s.clientmap (.delClient c p) .start = some (t', ph', err)) :
    Serial p t₀ ⟨t', s.handlers.set i ⟨.delClient c p, ph'⟩, s.failed || err⟩ ↔
      TimelyOp s i (.delClient c p) .start := by
  have hfind : (MySqlClientMap.remove s.clientmap p).find p = none := Table.find_destroy_self
  obtain ⟨rfl, rfl, rfl⟩ := by simpa [runOp] using hop
  rw [serial_done_iff hs hi (by simp), hfind]
  by_cases hlater : doneMsgs (s.handlers.drop (i + 1)) = []
  · simp [TimelyOp, outcome, hlater]
  · simpa [TimelyOp, hlater] using eq_comm

/-- An operation keeps the row asked for exactly when it is timely. -/
theorem serial_exec_iff (hp : msgPushId m = p) (hs : Serial p t₀ s)
    (hi : s.handlers[i]? = some ⟨m, ph⟩) (hop : runOp s.clientmap m ph = some (t', ph', err)) :
    Serial p t₀ ⟨t', s.handlers.set i ⟨m, ph'⟩, s.failed || err⟩ ↔ TimelyOp s i m ph := by
  match m, ph with
  | .addClient c q sv w, .start =>
    obtain ⟨rfl, rfl, rfl⟩ := by simpa [runOp] using hop
    exact iff_of_true (serial_found hs hi _) trivial
  | .addClient c q sv w, .found false =>
    obtain rfl : q = p := hp
    exact serial_insert_iff hs hi hop
  | .addClient c q sv w, .found true =>
    obtain rfl : q = p := hp
    exact serial_update_iff hs hi hop
  | .delClient c q, .start =>
    obtain rfl : q = p := hp
    exact serial_delete_iff hs hi hop
  | .addClient c q sv w, .done => simp [runOp] at hop
  | .delClient c q, .found b => simp [runOp] at hop
  | .delClient c q, .done => simp [runOp] at hop

/-- An operation touches the row of its push id only. -/
theorem find_runOp_ne (hop : runOp s.clientmap m ph = some (t', ph', err)) {q : PushId}
    (hq : q ≠ msgPushId m) : t'.find q = s.clientmap.find q := by
  match m, ph with
  | .addClient c r sv w, .start =>
    obtain ⟨rfl, -, -⟩ := by simpa [runOp] using hop
    rfl
  | .addClient c r sv w, .found false =>
    cases ht : MySqlClientMap.insert s.clientmap r c sv w with
    | none =>
      obtain ⟨rfl, -, -⟩ := by simpa [runOp, ht] using hop
      rfl
    | some t =>
      obtain ⟨rfl, -, -⟩ := by simpa [runOp, ht] using hop
      exact Table.find_insert_ne ht hq
  | .addClient c r sv w, .found true =>
    cases ht : MySqlClientMap.updateInstance s.clientmap r c sv w with
    | none =>
      obtain ⟨rfl, -, -⟩ := by simpa [runOp, ht] using hop
      rfl
    | some t =>
      obtain ⟨rfl, -, -⟩ := by simpa [runOp, ht] using hop
      exact Table.find_update_ne ht hq
  | .delClient c r, .start =>
    obtain ⟨rfl, -, -⟩ := by simpa [runOp] using hop
    exact Table.find_destroy_ne hq
  | .addClient c r sv w, .done => simp [runOp] at hop
  | .delClient c r, .found b => simp [runOp] at hop
  | .delClient c r, .done => simp [runOp] at hop

/-- A handler that ends in time, with no later message done, finds its client free. -/
theorem TimelyOp.free (h : TimelyOp s i m ph) (hop : runOp s.clientmap m ph = some (t', .done, err))
    (hlater : doneMsgs (s.handlers.drop (i + 1)) = []) : Free s.clientmap m := by
  match m, ph with
  | .addClient c q sv w, .start => simp [runOp] at hop
  | .addClient c q sv w, .found false => exact h.2.2
  | .addClient c q sv w, .found true =>
    rw [TimelyOp, if_pos hlater] at h
    exact h.2
  | .addClient c q sv w, .done => simp [runOp] at hop
  | .delClient c q, _ => exact trivial

end Exec

/-! ### Whole runs -/

/-- What the invariant of the exactness rule says of a master: all messages are about `p`, no other
    row has changed, and no other push id has a row of the client that was added last. -/
structure MasterInv (p : PushId) (t₀ : ClientTable) (s : Master) : Prop where
  msgs : ∀ h ∈ s.handlers, msgPushId h.msg = p
  others : ∀ q, q ≠ p → s.clientmap.find q = t₀.find q
  free : ∀ m ∈ (doneMsgs s.handlers).getLast?, Free t₀ m
  serial : Serial p t₀ s

namespace MasterInv

variable {p : PushId} {t₀ : ClientTable} {s s' : Master} {i : ℕ} {m : WorkerMsg}

theorem arrive (hs : MasterInv p t₀ s) (hstep : masterStep p s (.arrive m) = some s') :
    MasterInv p t₀ s' := by
  simp only [masterStep] at hstep
  split at hstep
  · rename_i hm
    rw [Option.some.injEq] at hstep; subst hstep
    have hdone : doneMsgs (s.handlers ++ [⟨m, .start⟩]) = doneMsgs s.handlers := by
      rw [doneMsgs_append]; simp [doneMsgs]
    refine ⟨fun h hh => ?_, hs.others, by rw [hdone]; exact hs.free, ?_⟩
    · rcases List.mem_append.mp hh with hh | hh
      · exact hs.msgs h hh
      · rw [List.mem_singleton] at hh; subst hh; exact hm
    · rw [Serial, hdone]; exact hs.serial
  · simp at hstep

theorem exec_iff (hs : MasterInv p t₀ s) (hstep : masterStep p s (.exec i) = some s') :
    Serial p t₀ s' ↔ Timely s (.exec i) := by
  obtain ⟨m, ph, t', ph', err, hi, hop, rfl⟩ := masterStep_exec hstep
  simp only [Timely, hi, Option.mem_some_iff, forall_eq']
  exact serial_exec_iff (hs.msgs _ (List.mem_of_getElem? hi)) hs.serial hi hop

theorem exec (hs : MasterInv p t₀ s) (htimely : Timely s (.exec i))
    (hstep : masterStep p s (.exec i) = some s') : MasterInv p t₀ s' := by
  have hserial := (hs.exec_iff hstep).mpr htimely
  obtain ⟨m, ph, t', ph', err, hi, hop, rfl⟩ := masterStep_exec hstep
  have hm : msgPushId m = p := hs.msgs _ (List.mem_of_getElem? hi)
  have hop' : TimelyOp s i m ph := htimely _ hi
  refine ⟨fun x hx => ?_, fun q hq => ?_, fun m' hm' => ?_, hserial⟩
  · rcases List.mem_or_eq_of_mem_set hx with hx | rfl
    · exact hs.msgs x hx
    · exact hm
  · rw [find_runOp_ne hop (hm ▸ hq)]
    exact hs.others q hq
  · have hd : ph ≠ .done := by
      rintro rfl
      cases m <;> simp [runOp] at hop
    by_cases hph : ph' = .done
    · subst hph
      rw [getLast?_doneMsgs_done hi hd] at hm'
      split at hm'
      · rename_i hlater
        obtain rfl : m = m' := by simpa using hm'
        exact (hop'.free hop hlater).congr fun q hq => (hs.others q (hm ▸ hq)).symm
      · exact hs.free m' hm'
    · obtain ⟨hold, hnew⟩ := doneMsgs_set hi hd m ph'
      rw [hnew, if_neg hph, List.append_nil, ← hold] at hm'
      exact hs.free m' hm'

theorem step {e : MasterEvent} (hs : MasterInv p t₀ s) (htimely : Timely s e)
    (hstep : masterStep p s e = some s') : MasterInv p t₀ s' := by
  cases e with
  | arrive m => exact hs.arrive hstep
  | exec i => exact hs.exec htimely hstep

end MasterInv

/-- The master with nothing to do. -/
def Master.create (t₀ : ClientTable) : Master := ⟨t₀, [], false⟩

/-- All handlers have ended. -/
def Master.idle (s : Master) : Bool := s.handlers.all fun h => h.phase = .done

theorem MasterInv.create (p : PushId) (t₀ : ClientTable) : MasterInv p t₀ (.create t₀) :=
  ⟨by simp [Master.create], fun _ _ => rfl, by simp [Master.create, doneMsgs], rfl, rfl⟩

/-- Over every sequence of messages about one push id and every schedule of their operations: the row
    is throughout what the messages that are done ask for, without an error, iff every operation is
    timely; and then, once all are done, it is what the last message asks for and what all of them
    leave one after the other in arrival order. -/
theorem serial_iff_timely (p : PushId) (t₀ : ClientTable) (es : List MasterEvent) (s : Master)
    (hrun : run (masterStep p) (.create t₀) es = some s) :
    (AllStates (masterStep p) (Serial p t₀) (.create t₀) es ↔
      AllSteps (masterStep p) Timely (.create t₀) es) ∧
    (AllSteps (masterStep p) Timely (.create t₀) es → s.idle = true →
      s.clientmap.find p = asked p t₀ (s.handlers.map Handler.msg) ∧
      s.clientmap.find p = ((s.handlers.map Handler.msg).foldl processMsg t₀).find p ∧
        s.failed = false) := by
  constructor
  · refine allStates_iff_allSteps (fun _ _ _ hs hC hstep => hs.step hC hstep) (fun _ h => h.serial) ?_
      (MasterInv.create p t₀) ⟨s, hrun⟩
    intro s e s' hs hn hstep
    cases e with
    | arrive m => exact absurd trivial hn
    | exec i => exact fun h => hn ((hs.exec_iff hstep).mp h)
  · intro hC hidle
    have hs : MasterInv p t₀ s :=
      inv_run (fun _ _ _ hs hC hstep => hs.step hC hstep) (MasterInv.create p t₀) hC hrun
    have hdone : doneMsgs s.handlers = s.handlers.map Handler.msg := by
      rw [doneMsgs, List.filter_eq_self.mpr (by simpa [Master.idle] using hidle)]
    obtain ⟨hrow, hfail⟩ := hs.serial
    have hserial : ((doneMsgs s.handlers).foldl processMsg t₀).find p
        = asked p t₀ (doneMsgs s.handlers) := by
      refine find_foldl_processMsg (fun m hm => ?_) hs.free
      rw [hdone] at hm
      obtain ⟨h, hh, rfl⟩ := List.mem_map.mp hm
      exact hs.msgs h hh
    rw [hdone] at hrow hserial
    exact ⟨hrow, hrow.trans hserial.symm, hfail⟩

instance (s : Master) (i : ℕ) (m : WorkerMsg) (ph : Phase) : Decidable (TimelyOp s i m ph) :=
  match m, ph with
  | .addClient _ _ _ _, .found false => inferInstanceAs (Decidable (_ ∧ _ ∧ _))
  | .addClient c p sv w, .found true => inferInstanceAs (Decidable
      (if doneMsgs (s.handlers.drop (i + 1)) = [] then
        s.clientmap.find p ≠ none ∧ Unheld s.clientmap p c
        else s.clientmap.find p = none ∨ s.clientmap.find p = some (MySqlClientMap.row p c sv w)))
  | .delClient _ _, .start => inferInstanceAs (Decidable (_ ∨ _))
  | .addClient _ _ _ _, .start => isTrue trivial
  | .addClient _ _ _ _, .done => isTrue trivial
  | .delClient _ _, .found _ => isTrue trivial
  | .delClient _ _, .done => isTrue trivial

instance (s : Master) (e : MasterEvent) : Decidable (Timely s e) :=
  match e with
  | .arrive _ => isTrue trivial
  | .exec i => inferInstanceAs (Decidable (∀ h ∈ s.handlers[i]?, TimelyOp s i h.msg h.phase))

/-- A client connects and then moves twice, the finds of the two moves before either update. -/
def moveTwice : List MasterEvent :=
  [.arrive (.addClient "clid-0" "puid-0" "10.0.0.1:8443" 1), .exec 0, .exec 0,
    .arrive (.addClient "clid-0" "puid-0" "10.0.0.1:8443" 2),
    .arrive (.addClient "clid-0" "puid-0" "10.0.0.2:8443" 1), .exec 1, .exec 2, .exec 1, .exec 2]

theorem serial_moveTwice :
    ∃ s, run (masterStep "puid-0") (.create .empty) moveTwice = some s ∧
      s.clientmap.find "puid-0" = some ⟨"puid-0", "clid-0", "10.0.0.2:8443", "1"⟩ ∧
      s.failed = false := by
  obtain ⟨hrow, -, hfail⟩ := (serial_iff_timely "puid-0" .empty moveTwice _ rfl).2 (by decide)
    (by decide)
  exact ⟨_, rfl, hrow, hfail⟩

/-- A client connects and at once disconnects: the delete runs between the find and the insert. -/
def connectDisconnect : List MasterEvent :=
  [.arrive (.addClient "clid-0" "puid-0" "10.0.0.1:8443" 1), .exec 0,
    .arrive (.delClient "clid-0" "puid-0"), .exec 1, .exec 0]

/-- All handlers are done and none reported an error, but the row of the client that is gone stays. -/
theorem not_serial_connectDisconnect :
    ∃ s, run (masterStep "puid-0") (.create .empty) connectDisconnect = some s ∧
      s.idle = true ∧ s.failed = false ∧ s.clientmap.find "puid-0"
        ≠ ((s.handlers.map Handler.msg).foldl processMsg .empty).find "puid-0" :=
  ⟨_, rfl, by decide, by decide, by decide⟩

end Elephant.ClientMap
