import Elephant.Push.Callback
import Elephant.Api.Handlers

/-! Cancelling a push timer (`api/v2/ack.coffee`, `Ack.cancelPushTimer`).

    The ids of an ack come from the client: the client id from a header, the request id from the body.
    Both are used as they stand to read a property of a plain object, the first of `sessionMap`, the
    second of the session's `pushTimers`:

        getSession c   own session ──▶ getPushTimer r   own timer ──▶ cancel it, hand its push on
           ├─ undefined ──▶ 404            ├─ undefined ──▶ 404
           ╰─ inherited ──▶ throws         ╰─ inherited ──▶ throws

    The main result says for exactly which ids, in any world that can be reached, the handler does
    what its purpose is. -/

namespace Elephant.Push
open Elephant.Schemes Elephant.Model Elephant.Listen

section

variable {ι : Type*} (w : World ι) (i : ι) (req : AckReq)

/-- An armed timer is registered under exactly the request id in the session of the client. -/
structure ArmedUnder (session : Session) (timer : PushTimer ι) : Prop where
  found : (w.workers i).sessionManager.getSession req.clientId = some (.own session)
  registered : (w.pushTimers (i, session)).lookup req.requestId = some timer
  armed : .armed timer ∈ w.tasks

variable [DecidableEq ι]

/-- The turn clears the timeout, hands the push on, and takes the timer off the table of its session;
    no other entry of any table changes, nor does anything else. -/
structure CancelTurn (session : Session) (timer : PushTimer ι) (turn : Turn ι) : Prop where
  cleared : turn.cleared = some timer
  returned : turn.next = [.ackRead req timer.push]
  removed : (turn.world.pushTimers (i, session)).lookup req.requestId = none
  others : ∀ key r, ¬ (key = (i, session) ∧ r = req.requestId) →
    (turn.world.pushTimers key).lookup r = (w.pushTimers key).lookup r
  rest : turn.world = { w with pushTimers := turn.world.pushTimers }

/-- The turn answers 404 and changes nothing. -/
structure RefuseTurn (turn : Turn ι) : Prop where
  answer : ∃ message, turn.effects = [.refused req ⟨404, message⟩]
  unchanged : turn.world = w
  uncleared : turn.cleared = none
  ends : turn.next = []

/-- What `cancelPushTimer` is for: it ends without a throw, cancels and returns the armed timer that is
    registered under the ids, if there is one, and otherwise answers 404. -/
def CancelsExactly : Prop :=
  ∃ turn, Ack.cancelPushTimer w i req = some turn ∧
    ((∃ session timer, ArmedUnder w i req session timer ∧ CancelTurn w i req session timer turn) ∨
      (¬ ∃ session timer, ArmedUnder w i req session timer) ∧ RefuseTurn w req turn)

/-- A client id that every object has as a property has a session, with a session the request id is no
    such name, and the timer found has not fired. -/
structure OrdinaryIds : Prop where
  clientId : req.clientId ∈ protoNames →
    ∃ session, (w.workers i).sessionManager.getSession req.clientId = some (.own session)
  requestId : ∀ session, (w.workers i).sessionManager.getSession req.clientId = some (.own session) →
    req.requestId ∉ protoNames
  notFired : ∀ session timer,
    (w.workers i).sessionManager.getSession req.clientId = some (.own session) →
    (w.pushTimers (i, session)).lookup req.requestId = some timer → .armed timer ∈ w.tasks

end

/-! ### What the handler finds -/

/-- A session is found, or nothing, or a property that every object has. -/
theorem getSession_cases (m : SessionManager) (c : ClientId) :
    (∃ session, m.getSession c = some (.own session)) ∨
      (c ∉ protoNames ∧ m.getSession c = none) ∨ (c ∈ protoNames ∧ m.getSession c = some .inherited) := by
  unfold SessionManager.getSession PlainObject.read
  cases m.sessionMap.lookup c with
  | some session => exact Or.inl ⟨session, rfl⟩
  | none =>
    by_cases hc : c ∈ protoNames
    · exact Or.inr (Or.inr ⟨hc, if_pos hc⟩)
    · exact Or.inr (Or.inl ⟨hc, if_neg hc⟩)

/-- Only one session is found. -/
theorem getSession_unique {m : SessionManager} {c : ClientId} {s s' : Session}
    (h : m.getSession c = some (.own s)) (h' : m.getSession c = some (.own s')) : s' = s :=
  Found.own.inj (Option.some.inj (h'.symm.trans h))

section

variable {ι : Type*} [DecidableEq ι] {w : World ι} {i : ι} {req : AckReq} {L : Prop}
  {session : Session} {timer : PushTimer ι}

/-- The turn that runs when a timer is found. -/
theorem PushInv.cancelTurn (hI : PushInv L w)
    (hs : (w.workers i).sessionManager.getSession req.clientId = some (.own session))
    (ht : (w.pushTimers (i, session)).lookup req.requestId = some timer) :
    ∃ turn, Ack.cancelPushTimer w i req = some turn ∧ CancelTurn w i req session timer turn := by
  have hread : getPushTimer (w.pushTimers (i, session)) req.requestId = some (.own timer) :=
    PlainObject.read_eq_own.mpr ht
  obtain ⟨hworker, hsession, hreq, -, -⟩ := hI.entries i session _ timer hread
  refine ⟨⟨w.erase timer, [.ackRead req timer.push], some timer,
    [.timerCancelled timer.push.pushIndex]⟩, ?_, rfl, rfl, ?_, fun key r hne => ?_, rfl⟩
  · rw [Ack.cancelPushTimer, hs]
    simp only [hread, hI.removeTimer_eq]
  · simp [World.erase, hworker, hsession, hreq]
  · simp only [World.erase, hworker, hsession, hreq]
    by_cases hkey : key = (i, session)
    · subst hkey
      rw [Function.update_self, AList.lookup_erase_ne fun hr => hne ⟨rfl, hr⟩]
    · rw [Function.update_of_ne hkey]

/-- A throw is not what the handler is for. -/
theorem not_cancelsExactly_of_throws (h : Ack.cancelPushTimer w i req = none) :
    ¬ CancelsExactly w i req := by
  rintro ⟨turn, hturn, -⟩
  rw [h] at hturn; simp at hturn

/-- An answer of 404 is, where there is no armed timer. -/
theorem cancelsExactly_of_refuse (message : String)
    (h : Ack.cancelPushTimer w i req = some (Ack.refuse w req ⟨404, message⟩))
    (hnot : ¬ ∃ s x, ArmedUnder w i req s x) : CancelsExactly w i req :=
  ⟨_, h, Or.inr ⟨hnot, ⟨message, rfl⟩, rfl, rfl, rfl⟩⟩

/-- A timer is found. -/
theorem PushInv.cancelsExactly_timer (hI : PushInv L w)
    (hs : (w.workers i).sessionManager.getSession req.clientId = some (.own session))
    (ht : (w.pushTimers (i, session)).lookup req.requestId = some timer) :
    CancelsExactly w i req ↔ .armed timer ∈ w.tasks := by
  obtain ⟨turn, hturn, hcancel⟩ := hI.cancelTurn hs ht
  constructor
  · rintro ⟨turn', hturn', ⟨s, x, ⟨hs', hx, harmed⟩, -⟩ | ⟨-, hrefuse⟩⟩
    · obtain rfl := getSession_unique hs hs'
      obtain rfl := Option.some.inj (ht.symm.trans hx)
      exact harmed
    · obtain rfl := Option.some.inj (hturn.symm.trans hturn')
      have hcleared := hcancel.cleared
      rw [hrefuse.uncleared] at hcleared; simp at hcleared
  · intro harmed
    exact ⟨turn, hturn, Or.inl ⟨session, timer, ⟨hs, ht, harmed⟩, hcancel⟩⟩

/-- No timer is found in the session: the name may still be an inherited one. -/
theorem cancelsExactly_noTimer
    (hs : (w.workers i).sessionManager.getSession req.clientId = some (.own session))
    (ht : (w.pushTimers (i, session)).lookup req.requestId = none) :
    CancelsExactly w i req ↔ req.requestId ∉ protoNames := by
  constructor
  · intro h hname
    refine not_cancelsExactly_of_throws ?_ h
    simp [Ack.cancelPushTimer, hs, getPushTimer, PlainObject.read, ht, hname]
  · intro hname
    refine cancelsExactly_of_refuse Ack.unknownRequest.message ?_ ?_
    · simp [Ack.cancelPushTimer, hs, getPushTimer, PlainObject.read, ht, hname]; rfl
    · rintro ⟨s, x, hs', hx, -⟩
      obtain rfl := getSession_unique hs hs'
      rw [ht] at hx; simp at hx

/-- No session is found. -/
theorem cancelsExactly_noSession
    (hs : ∀ s, (w.workers i).sessionManager.getSession req.clientId ≠ some (.own s)) :
    CancelsExactly w i req ↔ req.clientId ∉ protoNames := by
  rcases getSession_cases (w.workers i).sessionManager req.clientId with
    ⟨session, h⟩ | ⟨hproto, h⟩ | ⟨hproto, h⟩
  · exact absurd h (hs session)
  · refine ⟨fun _ => hproto, fun _ => ?_⟩
    refine cancelsExactly_of_refuse Ack.noAckSession.message ?_ ?_
    · simp [Ack.cancelPushTimer, h]; rfl
    · rintro ⟨s, -, hs', -, -⟩
      exact hs s hs'
  · refine ⟨fun hexact => ?_, fun hnot => absurd hproto hnot⟩
    exact absurd hexact (not_cancelsExactly_of_throws (by simp [Ack.cancelPushTimer, h]))

end

/-- In every world that can be reached, for every worker, client id and request id: the handler does
    what its purpose is iff the ids are ordinary. -/
theorem cancelsExactly_iff_ordinaryIds {ι : Type*} [DecidableEq ι] (retries : ℕ)
    (ids : ι → ServerId × WorkerId) (es : List (PushEvent ι)) (w : World ι)
    (hrun : run (pushStep retries) (.create ids) es = some w) (i : ι) (req : AckReq) :
    CancelsExactly w i req ↔ OrdinaryIds w i req := by
  have hI : PushInv True w := inv_run (fun _ _ _ hI _ hs => hI.step (.inl trivial) hs)
    (PushInv.create True ids) (allSteps_true _ es) hrun
  by_cases hsession : ∃ s, (w.workers i).sessionManager.getSession req.clientId = some (.own s)
  · obtain ⟨session, hs⟩ := hsession
    cases ht : (w.pushTimers (i, session)).lookup req.requestId with
    | some timer =>
      rw [hI.cancelsExactly_timer hs ht]
      have hname := notMem_protoNames_of_length (hI.length_registered ht)
      refine ⟨fun harmed => ⟨fun _ => ⟨session, hs⟩, fun _ _ => hname, ?_⟩,
        fun h => h.notFired session timer hs ht⟩
      rintro s x h hx
      obtain rfl := getSession_unique hs h
      obtain rfl := Option.some.inj (ht.symm.trans hx)
      exact harmed
    | none =>
      rw [cancelsExactly_noTimer hs ht]
      refine ⟨fun hname => ⟨fun _ => ⟨session, hs⟩, fun _ _ => hname, ?_⟩,
        fun h => h.requestId session hs⟩
      rintro s x h hx
      obtain rfl := getSession_unique hs h
      rw [ht] at hx; simp at hx
  · have hno : ∀ s, (w.workers i).sessionManager.getSession req.clientId ≠ some (.own s) :=
      fun s h => hsession ⟨s, h⟩
    rw [cancelsExactly_noSession hno]
    exact ⟨fun hname => ⟨fun h => absurd h hname, fun s h => absurd h (hno s),
      fun s _ h => absurd h (hno s)⟩, fun h hname => hsession (h.clientId hname)⟩

/-- The armed timer of a push that was sent. -/
theorem cancelsExactly_sentPush : ∃ w,
    run (pushStep 3) (.create fun _ => ("10.0.0.1:8443", 1)) sendPush = some w ∧
      CancelsExactly w () ⟨0, "clid-0", "6c84fb90-12c4-11e1-840d-7b25c5ee775a"⟩ := by
  refine ⟨_, rfl, (cancelsExactly_iff_ordinaryIds 3 (fun _ => ("10.0.0.1:8443", 1)) sendPush _ rfl ()
    ⟨0, "clid-0", "6c84fb90-12c4-11e1-840d-7b25c5ee775a"⟩).mpr ⟨?_, ?_, ?_⟩⟩
  · intro hname; exact absurd hname (by decide)
  · intro _ _; decide
  · rintro s x hs hx
    obtain rfl := Found.own.inj (Option.some.inj hs)
    obtain rfl := Option.some.inj hx
    decide

/-- An ack of the listening client with the request id `toString` throws. -/
theorem not_cancelsExactly_inheritedName : ∃ w,
    run (pushStep 3) (.create fun _ => ("10.0.0.1:8443", 1)) sendPush = some w ∧
      Ack.cancelPushTimer w () ⟨0, "clid-0", "toString"⟩ = none ∧
      ¬ CancelsExactly w () ⟨0, "clid-0", "toString"⟩ := by
  have hthrow : ∀ w, run (pushStep 3) (.create fun _ => ("10.0.0.1:8443", 1)) sendPush = some w →
      Ack.cancelPushTimer w () ⟨0, "clid-0", "toString"⟩ = none := by
    intro w hw
    obtain rfl := Option.some.inj hw
    rfl
  exact ⟨_, rfl, hthrow _ rfl, not_cancelsExactly_of_throws (hthrow _ rfl)⟩

/-! ### The task of the handler -/

/-- What the tables of the worker `i` answer to the ack handler. -/
def ackAnswers {ι : Type*} (w : World ι) (i : ι) (revokedClientId : Api.Answer (Option Unit))
    (pushRequest : Api.Answer (Option PushRequest)) : Api.AckAnswers where
  revokedClientId := revokedClientId
  getSession := (w.workers i).sessionManager.getSession
  getPushTimer session name :=
    match getPushTimer (w.pushTimers (i, session)) name with
    | none => none
    | some .inherited => some .inherited
    | some (.own timer) => some (.own timer.push)
  pushRequest := pushRequest

/-- The task of the ack handler throws, refuses and cancels as the turn of the push world does. -/
theorem cancelPushTimer_eq {ι : Type*} [DecidableEq ι] (L : Api.Library) (w : World ι) (i : ι)
    (req : AckReq) (revokedClientId : Api.Answer (Option Unit))
    (pushRequest : Api.Answer (Option PushRequest)) (s : Api.AckEffects) :
    Api.Ack.cancelPushTimer L (ackAnswers w i revokedClientId pushRequest) req.clientId
        (.str req.requestId) s
      = match Ack.cancelPushTimer w i req with
        | none => (s, .throws)
        | some turn => match turn.cleared with
          | some timer => ({ s with cancelled := s.cancelled ++ [timer.push] }, .calls [.ok timer.push])
          | none => (s, .calls (turn.effects.filterMap fun
              | .refused _ e => some (.error e)
              | _ => none)) := by
  unfold Api.Ack.cancelPushTimer Ack.cancelPushTimer ackAnswers
  rcases hs : (w.workers i).sessionManager.getSession req.clientId with _ | session | _
  · simp only [hs]; rfl
  · simp only [hs]
    rcases ht : getPushTimer (w.pushTimers (i, session)) req.requestId with _ | timer | _
    · simp only [Json.toText, ht]; rfl
    · simp only [Json.toText, ht]
    · simp only [Json.toText, ht]
  · simp only [hs]

end Elephant.Push
