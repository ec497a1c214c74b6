import Elephant.Push.World
import Elephant.Schemes.Emitter

/-! The completion of a server push (`api/spdyhandler.coffee`, `SpdyHandler.serverPush`).

    The pushed stream gets a lasting listener for `error` and one for the first `finish`, and both
    call the completion callback, with nothing that remembers a call made before:

        error   ──▶ close, callback 404     every time
        finish  ──▶ close, callback null    the first time

    A stream may emit any sequence of these events. The main result says for exactly which sequences
    the callback is called once. -/

namespace Elephant.Push
open Elephant.Schemes

inductive StreamEvent where
  | error (err : String)
  | finish
  deriving DecidableEq, Repr

inductive StreamEventName where
  | error
  | finish
  deriving DecidableEq, Repr

def StreamEvent.name : StreamEvent → StreamEventName
  | .error _ => .error
  | .finish => .finish

/-- What the listeners act on: how often the stream was closed, and the calls of the completion
    callback, `none` for `null`. -/
structure Completion where
  closes : ℕ
  calls : List (Option HttpError)
  deriving DecidableEq, Repr

/-- How far a push comes before a stream exists. -/
inductive Opening where
  | notWriteable
  | pushFailed (err : String)
  | opened
  deriving DecidableEq, Repr

namespace SpdyHandler

/-- Both listeners close the stream and call back. -/
def complete (result : Option HttpError) (c : Completion) : Completion :=
  ⟨c.closes + 1, c.calls ++ [result]⟩

def onError (_ : StreamEvent) : Completion → Completion := complete (some SendPush.spdyStreamPushError)

def onFinish (_ : StreamEvent) : Completion → Completion := complete none

/-- The stream as the callback of `res.push` leaves it. -/
def pushedStream : Emitter StreamEventName StreamEvent Completion :=
  ((Emitter.create ⟨0, []⟩).on .error onError).once .finish onFinish

/-- The calls of the completion callback, when the stream emits `events`. -/
def serverPush (opening : Opening) (events : List StreamEvent) : List (Option HttpError) :=
  match opening with
  | .notWriteable => [some SendPush.notWriteable]
  | .pushFailed _ => [some SendPush.streamPushError]
  | .opened => (pushedStream.emitAll StreamEvent.name events).state.calls

end SpdyHandler

open SpdyHandler (serverPush)

/-- At most one call; exactly one if the push fails before a stream exists or the stream emits an
    event, and it has an error exactly when the push failed or the first event is an error. -/
structure CompletesOnce (opening : Opening) (events : List StreamEvent) : Prop where
  atMostOnce : (serverPush opening events).length ≤ 1
  unopened : opening ≠ .opened → ∃ e, serverPush opening events = [some e]
  opened : ∀ first rest, opening = .opened → events = first :: rest →
    ∃ result, serverPush opening events = [result] ∧
      (result.isSome = true ↔ first.name = .error)

/-- Nothing follows an error, and nothing but a repeated `finish` follows a `finish`. -/
def Ends : List StreamEvent → Prop
  | [] => True
  | .error _ :: rest => rest = []
  | .finish :: rest => ∀ e ∈ rest, e = .finish

/-! ### The calls -/

/-- The calls that the events make while `finish` is still waited for, and after it. -/
def callsWaiting : List StreamEvent → List (Option HttpError)
  | [] => []
  | .error _ :: rest => some SendPush.spdyStreamPushError :: callsWaiting rest
  | .finish :: rest =>
    none :: (rest.filter fun e => e ≠ .finish).map fun _ => some SendPush.spdyStreamPushError

section

open SpdyHandler

variable {c : Completion}

/-- Once `finish` has come only errors call back. -/
theorem calls_finished (events : List StreamEvent) :
    (Emitter.emitAll StreamEvent.name ⟨[⟨.error, false, onError⟩], c⟩ events).state.calls
      = c.calls ++ (events.filter fun e => e ≠ .finish).map
          fun _ => some SendPush.spdyStreamPushError := by
  induction events generalizing c with
  | nil => simp
  | cons e rest ih =>
    cases e with
    | error err =>
      rw [Emitter.emitAll_cons, Emitter.emit_on (by rfl), ih]
      simp [onError, complete]
    | finish =>
      rw [Emitter.emitAll_cons, Emitter.emit_on_other (by decide), ih]
      simp

theorem calls_waiting (events : List StreamEvent) :
    (Emitter.emitAll StreamEvent.name
      ⟨[⟨.error, false, onError⟩, ⟨.finish, true, onFinish⟩], c⟩ events).state.calls
      = c.calls ++ callsWaiting events := by
  induction events generalizing c with
  | nil => simp [callsWaiting]
  | cons e rest ih =>
    cases e with
    | error err =>
      rw [Emitter.emitAll_cons, Emitter.emit_on_once (by decide) (by rfl), ih]
      simp [onError, complete, callsWaiting]
    | finish =>
      rw [Emitter.emitAll_cons, Emitter.emit_once (by decide) (by rfl), calls_finished]
      simp [onFinish, complete, callsWaiting]

theorem serverPush_opened (events : List StreamEvent) :
    serverPush .opened events = callsWaiting events :=
  calls_waiting (c := ⟨0, []⟩) events

end

/-- What the waterfall of `SendPush.handle` does with one call of the completion callback. -/
def SendPush.onPushed {ι : Type*} (w : World ι) (i : ι) (msg : PushMsg) (session : Model.Session) :
    Option HttpError → Turn ι
  | none => ⟨w, [.startTimer i msg session], none, []⟩
  | some e => handleFailure w msg e

/-- The outcome by which the push world knows the event of a stream. -/
def StreamEvent.outcome : StreamEvent → Outcome
  | .error _ => .error
  | .finish => .ok

/-- The push world takes the first event of a stream and what its call leads to. -/
theorem onStreamEvent_eq {ι : Type*} (w : World ι) (i : ι) (msg : PushMsg)
    (session : Model.Session) (e : StreamEvent) (rest : List StreamEvent) :
    SendPush.onStreamEvent w i msg session e.outcome
      = (serverPush .opened (e :: rest)).head?.map (SendPush.onPushed w i msg session) := by
  rw [serverPush_opened]
  cases e <;> rfl

/-- While `finish` is waited for every event calls back. -/
theorem callsWaiting_eq_nil {events : List StreamEvent} : callsWaiting events = [] ↔ events = [] := by
  cases events with
  | nil => simp [callsWaiting]
  | cons e rest => cases e <;> simp [callsWaiting]

/-- The first call is the first event's. -/
theorem callsWaiting_cons (first : StreamEvent) (rest : List StreamEvent) :
    ∃ result more, callsWaiting (first :: rest) = result :: more ∧
      (result.isSome = true ↔ first.name = .error) ∧ (more = [] ↔ Ends (first :: rest)) := by
  cases first with
  | error err =>
    exact ⟨_, _, rfl, by simp [StreamEvent.name], callsWaiting_eq_nil⟩
  | finish =>
    refine ⟨_, _, rfl, by simp [StreamEvent.name], ?_⟩
    rw [List.map_eq_nil_iff, List.filter_eq_nil_iff]
    simp [Ends]

/-- For every way a push starts and every sequence of stream events: the completion callback is called
    once, as the first event says, iff no stream is opened or the sequence ends with its first event,
    repeated `finish` events apart. -/
theorem completesOnce_iff_ends (opening : Opening) (events : List StreamEvent) :
    CompletesOnce opening events ↔ (opening = .opened → Ends events) := by
  cases opening with
  | notWriteable =>
    refine ⟨fun _ h => by simp at h, fun _ => ⟨le_rfl, fun _ => ⟨_, rfl⟩, fun _ _ h => by simp at h⟩⟩
  | pushFailed err =>
    refine ⟨fun _ h => by simp at h, fun _ => ⟨le_rfl, fun _ => ⟨_, rfl⟩, fun _ _ h => by simp at h⟩⟩
  | opened =>
    cases events with
    | nil =>
      refine ⟨fun _ _ => trivial, fun _ => ⟨?_, fun h => absurd rfl h, fun _ _ _ h => by simp at h⟩⟩
      rw [serverPush_opened]; simp [callsWaiting]
    | cons first rest =>
      obtain ⟨result, more, hcalls, hresult, hmore⟩ := callsWaiting_cons first rest
      rw [← serverPush_opened] at hcalls
      constructor
      · rintro ⟨hone, -, -⟩ -
        rw [hcalls] at hone
        exact hmore.mp (by simpa using hone)
      · intro hends
        rw [hmore.mpr (hends rfl)] at hcalls
        refine ⟨by rw [hcalls]; rfl, fun h => absurd rfl h, ?_⟩
        rintro first' rest' - heq
        obtain ⟨rfl, rfl⟩ := List.cons.inj heq
        exact ⟨result, hcalls, hresult⟩

/-- An error after the stream has finished: the callback is called with `null` and then with 404. -/
theorem not_completesOnce_errorAfterFinish :
    serverPush .opened [.finish, .error "ECONNRESET"]
        = [none, some ⟨404, "spdy stream push error"⟩] ∧
      ¬ CompletesOnce .opened [.finish, .error "ECONNRESET"] := by
  have hcalls : serverPush .opened [.finish, .error "ECONNRESET"]
      = [none, some ⟨404, "spdy stream push error"⟩] := rfl
  refine ⟨hcalls, fun h => ?_⟩
  have hone := h.atMostOnce
  rw [hcalls] at hone
  simp at hone

end Elephant.Push
