import Elephant.Schemes.Js

/-! Sessions and the session manager of one worker (`model/session.coffee`).

    A worker keeps its sessions in a plain object indexed by client id, next to a counter. A session
    is an object with an identity of its own (`ref`), which is what tells two listens of one client
    apart; its push timers live with the push model. Wall-clock time in milliseconds enters through
    the explicit `now`. -/

namespace Elephant.Model
open Elephant.Schemes

abbrev ClientId := String
abbrev PushId := String
abbrev ServerId := String
abbrev WorkerId := ℕ
abbrev SocketId := ℕ

/-- The SPDY handler wraps the request/response pair of one listen, hence its socket. -/
structure SpdyHandler where
  socket : SocketId
  deriving DecidableEq, Repr

/-- `req.params.clientInfo`, built by the listen handler and given to `addSession`. -/
structure ClientInfo where
  clientId : ClientId
  isSpdy : Bool
  pushId : PushId
  serverId : ServerId
  spdyHandler : Option SpdyHandler
  stream : SocketId
  workerId : WorkerId
  deriving DecidableEq, Repr

structure Session where
  ref : ℕ
  startTime : ℕ
  stream : SocketId
  isSpdy : Bool
  clientId : ClientId
  pushId : PushId
  serverId : ServerId
  workerId : WorkerId
  spdyHandler : Option SpdyHandler
  deriving DecidableEq, Repr

/-- `Session.createSession`: a new object, here with the identity `ref`. -/
def Session.createSession (ref now : ℕ) (options : ClientInfo) : Session where
  ref := ref
  startTime := now
  stream := options.stream
  isSpdy := options.isSpdy
  clientId := options.clientId
  pushId := options.pushId
  serverId := options.serverId
  workerId := options.workerId
  spdyHandler := options.spdyHandler

structure SessionManager where
  sessionMap : PlainObject Session
  numSessions : ℤ
  deriving DecidableEq

namespace SessionManager

def create : SessionManager := ⟨∅, 0⟩

/-- `hasOwnProperty`, so inherited names do not count. No client id that is issued has the name of this
    method, so no session hides it. -/
def hasSession (m : SessionManager) (clientId : ClientId) : Bool := decide (clientId ∈ m.sessionMap)

def getLength (m : SessionManager) : ℤ := m.numSessions

def getSession (m : SessionManager) (clientId : ClientId) : Option (Found Session) :=
  m.sessionMap.read clientId

/-- Delete by client id and return the session's duration in seconds, `-1` without a session. -/
def deleteSession (m : SessionManager) (now : ℕ) (clientId : ClientId) : SessionManager × JsNum :=
  match m.getSession clientId with
  | some (.own client) =>
    (⟨m.sessionMap.erase clientId, m.numSessions - 1⟩,
      .fin (((now : ℤ) - (client.startTime : ℤ) : ℤ) / 1000))
  -- an inherited name is truthy but has no `startTime`, and `delete` has nothing to remove
  | some .inherited => (⟨m.sessionMap.erase clientId, m.numSessions - 1⟩, .nan)
  | none => (m, .fin (-1))

/-- Create a session and put it under its client id, over whatever was there. -/
def addSession (m : SessionManager) (ref now : ℕ) (options : ClientInfo) :
    SessionManager × Session :=
  let session := Session.createSession ref now options
  (⟨m.sessionMap.assign session.clientId session,
      if m.hasSession session.clientId then m.numSessions else m.numSessions + 1⟩, session)

theorem getSession_create (c : ClientId) (s : Session) : create.getSession c ≠ some (.own s) := by
  rw [getSession, Ne, PlainObject.read_eq_own]
  simp [create]

/-- The session just added is the one found under its client id. -/
theorem getSession_addSession_self (m : SessionManager) (ref now : ℕ) {options : ClientInfo}
    (hid : options.clientId ≠ "__proto__") :
    (m.addSession ref now options).1.getSession options.clientId
      = some (.own (Session.createSession ref now options)) :=
  PlainObject.read_assign_self hid ..

theorem getSession_addSession_ne (m : SessionManager) (ref now : ℕ) {options : ClientInfo}
    {c : ClientId} (h : c ≠ options.clientId) :
    (m.addSession ref now options).1.getSession c = m.getSession c :=
  PlainObject.read_assign_ne h

/-- A session found after an add is the new one or was there before. -/
theorem getSession_of_addSession {m : SessionManager} {ref now : ℕ} {options : ClientInfo}
    {c : ClientId} {s : Session}
    (h : (m.addSession ref now options).1.getSession c = some (.own s)) :
    (c = options.clientId ∧ s = .createSession ref now options) ∨ m.getSession c = some (.own s) :=
  PlainObject.read_of_assign h

/-- Deleting one client leaves every other client's session in place. -/
theorem getSession_deleteSession_ne (m : SessionManager) (now : ℕ) {c c' : ClientId} (h : c ≠ c') :
    (m.deleteSession now c').1.getSession c = m.getSession c := by
  unfold deleteSession
  split
  · exact PlainObject.read_erase_ne h
  · exact PlainObject.read_erase_ne h
  · rfl

/-- After a delete the client has no session, whichever listen had created it. -/
theorem getSession_deleteSession_self (m : SessionManager) (now : ℕ) (c : ClientId) (s : Session) :
    (m.deleteSession now c).1.getSession c ≠ some (.own s) := by
  unfold deleteSession
  split
  · exact PlainObject.read_erase_self _ _ _
  · exact PlainObject.read_erase_self _ _ _
  · rename_i h; rw [h]; simp

end SessionManager

end Elephant.Model
