import Elephant.Api.Validate
import Elephant.ClientMap.Store
import Elephant.Schemes.Pool

/-! Where a push request goes (`api/app/v2/push.coffee`, `push/dispatch.coffee`).

    The server looks the push id up in its client map. A client of this server is pushed to locally; a
    request for a client of another server is forwarded there, with a `via` header, unless it has one
    already. Servers may disagree about who has the client, and their maps change all the time:

        enter ──▶ handled ──▶ local push
                    │ ╰─────▶ error response
                    ╰ forwarded, with via ──▶ handled ──▶ local push
                                                ╰───────▶ error response -/

namespace Elephant.App
open Elephant.Schemes Elephant.Model Elephant.ClientMap Elephant.Api
open Elephant.Push (HttpError)

/-- What identifies a server in the requests it forwards. -/
structure Server where
  serverId : ServerId
  version : String
  hostname : String
  deriving DecidableEq, Repr

/-- Where a request goes; `headers` are those of the forwarded request. -/
inductive Route where
  | toPeer (serverId : ServerId) (headers : PlainObject String)
  | toWorker (client : Row)

/-! ### `push/dispatch.coffee` -/

/-- `'via' of req.headers`. -/
def Dispatcher.isForwarded (headers : PlainObject String) : Bool := headers.isIn "via"

/-- The headers of the forwarded request, with the names as the peer will see them. -/
def Dispatcher.headers (server : Server) (remoteAddress : String) (headers : PlainObject String) :
    PlainObject String :=
  (headers.insert "x-forwarded-for" remoteAddress).insert "via"
    ("elephant/" ++ server.version ++ " " ++ server.hostname)

/-- How a forwarded request can fail: a timeout, or another error with its message. -/
def Dispatcher.upstreamError : Option String → HttpError
  | none => ⟨504, "request to upstream server timed out"⟩
  | some message => ⟨502, message⟩

/-! ### `api/app/v2/push.coffee` -/

namespace Push

def getClientInfo : Answer (Option Row) → Next Row
  | .error _ => .error internalDbError
  | .ok none => .error ⟨404, "client not connected"⟩
  | .ok (some client) => .ok client

variable (server : Server) (remoteAddress : String) (headers : PlainObject String)

def forwardPush (serverId : ServerId) : Next Route :=
  if Dispatcher.isForwarded headers then .error ⟨502, "cannot forward push more than once"⟩
  else .ok (.toPeer serverId (Dispatcher.headers server remoteAddress headers))

/-- The client is local if its server id contains the one of this server. -/
def dispatch (client : Row) : Next Route :=
  if includesText client.hostname server.serverId then .ok (.toWorker client)
  else forwardPush server remoteAddress headers client.hostname

/-- The two tasks of `handle`, given what the client map answered. -/
def route (answer : Answer (Option Row)) : Next Route := do
  let client ← getClientInfo answer
  dispatch server remoteAddress headers client

end Push

/-! ### A network of servers -/

/-- A request on its way to some server. `origin` is the number of the request that entered the
    network, `awaited` says that the server that forwarded it waits for the answer. -/
structure PushMessage where
  origin : ℕ
  headers : PlainObject String
  awaited : Bool

/-- What a server did with a request; `upstreamFailed` is the error response of one that waited for an
    answer in vain. -/
inductive Hop where
  | forwarded (serverId : ServerId)
  | localPush (client : Row)
  | refused (error : HttpError)
  | upstreamFailed (error : HttpError)
  deriving DecidableEq, Repr

def Hop.isForward : Hop → Bool
  | .forwarded _ => true
  | _ => false

/-- A handler has run. -/
def Hop.isHandled : Hop → Bool
  | .upstreamFailed _ => false
  | _ => true

/-- Nothing follows. -/
def Hop.isEnd (hop : Hop) : Bool := !hop.isForward

theorem Hop.isForward_of_isEnd {hop : Hop} (h : hop.isEnd = true) : hop.isForward = false := by
  simpa [Hop.isEnd] using h

structure Network where
  entered : ℕ
  pending : List PushMessage
  hops : List (ℕ × Hop)

def Network.create : Network := ⟨0, [], []⟩

/-- Any server may get to handle a request, and its map may answer anything. Where the forwarding
    server gives up, the request is `lost`, or it is still handled by the peer. -/
inductive NetworkEvent where
  | enter (headers : PlainObject String)
  | handle (n : ℕ) (server : Server) (remoteAddress : String) (answer : Answer (Option Row))
  | fail (n : ℕ) (error : Option String) (lost : Bool)

namespace Network

/-- The message at position `n` becomes `next`. -/
def advance (s : Network) (n : ℕ) (m : PushMessage) (next : List PushMessage) (hop : Hop) :
    Network :=
  { s with pending := replaceAt s.pending n next, hops := s.hops ++ [(m.origin, hop)] }

def step (s : Network) : NetworkEvent → Option Network
  | .enter headers =>
    some { s with entered := s.entered + 1, pending := s.pending ++ [⟨s.entered, headers, false⟩] }
  | .handle n server remoteAddress answer => s.pending[n]?.map fun m =>
      match Push.route server remoteAddress m.headers answer with
      | .error e => s.advance n m [] (.refused e)
      | .ok (.toWorker client) => s.advance n m [] (.localPush client)
      | .ok (.toPeer serverId headers) =>
        s.advance n m [{ m with headers := headers, awaited := true }] (.forwarded serverId)
  | .fail n error lost => s.pending[n]?.bind fun m =>
      if m.awaited then
        some (s.advance n m (if lost then [] else [{ m with awaited := false }])
          (.upstreamFailed (Dispatcher.upstreamError error)))
      else none

/-- The messages and the hops of one entering request. -/
def pendingOf (s : Network) (k : ℕ) : List PushMessage := s.pending.filter fun m => m.origin = k

def hopsOf (s : Network) (k : ℕ) : List Hop := (s.hops.filter fun h => h.1 = k).map Prod.snd

/-- At most one forwarded request and two handlers, and what has entered is either on its way to the
    next handler, of which there is one, or has ended in a local push or an error response. -/
structure LoopFree (s : Network) (k : ℕ) : Prop where
  oneForward : (s.hopsOf k).countP Hop.isForward ≤ 1
  twoHandlers : (s.hopsOf k).countP Hop.isHandled ≤ 2
  onItsWay : s.pendingOf k ≠ [] →
    (s.pendingOf k).length = 1 ∧ (s.hopsOf k).countP Hop.isHandled < 2
  ends : k < s.entered → s.pendingOf k = [] → ∃ hop, (s.hopsOf k).getLast? = some hop ∧ hop.isEnd = true

/-! ### What a step does to one request -/

/-- What a turn leaves of a message: nothing, one that cannot be forwarded again, or one that nobody
    waits for any more. -/
inductive Moves (m : PushMessage) : List PushMessage → Hop → Prop
  | ended {hop : Hop} (h : hop.isEnd = true) : Moves m [] hop
  | forwarded (m' : PushMessage) (serverId : ServerId) (h : Dispatcher.isForwarded m.headers = false)
      (horigin : m'.origin = m.origin) (hvia : Dispatcher.isForwarded m'.headers = true) :
      Moves m [m'] (.forwarded serverId)
  | givenUp (error : HttpError) (h : m.awaited = true) :
      Moves m [{ m with awaited := false }] (.upstreamFailed error)

theorem isForwarded_headers (server : Server) (remoteAddress : String)
    (headers : PlainObject String) :
    Dispatcher.isForwarded (Dispatcher.headers server remoteAddress headers) = true := by
  simp [Dispatcher.isForwarded, Dispatcher.headers, PlainObject.isIn, AList.mem_insert]

/-- Only a request without `via` is sent to a peer, and it then has one. -/
theorem route_toPeer {server : Server} {remoteAddress : String} {headers headers' : PlainObject String}
    {answer : Answer (Option Row)} {serverId : ServerId}
    (h : Push.route server remoteAddress headers answer = .ok (.toPeer serverId headers')) :
    Dispatcher.isForwarded headers = false ∧
      headers' = Dispatcher.headers server remoteAddress headers := by
  rcases answer with err | (_ | client)
  · simp [Push.route, Push.getClientInfo, bind, Except.bind] at h
  · simp [Push.route, Push.getClientInfo, bind, Except.bind] at h
  · simp only [Push.route, Push.getClientInfo, bind, Except.bind, Push.dispatch,
      Push.forwardPush] at h
    split at h
    · simp at h
    · split at h
      · simp at h
      · rename_i hvia
        simp only [Except.ok.injEq, Route.toPeer.injEq] at h
        exact ⟨by simpa using hvia, h.2.symm⟩

theorem step_cases {s s' : Network} {e : NetworkEvent} (h : s.step e = some s') :
    (∃ headers, s' = { s with entered := s.entered + 1
                              pending := s.pending ++ [⟨s.entered, headers, false⟩] }) ∨
    ∃ n m next hop, s.pending[n]? = some m ∧ Moves m next hop ∧ s' = s.advance n m next hop := by
  cases e with
  | enter headers => exact .inl ⟨headers, (Option.some.inj h).symm⟩
  | handle n server remoteAddress answer =>
    obtain ⟨m, hm, rfl⟩ := Option.map_eq_some_iff.mp h
    right
    split
    · exact ⟨n, m, _, _, hm, .ended rfl, rfl⟩
    · exact ⟨n, m, _, _, hm, .ended rfl, rfl⟩
    · rename_i serverId headers' hroute
      obtain ⟨hvia, rfl⟩ := route_toPeer hroute
      exact ⟨n, m, _, _, hm, .forwarded { m with headers := _, awaited := true } serverId hvia rfl
        (isForwarded_headers server remoteAddress m.headers), rfl⟩
  | fail n error lost =>
    obtain ⟨m, hm, hm'⟩ := Option.bind_eq_some_iff.mp h
    split at hm'
    · rename_i hawaited
      refine .inr ⟨n, m, _, _, hm, ?_, (Option.some.inj hm').symm⟩
      cases lost with
      | true => exact .ended rfl
      | false => exact .givenUp _ hawaited
    · simp at hm'

/-! ### The chain of one request -/

/-- How far the chain of handlers of one request has come. -/
inductive Chain : List PushMessage → List Hop → Prop
  | fresh {m : PushMessage} (h : m.awaited = false) : Chain [m] []
  | relayed {m : PushMessage} (serverId : ServerId) (hvia : Dispatcher.isForwarded m.headers = true) :
      Chain [m] [.forwarded serverId]
  | givenUp {m : PushMessage} (serverId : ServerId) (error : HttpError)
      (hvia : Dispatcher.isForwarded m.headers = true) (h : m.awaited = false) :
      Chain [m] [.forwarded serverId, .upstreamFailed error]
  | ended {hop : Hop} (h : hop.isEnd = true) : Chain [] [hop]
  | relayedEnded {hop : Hop} (serverId : ServerId) (h : hop.isEnd = true) :
      Chain [] [.forwarded serverId, hop]
  | givenUpEnded (hop : Hop) (serverId : ServerId) (error : HttpError) (h : hop.isEnd = true) :
      Chain [] [.forwarded serverId, .upstreamFailed error, hop]

theorem Chain.single {m : PushMessage} {pending : List PushMessage} {hops : List Hop}
    (h : Chain pending hops) (hm : m ∈ pending) : pending = [m] := by
  cases h with
  | fresh => rw [List.mem_singleton.mp hm]
  | relayed => rw [List.mem_singleton.mp hm]
  | givenUp => rw [List.mem_singleton.mp hm]
  | ended => simp at hm
  | relayedEnded => simp at hm
  | givenUpEnded => simp at hm

/-- A turn of the only message of the chain. -/
theorem Chain.moves {m : PushMessage} {next : List PushMessage} {hops : List Hop} {hop : Hop}
    (h : Chain [m] hops) (hmove : Moves m next hop) : Chain next (hops ++ [hop]) := by
  cases h with
  | fresh hfresh =>
    cases hmove with
    | ended hend => exact .ended hend
    | forwarded _ serverId _ _ hvia => exact .relayed serverId hvia
    | givenUp _ hawaited => rw [hfresh] at hawaited; simp at hawaited
  | relayed serverId hvia =>
    cases hmove with
    | ended hend => exact .relayedEnded serverId hend
    | forwarded _ _ hno => rw [hvia] at hno; simp at hno
    | givenUp error => exact .givenUp serverId error hvia rfl
  | givenUp serverId error hvia hnot =>
    cases hmove with
    | ended hend => exact .givenUpEnded _ serverId error hend
    | forwarded _ _ hno => rw [hvia] at hno; simp at hno
    | givenUp _ hawaited => rw [hnot] at hawaited; simp at hawaited

/-- Requests that have entered have a chain, the others have nothing. -/
def Inv (s : Network) : Prop :=
  ∀ k, (k < s.entered → Chain (s.pendingOf k) (s.hopsOf k)) ∧
    (s.entered ≤ k → s.pendingOf k = [] ∧ s.hopsOf k = [])

theorem inv_create : Inv .create := by
  intro k; simp [create, pendingOf, hopsOf]

theorem pendingOf_enter (s : Network) (headers : PlainObject String) (k : ℕ) :
    pendingOf { s with entered := s.entered + 1
                       pending := s.pending ++ [⟨s.entered, headers, false⟩] } k
      = s.pendingOf k ++ if s.entered = k then [⟨s.entered, headers, false⟩] else [] := by
  simp only [pendingOf, List.filter_append, List.filter_cons, List.filter_nil]
  by_cases hk : s.entered = k <;> simp [hk]

theorem hopsOf_advance (s : Network) (n : ℕ) (m : PushMessage) (next : List PushMessage) (hop : Hop)
    (k : ℕ) : (s.advance n m next hop).hopsOf k
      = s.hopsOf k ++ if m.origin = k then [hop] else [] := by
  simp only [hopsOf, advance, List.filter_append, List.filter_cons, List.filter_nil, List.map_append]
  by_cases hk : m.origin = k <;> simp [hk]

theorem Moves.origin {m m' : PushMessage} {next : List PushMessage} {hop : Hop} (h : Moves m next hop)
    (hm' : m' ∈ next) : m'.origin = m.origin := by
  cases h with
  | ended => simp at hm'
  | forwarded _ _ _ horigin _ => rw [List.mem_singleton.mp hm', horigin]
  | givenUp => rw [List.mem_singleton.mp hm']

/-- A request that enters starts a chain of its own. -/
theorem Inv.enter {s : Network} (hinv : Inv s) (headers : PlainObject String) :
    Inv { s with entered := s.entered + 1
                 pending := s.pending ++ [⟨s.entered, headers, false⟩] } := by
  intro k
  rw [pendingOf_enter]
  obtain ⟨hlt, hge⟩ := hinv k
  refine ⟨fun hk => ?_, fun hk => ?_⟩
  · by_cases heq : s.entered = k
    · obtain ⟨hp, hh⟩ := hge heq.le
      rw [if_pos heq, hp]
      show Chain _ (s.hopsOf k)
      rw [hh]; exact .fresh rfl
    · rw [if_neg heq, List.append_nil]
      exact hlt (by simp only at hk; omega)
  · simp only at hk
    rw [if_neg (by omega), List.append_nil]
    exact hge (by omega)

/-- The messages of the other requests stay when `m` takes its turn. -/
theorem pendingOf_advance_ne {s : Network} {n k : ℕ} {m : PushMessage} {next : List PushMessage}
    {hop : Hop} (hm : s.pending[n]? = some m) (hmove : Moves m next hop) (hk : m.origin ≠ k) :
    (s.advance n m next hop).pendingOf k = s.pendingOf k := by
  refine filter_replaceAt_of_not hm (by simpa using hk) ?_
  rw [List.filter_eq_nil_iff]
  intro m' hm'
  simpa [hmove.origin hm'] using hk

/-- A request whose only message is `m` has the messages `m` turned into. -/
theorem pendingOf_advance_self {s : Network} {n k : ℕ} {m : PushMessage} {next : List PushMessage}
    {hop : Hop} (hm : s.pending[n]? = some m) (hmove : Moves m next hop) (hk : m.origin = k)
    (hone : s.pendingOf k = [m]) : (s.advance n m next hop).pendingOf k = next := by
  obtain ⟨-, hnext⟩ := filter_replaceAt_single next hm (by simpa using hk) hone
  refine hnext.trans ?_
  rw [List.filter_eq_self]
  intro m' hm'
  simpa using (hmove.origin hm').trans hk

/-- A message that takes its turn continues the chain of its request and no other. -/
theorem Inv.advance {s : Network} {n : ℕ} {m : PushMessage} {next : List PushMessage} {hop : Hop}
    (hinv : Inv s) (hm : s.pending[n]? = some m) (hmove : Moves m next hop) :
    Inv (s.advance n m next hop) := by
  intro k
  rw [hopsOf_advance]
  obtain ⟨hlt, hge⟩ := hinv k
  by_cases hk : m.origin = k
  · have hmem : m ∈ s.pendingOf k := by
      simp only [pendingOf, List.mem_filter]
      exact ⟨List.mem_of_getElem? hm, by simpa using hk⟩
    have hentered : k < s.entered := by
      by_contra hge'
      rw [(hge (by omega)).1] at hmem; simp at hmem
    have hchain := hlt hentered
    have hone : s.pendingOf k = [m] := hchain.single hmem
    refine ⟨fun _ => ?_, fun hk' => absurd hentered (by simp only [Network.advance] at hk'; omega)⟩
    rw [if_pos hk, pendingOf_advance_self hm hmove hk hone]
    rw [hone] at hchain
    exact hchain.moves hmove
  · rw [if_neg hk, List.append_nil, pendingOf_advance_ne hm hmove hk]
    exact ⟨hlt, hge⟩

theorem inv_step {s s' : Network} {e : NetworkEvent} (hinv : Inv s) (h : s.step e = some s') :
    Inv s' := by
  rcases step_cases h with ⟨headers, rfl⟩ | ⟨n, m, next, hop, hm, hmove, rfl⟩
  · exact hinv.enter headers
  · exact hinv.advance hm hmove

theorem loopFree_of_inv {s : Network} (h : Inv s) (k : ℕ) : s.LoopFree k := by
  obtain ⟨hlt, hge⟩ := h k
  by_cases hk : k < s.entered
  · have hchain := hlt hk
    generalize hp : s.pendingOf k = pending at hchain
    generalize hh : s.hopsOf k = hops at hchain
    refine ⟨?_, ?_, ?_, fun _ => ?_⟩ <;> rw [hh] <;> try rw [hp]
    · cases hchain with
      | fresh => simp
      | relayed => simp [Hop.isForward]
      | givenUp => simp [List.countP_cons, Hop.isForward]
      | ended => exact List.countP_le_length
      | relayedEnded _ hend =>
        rw [List.countP_cons, List.countP_cons, Hop.isForward_of_isEnd hend]
        simp [Hop.isForward]
      | givenUpEnded _ _ _ hend =>
        rw [List.countP_cons, List.countP_cons, List.countP_cons, Hop.isForward_of_isEnd hend]
        simp [Hop.isForward]
    · cases hchain with
      | fresh => simp
      | relayed => simp [List.countP_cons, Hop.isHandled]
      | givenUp => simp [List.countP_cons, Hop.isHandled]
      | ended => exact (List.countP_le_length).trans (by simp)
      | relayedEnded => exact List.countP_le_length
      | givenUpEnded hop =>
        -- the error response of the forwarding server is not a handler's
        rw [List.countP_cons, List.countP_cons_of_neg (by simp [Hop.isHandled])]
        have hlast := List.countP_le_length (p := Hop.isHandled) (l := [hop])
        simp only [List.length_cons, List.length_nil] at hlast
        split <;> omega
    · cases hchain <;> simp [List.countP_cons, Hop.isHandled]
    · cases hchain <;> simp_all
  · obtain ⟨hp, hh⟩ := hge (by omega)
    exact ⟨by simp [hh], by simp [hh], fun hne => absurd hp hne, fun hlt' => absurd hlt' hk⟩

end Network

end Elephant.App
