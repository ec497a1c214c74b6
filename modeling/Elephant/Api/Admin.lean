import Elephant.App.Accounting
import Elephant.App.CallbackData
import Elephant.Blacklist.Storage

/-! The admin API (`api/admin/v1/admin.coffee`).

    One request asks where a client is connected, two revoke an id. A revocation stores whatever value
    the body has for the id, and answers with a text that the value is put into:

        isPost ─▶ isJson ─▶ parseJson ─▶ parse fields ─▶ insert ─▶ 200 "… revoked !"
          ╰─ 405    ╰─ 415     ╰─ 400        ╰─ 400, throws  ╰─ 500     ╰─ throws

    The tables of revoked ids are written by nothing else. The main result says that at any time exactly
    those ids are refused whose revocation was answered with 200, or was not answered at all because the
    value could not be put into the text. -/

namespace Elephant.Api.Admin
open Elephant.Schemes Elephant.Model Elephant.ClientMap Elephant.Blacklist
open Elephant.App (Varchar Accounted statusOf_failure)
open Elephant.Push (HttpError)
open Elephant.Push.PushCallback (statusOf)
open Async (lift liftThrow)

def dbError : HttpError := ⟨500, "Internal DB Error"⟩

/-! ### `getClient` -/

section

variable {σ : Type} (req : Request)

def validateClientRequest : Async σ HttpError Unit := do
  lift (Validate.isGet req)
  lift (Validate.acceptsJson req)

/-- The row with the time it was written. -/
def lookUpClient : Answer (Option (Row × ℕ)) → Next (Row × ℕ)
  | .error _ => .error dbError
  | .ok none => .error ⟨404, "Not Found"⟩
  | .ok (some client) => .ok client

def completeClient : Except HttpError (Row × ℕ) → List Output
  | .error e => [errorResponse e, .audit ⟨"admin-getClient", false, statusOf (some e), some e.message⟩]
  | .ok (client, timestamp) => [.response 200 (.obj [("push_id", .str client.pushid),
      ("connected_ts", .num (.fin timestamp)), ("hostname", .str client.hostname),
      ("worker_id", .str client.workerid)]), .audit ⟨"admin-getClient", true, statusOf none, none⟩]

def getClient (answer : Answer (Option (Row × ℕ))) (s : σ) : σ × Option (List Output) :=
  finish completeClient ((do
    validateClientRequest req
    lift (lookUpClient answer)) s)

end

/-! ### The revocations -/

def validateRevokeRequest {σ : Type} (L : Library) (req : Request) : Async σ HttpError Json := do
  lift (Validate.isPost req)
  lift (Validate.isJson req)
  lift (Validate.parseJson L req)

def parseRevokeClientId (body : Json) : Except Throw (Next Json) := do
  let clientId ← body.get "clientId"
  if !Json.truthy clientId then return .error ⟨400, "Missing clientId"⟩
  return .ok (clientId.getD .null)

/-- The push id and the client id. -/
def parseRevokePushId (body : Json) : Except Throw (Next (Json × Json)) := do
  let clientId ← body.get "clientId"
  let pushId ← body.get "pushId"
  if !Json.truthy clientId then return .error ⟨400, "Missing clientId"⟩
  if !Json.truthy pushId then return .error ⟨400, "Missing pushId"⟩
  return .ok (pushId.getD .null, clientId.getD .null)

section

variable (V : Varchar) (up : Bool) (now : ℕ)

/-- `none` is an error of the database; where it is down every call is one. -/
def writeClientId (clientId : Json) (s : BlacklistMysqlStorage) : Option BlacklistMysqlStorage :=
  if up then do
    let c ← V.store clientId
    s.call (.revokeClientId now c)
  else none

def writePushId (ids : Json × Json) (s : BlacklistMysqlStorage) : Option BlacklistMysqlStorage :=
  if up then do
    let p ← V.store ids.1
    let c ← V.store ids.2
    s.call (.revokePushId now p c)
  else none

end

/-- `_revokeClientId` and `_revokePushId`. -/
def insert {α : Type} (write : α → BlacklistMysqlStorage → Option BlacklistMysqlStorage) (a : α) :
    Async BlacklistMysqlStorage HttpError α := fun s =>
  match write a s with
  | none => (s, .calls [.error dbError])
  | some s' => (s', .calls [.ok a])

/-- With the database up, and for ids that the columns hold as they are, the tasks are the calls of
    `Elephant.Blacklist.Storage`. -/
theorem insert_clientId (V : Varchar) (now : ℕ) {c : ClientId} (hc : c.length ≤ 255)
    (s : BlacklistMysqlStorage) : insert (writeClientId V true now) (.str c) s =
      ((revoke s (.revokeClientId now c)).1,
        .calls [(revoke s (.revokeClientId now c)).2.map fun _ => .str c]) := by
  simp only [insert, writeClientId, V.fits c hc, if_true, Option.bind_eq_bind, Option.bind_some,
    revoke, AdminCall.toCall]
  cases s.call (.revokeClientId now c) <;> rfl

theorem insert_pushId (V : Varchar) (now : ℕ) {p : PushId} {c : ClientId} (hp : p.length ≤ 255)
    (hc : c.length ≤ 255) (s : BlacklistMysqlStorage) :
    insert (writePushId V true now) (.str p, .str c) s =
      ((revoke s (.revokePushId now p c)).1,
        .calls [(revoke s (.revokePushId now p c)).2.map fun _ => (.str p, .str c)]) := by
  simp only [insert, writePushId, V.fits p hp, V.fits c hc, if_true, Option.bind_eq_bind,
    Option.bind_some, revoke, AdminCall.toCall]
  cases s.call (.revokePushId now p c) <;> rfl

/-- The text of the answer has the value in it, which may throw. -/
def completeRevoke (N : NumberText) (event what : String) :
    Except HttpError Json → Except Throw (List Output)
  | .error e => .ok [errorResponse e, .audit ⟨event, false, statusOf (some e), none⟩]
  | .ok id => (id.toText N).map fun text =>
      [.response 200 (.str (what ++ text ++ " revoked !")), .audit ⟨event, true, statusOf none, none⟩]

/-- A completion that may throw. -/
def finishThrowing {σ α : Type} (complete : Except HttpError α → Except Throw (List Output)) :
    σ × Reply HttpError α → σ × Option (List Output)
  | (s, .throws) => (s, none)
  | (s, .calls results) => (s, (results.mapM complete).toOption.map List.flatten)

/-- The handler of a revocation: `parse` reads the body, `id` is what is revoked. -/
def revokeHandler {α : Type} (L : Library) (event what : String)
    (parse : Json → Except Throw (Next α)) (id : α → Json)
    (write : α → BlacklistMysqlStorage → Option BlacklistMysqlStorage) (req : Request)
    (s : BlacklistMysqlStorage) : BlacklistMysqlStorage × Option (List Output) :=
  finishThrowing (completeRevoke L.numbers event what) ((do
    let body ← validateRevokeRequest L req
    let a ← liftThrow (parse body)
    let a ← insert write a
    return id a) s)

section

variable (L : Library) (V : Varchar) (up : Bool) (now : ℕ) (req : Request)

def revokeClientId : BlacklistMysqlStorage → BlacklistMysqlStorage × Option (List Output) :=
  revokeHandler L "revoke-clientId" "client " parseRevokeClientId id (writeClientId V up now) req

def revokePushId : BlacklistMysqlStorage → BlacklistMysqlStorage × Option (List Output) :=
  revokeHandler L "revoke-pushId" "pushId " parseRevokePushId Prod.fst (writePushId V up now) req

end

/-! ### What a revocation does -/

section

variable {α : Type}

/-- Everything that can come of a revocation: it is refused, the process throws while it reads the
    body, or the id is stored and the answer is 200 or none. -/
inductive Revocation (L : Library) (event what : String) (parse : Json → Except Throw (Next α))
    (id : α → Json) (write : α → BlacklistMysqlStorage → Option BlacklistMysqlStorage) (req : Request)
    (s : BlacklistMysqlStorage) : BlacklistMysqlStorage × Option (List Output) → Prop
  | refused (e : HttpError) (he : HttpFailure e) : Revocation L event what parse id write req s
      (s, some [errorResponse e, .audit ⟨event, false, statusOf (some e), none⟩])
  | unread {body : Json} {t : Throw} (hbody : Validate.parseJson L req = .ok body)
      (hparse : parse body = .error t) : Revocation L event what parse id write req s (s, none)
  | silent {body : Json} {a : α} {s' : BlacklistMysqlStorage} {t : Throw}
      (hbody : Validate.parseJson L req = .ok body) (hparse : parse body = .ok (.ok a))
      (hwrite : write a s = some s') (ht : (id a).toText L.numbers = .error t) :
      Revocation L event what parse id write req s (s', none)
  | answered {body : Json} {a : α} {s' : BlacklistMysqlStorage} {text : String}
      (hbody : Validate.parseJson L req = .ok body) (hparse : parse body = .ok (.ok a))
      (hwrite : write a s = some s') (ht : (id a).toText L.numbers = .ok text) :
      Revocation L event what parse id write req s
        (s', some [.response 200 (.str (what ++ text ++ " revoked !")),
          .audit ⟨event, true, statusOf none, none⟩])

theorem revokeHandler_revocation (L : Library) (event what : String)
    {parse : Json → Except Throw (Next α)} (hrefusing : ∀ body, RefusingOrThrowing (parse body))
    (id : α → Json) (write : α → BlacklistMysqlStorage → Option BlacklistMysqlStorage) (req : Request)
    (s : BlacklistMysqlStorage) :
    Revocation L event what parse id write req s
      (revokeHandler L event what parse id write req s) := by
  unfold revokeHandler validateRevokeRequest
  rcases hpost : Validate.isPost req with e | _
  · exact .refused e (Validate.refusing_isMethodSupported _ e hpost)
  rcases hjson : Validate.isJson req with e | _
  · exact .refused e (Validate.refusing_isJson e hjson)
  rcases hbody : Validate.parseJson L req with e | body
  · exact .refused e (Validate.refusing_parseJson e hbody)
  simp only [Async.bind_apply, Async.bind, lift, Async.proceed_one]
  rcases hparse : parse body with t | (e | a)
  · exact .unread hbody hparse
  · exact .refused e (hrefusing body e hparse)
  simp only [liftThrow, lift, Async.proceed_one]
  rw [Async.bind_apply, Async.bind, insert]
  rcases hwrite : write a s with _ | s'
  · exact .refused dbError (by decide)
  simp only [Async.proceed_one]
  rcases ht : (id a).toText L.numbers with t | text
  · simpa [finishThrowing, completeRevoke, ht, Except.map, Except.toOption, List.mapM_cons, pure,
      Except.pure, bind, Except.bind] using Revocation.silent hbody hparse hwrite ht
  · simpa [finishThrowing, completeRevoke, ht, Except.map, Except.toOption, List.mapM_cons, pure,
      Except.pure, bind, Except.bind] using Revocation.answered hbody hparse hwrite ht

end

/-! ### The fields of a body -/

theorem exists_of_truthy {v : Option Json} (h : Json.truthy v = true) : ∃ w, v = some w := by
  cases v with
  | none => simp [Json.truthy] at h
  | some w => exact ⟨w, rfl⟩

theorem parseRevokeClientId_cases (body : Json) :
    (body = .null ∧ ∃ t, parseRevokeClientId body = .error t) ∨
      (∃ e, HttpFailure e ∧ parseRevokeClientId body = .ok (.error e)) ∨
      ∃ c, field body "clientId" = some c ∧ parseRevokeClientId body = .ok (.ok c) := by
  by_cases hnull : body = .null
  · subst hnull
    exact .inl ⟨rfl, _, rfl⟩
  refine .inr ?_
  unfold parseRevokeClientId
  simp only [get_eq hnull, bind, Except.bind, pure, Except.pure]
  cases hc : Json.truthy (field body "clientId") with
  | false => exact .inl ⟨⟨400, "Missing clientId"⟩, by decide, by simp⟩
  | true =>
    obtain ⟨c, hc⟩ := exists_of_truthy hc
    exact .inr ⟨c, hc, by simp [hc]⟩

theorem parseRevokePushId_cases (body : Json) :
    (body = .null ∧ ∃ t, parseRevokePushId body = .error t) ∨
      (∃ e, HttpFailure e ∧ parseRevokePushId body = .ok (.error e)) ∨
      ∃ p c, field body "pushId" = some p ∧ parseRevokePushId body = .ok (.ok (p, c)) := by
  by_cases hnull : body = .null
  · subst hnull
    exact .inl ⟨rfl, _, rfl⟩
  refine .inr ?_
  unfold parseRevokePushId
  simp only [get_eq hnull, bind, Except.bind, pure, Except.pure]
  cases hc : Json.truthy (field body "clientId") with
  | false => exact .inl ⟨⟨400, "Missing clientId"⟩, by decide, by simp⟩
  | true =>
    cases hp : Json.truthy (field body "pushId") with
    | false => exact .inl ⟨⟨400, "Missing pushId"⟩, by decide, by simp⟩
    | true =>
      obtain ⟨c, hc⟩ := exists_of_truthy hc
      obtain ⟨p, hp⟩ := exists_of_truthy hp
      exact .inr ⟨p, c, hp, by simp [hc, hp]⟩

theorem refusing_parseRevokeClientId (body : Json) : RefusingOrThrowing (parseRevokeClientId body) := by
  intro e he
  rcases parseRevokeClientId_cases body with ⟨-, t, h⟩ | ⟨e', he', h⟩ | ⟨c, -, h⟩ <;>
    rw [h] at he <;> simp at he
  exact he ▸ he'

theorem refusing_parseRevokePushId (body : Json) : RefusingOrThrowing (parseRevokePushId body) := by
  intro e he
  rcases parseRevokePushId_cases body with ⟨-, t, h⟩ | ⟨e', he', h⟩ | ⟨p, c, -, h⟩ <;>
    rw [h] at he <;> simp at he
  exact he ▸ he'

/-! ### Histories -/

/-- A request to the API, with the answer of the client map or the time and the state of the database. -/
inductive AdminRequest where
  | getClient (req : Request) (answer : Answer (Option (Row × ℕ)))
  | revokeClientId (req : Request) (now : ℕ) (up : Bool)
  | revokePushId (req : Request) (now : ℕ) (up : Bool)

def handle (L : Library) (V : Varchar) :
    AdminRequest → BlacklistMysqlStorage → BlacklistMysqlStorage × Option (List Output)
  | .getClient req answer, s => getClient req answer s
  | .revokeClientId req now up, s => revokeClientId L V up now req s
  | .revokePushId req now up, s => revokePushId L V up now req s

/-- The blacklist, and the requests so far with what was written for each. -/
structure Console where
  blacklist : BlacklistMysqlStorage
  log : List (AdminRequest × Option (List Output))

def Console.create : Console := ⟨.create, []⟩

/-- An admin request, or a refresh of a client elsewhere. -/
inductive ConsoleEvent where
  | request (r : AdminRequest)
  | increment (clientId : ClientId)

def consoleStep (L : Library) (V : Varchar) (c : Console) : ConsoleEvent → Option Console
  | .request r => some ⟨(handle L V r c.blacklist).1, c.log ++ [(r, (handle L V r c.blacklist).2)]⟩
  | .increment clientId =>
    (c.blacklist.call (.incrementRefreshCount clientId)).map fun s => { c with blacklist := s }

/-- The request was answered with 200, or not at all. -/
def Effectual (out : Option (List Output)) : Prop :=
  ∀ outs, out = some outs → ∃ body, .response 200 body ∈ outs

/-- The request revokes the id, as the database has it, and was not refused. -/
def RevokesPushId (L : Library) (V : Varchar) (p : PushId) (x : AdminRequest × Option (List Output)) :
    Prop :=
  Effectual x.2 ∧ ∃ req now up body v, x.1 = .revokePushId req now up ∧
    Validate.parseJson L req = .ok body ∧ field body "pushId" = some v ∧ V.store v = some p

def RevokesClientId (L : Library) (V : Varchar) (c : ClientId)
    (x : AdminRequest × Option (List Output)) : Prop :=
  Effectual x.2 ∧ ∃ req now up body v, x.1 = .revokeClientId req now up ∧
    Validate.parseJson L req = .ok body ∧ field body "clientId" = some v ∧ V.store v = some c

/-- The ids that are refused are those whose revocation took effect, and every request that was answered
    has one response and one record that says so. -/
structure Honest (L : Library) (V : Varchar) (c : Console) : Prop where
  pushIds : ∀ p, Validate.validateRevokedPushId (.ok (c.blacklist.getRevokedPushId p))
    = .error ⟨410, "push id revoked"⟩ ↔ ∃ x ∈ c.log, RevokesPushId L V p x
  clientIds : ∀ c', Validate.validateRevokedClientId (.ok (c.blacklist.getRevokedClientId c'))
    = .error ⟨403, "client id revoked"⟩ ↔ ∃ x ∈ c.log, RevokesClientId L V c' x
  accounted : ∀ x ∈ c.log, x.2 ≠ none → Accounted x.2

section

variable {L : Library} {V : Varchar}

theorem not_effectual_error {e : HttpError} (he : HttpFailure e) {audit : Audit} :
    ¬ Effectual (some [errorResponse e, .audit audit]) := by
  intro h
  obtain ⟨body, hmem⟩ := h _ rfl
  obtain ⟨hstatus, -⟩ : e.status = 200 ∧ _ := by simpa [errorResponse, eq_comm] using hmem
  unfold HttpFailure at he
  omega

theorem effectual_none : Effectual none := fun _ h => absurd h (by simp)

theorem effectual_ok {body : Json} {audit : Audit} :
    Effectual (some [.response 200 body, .audit audit]) := by
  rintro outs ⟨⟩
  exact ⟨body, List.mem_cons_self⟩

theorem accounted_error {e : HttpError} (he : HttpFailure e) {event : String} {message : Option String} :
    Accounted (some [errorResponse e, .audit ⟨event, false, statusOf (some e), message⟩]) := by
  refine ⟨_, e.status, false, rfl, ⟨_, _, rfl, rfl, statusOf_failure he, rfl⟩, ?_⟩
  unfold HttpFailure at he
  simp
  omega

theorem accounted_ok {event : String} {body : Json} {message : Option String} :
    Accounted (some [.response 200 body, .audit ⟨event, true, statusOf none, message⟩]) :=
  ⟨_, 200, true, rfl, ⟨_, _, rfl, rfl, rfl, rfl⟩, by simp⟩

theorem getClient_fst {σ : Type} (req : Request) (answer : Answer (Option (Row × ℕ))) (s : σ) :
    (getClient req answer s).1 = s := by
  unfold getClient validateClientRequest
  rcases Validate.isGet req with e | _
  · rfl
  rcases Validate.acceptsJson req with e | _
  · rfl
  rcases answer with err | (_ | client) <;> rfl

theorem getClient_accounted {σ : Type} (req : Request) (answer : Answer (Option (Row × ℕ))) (s : σ) :
    Accounted (getClient req answer s).2 := by
  unfold getClient validateClientRequest
  rcases hget : Validate.isGet req with e | _
  · exact accounted_error (Validate.refusing_isMethodSupported _ e hget)
  rcases haccept : Validate.acceptsJson req with e | _
  · exact accounted_error (Validate.refusing_acceptsJson e haccept)
  rcases answer with err | (_ | client)
  · exact accounted_error (e := dbError) (by decide)
  · exact accounted_error (e := ⟨404, "Not Found"⟩) (by decide)
  · exact accounted_ok

theorem validateRevokedPushId_eq {answer : Option RevokedPushId} :
    Validate.validateRevokedPushId (.ok answer) = .error ⟨410, "push id revoked"⟩ ↔
      answer.isSome = true := by
  cases answer <;> simp [Validate.validateRevokedPushId, Validate.validateRevoked]

theorem validateRevokedClientId_eq {answer : Option RevokedClientId} :
    Validate.validateRevokedClientId (.ok answer) = .error ⟨403, "client id revoked"⟩ ↔
      answer.isSome = true := by
  cases answer <;> simp [Validate.validateRevokedClientId, Validate.validateRevoked]

/-- What is done to the tables, and what the log says of it. -/
structure Tallies (L : Library) (V : Varchar) (s s' : BlacklistMysqlStorage)
    (x : AdminRequest × Option (List Output)) : Prop where
  pushIds : ∀ p, (s'.getRevokedPushId p).isSome = true ↔
    (s.getRevokedPushId p).isSome = true ∨ RevokesPushId L V p x
  clientIds : ∀ c, (s'.getRevokedClientId c).isSome = true ↔
    (s.getRevokedClientId c).isSome = true ∨ RevokesClientId L V c x
  accounted : x.2 ≠ none → Accounted x.2

/-- A request that is refused, or that revokes nothing. -/
theorem tallies_unchanged {s : BlacklistMysqlStorage} {x : AdminRequest × Option (List Output)}
    (hpush : ∀ p, ¬ RevokesPushId L V p x) (hclient : ∀ c, ¬ RevokesClientId L V c x)
    (haccounted : x.2 ≠ none → Accounted x.2) : Tallies L V s s x :=
  ⟨fun p => by simp [hpush p], fun c => by simp [hclient c], haccounted⟩

theorem writePushId_eq_some {up : Bool} {now : ℕ} {ids : Json × Json} {s s' : BlacklistMysqlStorage}
    (h : writePushId V up now ids s = some s') :
    ∃ p c, V.store ids.1 = some p ∧ s.call (.revokePushId now p c) = some s' := by
  unfold writePushId at h
  split at h
  · obtain ⟨p, hp, h⟩ := Option.bind_eq_some_iff.mp h
    obtain ⟨c, -, h⟩ := Option.bind_eq_some_iff.mp h
    exact ⟨p, c, hp, h⟩
  · simp at h

theorem writeClientId_eq_some {up : Bool} {now : ℕ} {clientId : Json} {s s' : BlacklistMysqlStorage}
    (h : writeClientId V up now clientId s = some s') :
    ∃ c, V.store clientId = some c ∧ s.call (.revokeClientId now c) = some s' := by
  unfold writeClientId at h
  split at h
  · exact Option.bind_eq_some_iff.mp h
  · simp at h

/-- The push id is stored and the request is not refused. -/
theorem tallies_pushId_written {req : Request} {now : ℕ} {up : Bool} {s s' : BlacklistMysqlStorage}
    {out : Option (List Output)} {body v c : Json} (hbody : Validate.parseJson L req = .ok body)
    (hparse : parseRevokePushId body = .ok (.ok (v, c)))
    (hwrite : writePushId V up now (v, c) s = some s')
    (hout : Effectual out) (haccounted : out ≠ none → Accounted out) :
    Tallies L V s s' (.revokePushId req now up, out) := by
  have hfield : field body "pushId" = some v := by
    rcases parseRevokePushId_cases body with ⟨-, t, h⟩ | ⟨e, -, h⟩ | ⟨p, c', hp, h⟩ <;>
      rw [h] at hparse <;> simp at hparse
    exact hparse.1 ▸ hp
  obtain ⟨p, c', hstore, hcall⟩ := writePushId_eq_some hwrite
  obtain ⟨hclient, hpush⟩ := BlacklistMysqlStorage.call_eq_some hcall
  refine ⟨fun p' => (hpush p').trans (or_congr_right ⟨?_, ?_⟩), fun c => (hclient c).trans
    (or_congr_right ⟨by simp, ?_⟩), haccounted⟩
  · rintro ⟨now', c'', h⟩
    obtain ⟨-, rfl, -⟩ := by simpa using h
    exact ⟨hout, req, now, up, body, v, rfl, hbody, hfield, hstore⟩
  · rintro ⟨-, req', now', up', body', v', hreq, hbody', hfield', hstore'⟩
    obtain ⟨rfl, -, -⟩ := by simpa using hreq
    obtain rfl := Except.ok.inj (hbody.symm.trans hbody')
    obtain rfl := Option.some.inj (hfield.symm.trans hfield')
    obtain rfl := Option.some.inj (hstore.symm.trans hstore')
    exact ⟨now, c', rfl⟩
  · rintro ⟨-, req', now', up', body', v', hreq, -⟩
    simp at hreq

theorem tallies_clientId_written {req : Request} {now : ℕ} {up : Bool} {s s' : BlacklistMysqlStorage}
    {out : Option (List Output)} {body v : Json} (hbody : Validate.parseJson L req = .ok body)
    (hparse : parseRevokeClientId body = .ok (.ok v)) (hwrite : writeClientId V up now v s = some s')
    (hout : Effectual out) (haccounted : out ≠ none → Accounted out) :
    Tallies L V s s' (.revokeClientId req now up, out) := by
  have hfield : field body "clientId" = some v := by
    rcases parseRevokeClientId_cases body with ⟨-, t, h⟩ | ⟨e, -, h⟩ | ⟨c, hc, h⟩ <;>
      rw [h] at hparse <;> simp at hparse
    exact hparse ▸ hc
  obtain ⟨c, hstore, hcall⟩ := writeClientId_eq_some hwrite
  obtain ⟨hclient, hpush⟩ := BlacklistMysqlStorage.call_eq_some hcall
  refine ⟨fun p => (hpush p).trans (or_congr_right ⟨by simp, ?_⟩), fun c' => (hclient c').trans
    (or_congr_right ⟨?_, ?_⟩), haccounted⟩
  · rintro ⟨-, req', now', up', body', v', hreq, -⟩
    simp at hreq
  · rintro ⟨now', h⟩
    obtain ⟨-, rfl⟩ := by simpa using h
    exact ⟨hout, req, now, up, body, v, rfl, hbody, hfield, hstore⟩
  · rintro ⟨-, req', now', up', body', v', hreq, hbody', hfield', hstore'⟩
    obtain ⟨rfl, -, -⟩ := by simpa using hreq
    obtain rfl := Except.ok.inj (hbody.symm.trans hbody')
    obtain rfl := Option.some.inj (hfield.symm.trans hfield')
    obtain rfl := Option.some.inj (hstore.symm.trans hstore')
    exact ⟨now, rfl⟩

theorem tallies_pushId (req : Request) (now : ℕ) (up : Bool) (s : BlacklistMysqlStorage) :
    Tallies L V s (revokePushId L V up now req s).1
      (.revokePushId req now up, (revokePushId L V up now req s).2) := by
  have hrevocation := revokeHandler_revocation L "revoke-pushId" "pushId " refusing_parseRevokePushId
    Prod.fst (writePushId V up now) req s
  rw [← revokePushId] at hrevocation
  generalize revokePushId L V up now req s = result at hrevocation
  cases hrevocation with
  | refused e he =>
    exact tallies_unchanged (fun p h => not_effectual_error he h.1)
      (fun c h => not_effectual_error he h.1) fun _ => accounted_error he
  | @unread body t hbody hparse =>
    refine tallies_unchanged (fun p h => ?_) (fun c h => ?_) fun h => absurd rfl h
    · obtain ⟨-, req', now', up', body', v, hreq, hbody', hfield, -⟩ := h
      obtain ⟨rfl, -, -⟩ := by simpa using hreq
      obtain rfl := Except.ok.inj (hbody'.symm.trans hbody)
      rcases parseRevokePushId_cases body' with ⟨rfl, -⟩ | ⟨e, -, h⟩ | ⟨p', c, -, h⟩
      · simp [field, Json.get, Except.toOption] at hfield
      · rw [h] at hparse; simp at hparse
      · rw [h] at hparse; simp at hparse
    · obtain ⟨-, req', now', up', body', v, hreq, -⟩ := h
      simp at hreq
  | silent hbody hparse hwrite ht =>
    exact tallies_pushId_written hbody hparse hwrite effectual_none fun h => absurd rfl h
  | answered hbody hparse hwrite ht =>
    exact tallies_pushId_written hbody hparse hwrite effectual_ok fun _ => accounted_ok

theorem tallies_clientId (req : Request) (now : ℕ) (up : Bool) (s : BlacklistMysqlStorage) :
    Tallies L V s (revokeClientId L V up now req s).1
      (.revokeClientId req now up, (revokeClientId L V up now req s).2) := by
  have hrevocation := revokeHandler_revocation L "revoke-clientId" "client "
    refusing_parseRevokeClientId id (writeClientId V up now) req s
  rw [← revokeClientId] at hrevocation
  generalize revokeClientId L V up now req s = result at hrevocation
  cases hrevocation with
  | refused e he =>
    exact tallies_unchanged (fun p h => not_effectual_error he h.1)
      (fun c h => not_effectual_error he h.1) fun _ => accounted_error he
  | @unread body t hbody hparse =>
    refine tallies_unchanged (fun p h => ?_) (fun c h => ?_) fun h => absurd rfl h
    · obtain ⟨-, req', now', up', body', v, hreq, -⟩ := h
      simp at hreq
    · obtain ⟨-, req', now', up', body', v, hreq, hbody', hfield, -⟩ := h
      obtain ⟨rfl, -, -⟩ := by simpa using hreq
      obtain rfl := Except.ok.inj (hbody'.symm.trans hbody)
      rcases parseRevokeClientId_cases body' with ⟨rfl, -⟩ | ⟨e, -, h⟩ | ⟨c', -, h⟩
      · simp [field, Json.get, Except.toOption] at hfield
      · rw [h] at hparse; simp at hparse
      · rw [h] at hparse; simp at hparse
  | silent hbody hparse hwrite ht =>
    exact tallies_clientId_written hbody hparse hwrite effectual_none fun h => absurd rfl h
  | answered hbody hparse hwrite ht =>
    exact tallies_clientId_written hbody hparse hwrite effectual_ok fun _ => accounted_ok

theorem tallies_handle (r : AdminRequest) (s : BlacklistMysqlStorage) :
    Tallies L V s (handle L V r s).1 (r, (handle L V r s).2) := by
  cases r with
  | getClient req answer =>
    rw [handle, getClient_fst]
    refine tallies_unchanged ?_ ?_ fun _ => getClient_accounted req answer s
    · rintro p ⟨-, req', now', up', body', v, hreq, -⟩
      simp at hreq
    · rintro c ⟨-, req', now', up', body', v, hreq, -⟩
      simp at hreq
  | revokeClientId req now up => exact tallies_clientId req now up s
  | revokePushId req now up => exact tallies_pushId req now up s

theorem honest_step {c c' : Console} {e : ConsoleEvent} (hc : Honest L V c)
    (hstep : consoleStep L V c e = some c') : Honest L V c' := by
  obtain ⟨hpush, hclient, haccounted⟩ := hc
  simp only [validateRevokedPushId_eq, validateRevokedClientId_eq] at hpush hclient
  cases e with
  | request r =>
    obtain rfl := Option.some.inj hstep
    have ht := tallies_handle (L := L) (V := V) r c.blacklist
    refine ⟨fun p => ?_, fun k => ?_, fun x hx => ?_⟩
    · rw [validateRevokedPushId_eq, ht.pushIds, hpush]
      simp [or_and_right, exists_or]
    · rw [validateRevokedClientId_eq, ht.clientIds, hclient]
      simp [or_and_right, exists_or]
    · rcases List.mem_append.mp hx with hold | hnew
      · exact haccounted x hold
      · obtain rfl := List.mem_singleton.mp hnew
        exact ht.accounted
  | increment clientId =>
    obtain ⟨s, hs, rfl⟩ := Option.map_eq_some_iff.mp hstep
    obtain ⟨hclient', hpush'⟩ := BlacklistMysqlStorage.call_eq_some hs
    refine ⟨fun p => ?_, fun k => ?_, haccounted⟩
    · rw [validateRevokedPushId_eq, hpush', ← hpush]
      simp
    · rw [validateRevokedClientId_eq, hclient', ← hclient]
      simp

theorem honest_create : Honest L V .create := by
  refine ⟨fun p => ?_, fun k => ?_, fun x hx => absurd hx List.not_mem_nil⟩ <;>
    simp [Console.create, BlacklistMysqlStorage.create, BlacklistMysqlStorage.getRevokedPushId,
      BlacklistMysqlStorage.getRevokedClientId, Table.empty, Table.find,
      Validate.validateRevokedPushId, Validate.validateRevokedClientId, Validate.validateRevoked]

end

/-- After every history of admin requests, whatever their methods, headers and bodies are and whenever
    the database is down, and of refreshes in between: a push id or client id is refused iff a request to
    revoke it was answered with 200, or was left without an answer; and every answer is one response with
    one audit record that has its status, and says success iff that is 200. -/
theorem admin_honest (L : Library) (V : Varchar) (events : List ConsoleEvent) :
    AllStates (consoleStep L V) (Honest L V) .create events := by
  intro pre c _ hrun
  exact inv_run (fun _ _ _ h _ hs => honest_step h hs) honest_create (allSteps_true _ _) hrun

end Elephant.Api.Admin
