import Elephant.Api.Admin
import Elephant.Api.Admission
import Elephant.Refresh.Atomic

/-! Who may listen while ids are refreshed and revoked.

    The database calls of listens, refreshes and admin requests interleave freely:

        listen   getRevokedClientId ─▶ getRefreshCount ─▶ getRevokedPushId ─▶ session
        refresh  getRevokedClientId ─▶ getRefreshCount ─▶ findOrCreate ─▶ increment ─▶ getRefreshCount
        admin    insert

    A listen that has asked its three questions opens a session or is refused, by answers of three
    different moments. The main result says what these answers are worth: a session is never opened for
    an id that was taken away before the listen began, and never refused for another reason than one
    that came up before it ended. -/

namespace Elephant.Blacklist
open Elephant.Schemes Elephant.Model Elephant.Refresh Elephant.Api
open Elephant.Api.Admin (AdminRequest Console Honest RevokesClientId RevokesPushId)
open Elephant.App (Varchar)
open Elephant.Push (HttpError)

/-! ### Refreshes and revocations -/

/-- The blacklist with all who write to it: admin requests that are answered, clients that are registered
    and refreshes under way. -/
structure Records where
  blacklist : BlacklistMysqlStorage
  log : List (AdminRequest × Option (List Output))
  registered : List ClientId
  refreshes : List Refresh.Request

namespace Records

def create : Records := ⟨.create, [], [], []⟩

variable (r : Records)

def console : Console := ⟨r.blacklist, r.log⟩

def counters : Refresh.Blacklist := ⟨r.blacklist.refreshCount, r.registered, r.refreshes⟩

def withCounters (s : Refresh.Blacklist) : Records where
  blacklist := { r.blacklist with refreshCount := s.refreshCount }
  log := r.log
  registered := s.registered
  refreshes := s.requests

end Records

inductive RecordEvent where
  | register (clientId : ClientId)
  | refresh (clientId : ClientId) (pushId : PushId)
  | exec (i : ℕ)
  | admin (request : AdminRequest)

section

variable (L : Library) (V : Varchar) (config : Config)

/-- A refresh of a client that is revoked makes no further call. -/
def recordStep (r : Records) : RecordEvent → Option Records
  | .register clientId =>
    (refreshStep L.shaDigest config.SALT r.counters (.register clientId)).map r.withCounters
  | .refresh clientId pushId =>
    if r.blacklist.getRevokedClientId clientId = none then
      (refreshStep L.shaDigest config.SALT r.counters (.refresh clientId pushId)).map r.withCounters
    else none
  | .exec i => (refreshStep L.shaDigest config.SALT r.counters (.exec i)).map r.withCounters
  | .admin request => some { r with
      blacklist := (Admin.handle L V request r.blacklist).1
      log := r.log ++ [(request, (Admin.handle L V request r.blacklist).2)] }

/-! ### Listens -/

/-- The checks that come before the first question. -/
def headers (req : Api.Request) : Next ClientId := do
  Validate.isSpdy config req
  Validate.isGet req
  Validate.acceptsJson req
  Validate.parseClientId req

/-- What a listen has been answered so far. -/
inductive Asked where
  | start
  | revoked (revokedClientId : Answer (Option Unit))
  | counted (revokedClientId : Answer (Option Unit)) (refreshCount : Answer ℕ)
  | done (answers : ListenAnswers)

/-- A listen, with the records as they were when it began. -/
structure Listener where
  req : Api.Request
  clientId : ClientId
  began : Records

/-- A question that is not asked any more. -/
def unasked {α : Type} : Answer α := .error "not asked"

/-- The next question, if the last one has not settled it. -/
def ask (fails : Bool) (s : BlacklistMysqlStorage) (clientId : ClientId) (pushId : PushId) :
    Asked → Option Asked
  | .start =>
    let a := answerUnless fails ((s.getRevokedClientId clientId).map fun _ => ())
    some (match Validate.validateRevokedClientId a with
      | .ok () => .revoked a
      | .error _ => .done ⟨a, unasked, unasked⟩)
  | .revoked a =>
    let k := answerUnless fails (s.getRefreshCount clientId)
    some (match Validate.validatePushId L config clientId (.str pushId) k with
      | .ok () => .counted a k
      | .error _ => .done ⟨a, k, unasked⟩)
  | .counted a k => some (.done ⟨a, k, answerUnless fails ((s.getRevokedPushId pushId).map fun _ => ())⟩)
  | .done _ => none

structure Authority where
  records : Records
  listens : List (Listener × Asked)

def Authority.create : Authority := ⟨.create, []⟩

inductive AuthorityEvent where
  | record (e : RecordEvent)
  | listen (req : Api.Request)
  | ask (i : ℕ) (fails : Bool)

def authorityStep (s : Authority) : AuthorityEvent → Option Authority
  | .record e => (recordStep L V config s.records e).map fun r => { s with records := r }
  | .listen req => (headers config req).toOption.map fun clientId =>
      { s with listens := s.listens ++ [(⟨req, clientId, s.records⟩, .start)] }
  | .ask i fails => s.listens[i]?.bind fun x =>
      (ask L config fails s.records.blacklist x.1.clientId x.1.req.pushId x.2).map fun asked =>
        { s with listens := s.listens.set i (x.1, asked) }

end

/-! ### Verdicts -/

section

variable (L : Library) (V : Varchar) (config : Config)

/-- The push id of the client after `k` refreshes. -/
def issued (c : ClientId) (k : ℕ) : PushId := Refresh.generatePushId L.shaDigest config.SALT c k

/-- When the listen began its ids were not revoked and its push id had not been exchanged for another. The
    push id has been the client's at some moment since; if it had been issued before, it was the client's
    when the listen began. -/
structure Justified (x : Listener) (r : Records) : Prop where
  clientId : ∀ y ∈ x.began.log, ¬ RevokesClientId L V x.clientId y
  pushId : ∀ y ∈ x.began.log, ¬ RevokesPushId L V x.req.pushId y
  exchanged : ∀ f ∈ x.began.refreshes, f.clientId = x.clientId → ∀ q, f.phase = .done (.ok q) →
    f.pushId ≠ x.req.pushId
  current : ∃ k, completed x.began.counters x.clientId ≤ k ∧ k ≤ completed r.counters x.clientId ∧
    x.req.pushId = issued L config x.clientId k
  latest : ∀ j ≤ completed x.began.counters x.clientId, x.req.pushId = issued L config x.clientId j →
    j = completed x.began.counters x.clientId

/-- One of its ids is revoked by now, its push id was not the client's at some moment since it began, or
    the database has not answered. -/
inductive Excused (x : Listener) (r : Records) (db : ListenAnswers) : Prop
  | clientId {y : AdminRequest × Option (List Output)} (hy : y ∈ r.log)
      (h : RevokesClientId L V x.clientId y) : Excused x r db
  | pushId {y : AdminRequest × Option (List Output)} (hy : y ∈ r.log)
      (h : RevokesPushId L V x.req.pushId y) : Excused x r db
  | current {k : ℕ} (hlow : completed x.began.counters x.clientId ≤ k)
      (hhigh : k ≤ completed r.counters x.clientId) (h : x.req.pushId ≠ issued L config x.clientId k) :
      Excused x r db
  | lost (h : db.revokedClientId = .error connectionLost ∨ db.refreshCount = .error connectionLost ∨
      db.revokedPushId = .error connectionLost) : Excused x r db

/-- Every listen that has been answered opens a session and is justified, or it is refused, and excused
    unless its ping interval is to blame. -/
def Authorized (s : Authority) : Prop :=
  ∀ x db, (x, .done db) ∈ s.listens → ∀ now socket w,
    (Justified L V config x s.records ∧ ∃ n, Listen.handle L config x.req db now socket w
        = (w.listen now ⟨socket, x.clientId, x.req.pushId, x.req.isSpdy⟩,
          some (Listen.complete config (.ok (Listen.pingIntervalSec config.MIN_SOCKET_TIMEOUT_SEC n))))) ∨
      ((Excused L V config x s.records db ∨ ∀ n, ¬ Listen.WellFormed L config x.req x.clientId n) ∧
        ∃ e, HttpFailure e ∧ Listen.handle L config x.req db now socket w
          = (w, some (Listen.complete config (.error e))))

end

/-! ### What the writers do -/

/-- What is revoked stays revoked, and counters do not go back. -/
structure Grows (r r' : Records) : Prop where
  clientIds : ∀ c, r'.blacklist.getRevokedClientId c = none → r.blacklist.getRevokedClientId c = none
  pushIds : ∀ p, r'.blacklist.getRevokedPushId p = none → r.blacklist.getRevokedPushId p = none
  log : r.log ⊆ r'.log
  count : ∀ c, completed r.counters c ≤ completed r'.counters c

theorem Grows.refl (r : Records) : Grows r r :=
  ⟨fun _ h => h, fun _ h => h, fun _ h => h, fun _ => le_rfl⟩

theorem Grows.trans {r₁ r₂ r₃ : Records} (h : Grows r₁ r₂) (h' : Grows r₂ r₃) : Grows r₁ r₃ :=
  ⟨fun c hc => h.clientIds c (h'.clientIds c hc), fun p hp => h.pushIds p (h'.pushIds p hp),
    fun _ hy => h'.log (h.log hy), fun c => (h.count c).trans (h'.count c)⟩

section

variable {L : Library} {V : Varchar} {config : Config} {r r' : Records}

variable (L V config) in
/-- The counters count the refreshes, and the revoked ids are those of the log. -/
structure WellKept (r : Records) : Prop where
  refreshes : RefreshInv L.shaDigest config.SALT r.counters
  honest : Honest L V r.console

theorem WellKept.create : WellKept L V config .create :=
  ⟨RefreshInv.create, Admin.honest_create⟩

theorem WellKept.revokedClientId (h : WellKept L V config r) (c : ClientId) :
    (r.blacklist.getRevokedClientId c).isSome = true ↔ ∃ y ∈ r.log, RevokesClientId L V c y := by
  rw [← Admin.validateRevokedClientId_eq]
  exact h.honest.clientIds c

theorem WellKept.revokedPushId (h : WellKept L V config r) (p : PushId) :
    (r.blacklist.getRevokedPushId p).isSome = true ↔ ∃ y ∈ r.log, RevokesPushId L V p y := by
  rw [← Admin.validateRevokedPushId_eq]
  exact h.honest.pushIds p

/-- An admin request leaves the counters alone. -/
theorem handle_refreshCount (request : AdminRequest) (s : BlacklistMysqlStorage) :
    (Admin.handle L V request s).1.refreshCount = s.refreshCount := by
  have hrevocation {α : Type} {event what : String} {parse : Json → Except Throw (Next α)}
      {id : α → Json} {write : α → BlacklistMysqlStorage → Option BlacklistMysqlStorage}
      {req : Api.Request} {result : BlacklistMysqlStorage × Option (List Output)}
      (hwrite : ∀ a s', write a s = some s' → s'.refreshCount = s.refreshCount)
      (h : Admin.Revocation L event what parse id write req s result) :
      result.1.refreshCount = s.refreshCount := by
    cases h with
    | refused e he => rfl
    | unread hbody hparse => rfl
    | silent hbody hparse hw ht => exact hwrite _ _ hw
    | answered hbody hparse hw ht => exact hwrite _ _ hw
  cases request with
  | getClient req answer => rw [Admin.handle, Admin.getClient_fst]
  | revokeClientId req now up =>
    refine hrevocation ?_
      (Admin.revokeHandler_revocation L _ _ Admin.refusing_parseRevokeClientId _ _ _ _)
    intro a s' hw
    obtain ⟨c, -, hcall⟩ := Admin.writeClientId_eq_some hw
    obtain ⟨t, -, rfl⟩ := Option.map_eq_some_iff.mp hcall
    rfl
  | revokePushId req now up =>
    refine hrevocation ?_
      (Admin.revokeHandler_revocation L _ _ Admin.refusing_parseRevokePushId _ _ _ _)
    intro a s' hw
    obtain ⟨p, c, -, hcall⟩ := Admin.writePushId_eq_some hw
    obtain ⟨t, -, rfl⟩ := Option.map_eq_some_iff.mp hcall
    rfl

theorem completed_step {s s' : Refresh.Blacklist} {e : RefreshEvent}
    (hs : RefreshInv L.shaDigest config.SALT s)
    (h : refreshStep L.shaDigest config.SALT s e = some s') (c : ClientId) :
    completed s c ≤ completed s' c := by
  cases e with
  | register c' =>
    simp only [refreshStep] at h
    split at h
    · cases h
      exact le_rfl
    · cases h
  | refresh c' p =>
    cases h
    simp [completed, List.countP_append]
  | exec i =>
    obtain ⟨x, t, ph, hx, hran, rfl⟩ := refreshStep_exec h
    exact hs.completed_le hx hran c

theorem WellKept.withCounters {s : Refresh.Blacklist} {e : RefreshEvent} (hr : WellKept L V config r)
    (h : refreshStep L.shaDigest config.SALT r.counters e = some s) :
    WellKept L V config (r.withCounters s) ∧ Grows r (r.withCounters s) :=
  ⟨⟨hr.refreshes.step h, hr.honest.pushIds, hr.honest.clientIds, hr.honest.accounted⟩,
    fun _ hc => hc, fun _ hp => hp, fun _ hy => hy, completed_step hr.refreshes h⟩

theorem WellKept.step {e : RecordEvent} (hr : WellKept L V config r)
    (h : recordStep L V config r e = some r') : WellKept L V config r' ∧ Grows r r' := by
  cases e with
  | register c =>
    obtain ⟨s, hs, rfl⟩ := Option.map_eq_some_iff.mp h
    exact hr.withCounters hs
  | refresh c p =>
    simp only [recordStep] at h
    split_ifs at h
    obtain ⟨s, hs, rfl⟩ := Option.map_eq_some_iff.mp h
    exact hr.withCounters hs
  | exec i =>
    obtain ⟨s, hs, rfl⟩ := Option.map_eq_some_iff.mp h
    exact hr.withCounters hs
  | admin request =>
    obtain rfl := Option.some.inj h
    have htallies := Admin.tallies_handle (L := L) (V := V) request r.blacklist
    have hcounters : Records.counters ⟨(Admin.handle L V request r.blacklist).1,
        r.log ++ [(request, (Admin.handle L V request r.blacklist).2)], r.registered, r.refreshes⟩
        = r.counters := by
      simp only [Records.counters, handle_refreshCount]
    refine ⟨⟨hcounters.symm ▸ hr.refreshes, ?_⟩, fun c hc => ?_, fun p hp => ?_, ?_, fun c => ?_⟩
    · exact Admin.honest_step (e := .request request) hr.honest rfl
    · by_contra hrevoked
      have hsome := (htallies.clientIds c).mpr (.inl (Option.isSome_iff_ne_none.mpr hrevoked))
      rw [hc] at hsome
      exact absurd hsome (by simp)
    · by_contra hrevoked
      have hsome := (htallies.pushIds p).mpr (.inl (Option.isSome_iff_ne_none.mpr hrevoked))
      rw [hp] at hsome
      exact absurd hsome (by simp)
    · exact List.subset_append_left _ _
    · rw [hcounters]

/-! ### What the listens learn -/

variable {x : Listener}

variable (L V config) in
/-- What the answers so far are worth. -/
inductive Judged (x : Listener) (r : Records) : Asked → Prop
  | start : Judged x r .start
  | revoked (hclient : x.began.blacklist.getRevokedClientId x.clientId = none) :
    Judged x r (.revoked (.ok none))
  | counted {k : ℕ} (hclient : x.began.blacklist.getRevokedClientId x.clientId = none)
      (hlow : completed x.began.counters x.clientId ≤ k)
      (hhigh : k ≤ completed r.counters x.clientId)
      (hcurrent : x.req.pushId = issued L config x.clientId k) :
    Judged x r (.counted (.ok none) (.ok k))
  | accepted {k : ℕ} (hclient : x.began.blacklist.getRevokedClientId x.clientId = none)
      (hpush : x.began.blacklist.getRevokedPushId x.req.pushId = none)
      (hlow : completed x.began.counters x.clientId ≤ k)
      (hhigh : k ≤ completed r.counters x.clientId)
      (hcurrent : x.req.pushId = issued L config x.clientId k) :
    Judged x r (.done ⟨.ok none, .ok k, .ok none⟩)
  | refused {db : ListenAnswers} (hnot : ¬ Listen.Admitted L config x.clientId x.req.pushId db)
      (hexcused : Excused L V config x r db) : Judged x r (.done db)

theorem Excused.mono {db : ListenAnswers} (h : Excused L V config x r db) (hgrows : Grows r r') :
    Excused L V config x r' db := by
  cases h with
  | clientId hy h => exact .clientId (hgrows.log hy) h
  | pushId hy h => exact .pushId (hgrows.log hy) h
  | current hlow hhigh h => exact .current hlow (hhigh.trans (hgrows.count _)) h
  | lost h => exact .lost h

theorem Judged.mono {a : Asked} (h : Judged L V config x r a) (hgrows : Grows r r') :
    Judged L V config x r' a := by
  cases h with
  | start => exact .start
  | revoked hclient => exact .revoked hclient
  | counted hclient hlow hhigh hcurrent =>
    exact .counted hclient hlow (hhigh.trans (hgrows.count _)) hcurrent
  | accepted hclient hpush hlow hhigh hcurrent =>
    exact .accepted hclient hpush hlow (hhigh.trans (hgrows.count _)) hcurrent
  | refused hnot hexcused => exact .refused hnot (hexcused.mono hgrows)

/-- A question is answered from the records of the moment. -/
theorem Judged.ask {a a' : Asked} {fails : Bool} (hunit : config.NODE_ENV ≠ some "unit")
    (hkept : WellKept L V config r) (hgrows : Grows x.began r) (h : Judged L V config x r a)
    (hask : Blacklist.ask L config fails r.blacklist x.clientId x.req.pushId a = some a') :
    Judged L V config x r a' := by
  cases h with
  | start =>
    simp only [Blacklist.ask, Option.some.injEq] at hask
    subst hask
    cases fails with
    | true =>
      exact .refused (fun hadmitted => absurd hadmitted.clientId (by simp [answerUnless]))
        (.lost (.inl rfl))
    | false =>
      cases hrevoked : r.blacklist.getRevokedClientId x.clientId with
      | none => exact .revoked (hgrows.clientIds _ hrevoked)
      | some row =>
        obtain ⟨y, hy, hrevokes⟩ := (hkept.revokedClientId x.clientId).mp (by simp [hrevoked])
        exact .refused (fun hadmitted => absurd hadmitted.clientId (by simp [answerUnless]))
          (.clientId hy hrevokes)
  | revoked hclient =>
    simp only [Blacklist.ask, Option.some.injEq] at hask
    subst hask
    cases fails with
    | true =>
      refine .refused (fun hadmitted => ?_) (.lost (.inr (.inl rfl)))
      obtain ⟨k, hk, -⟩ := hadmitted.current
      exact absurd hk (by simp [answerUnless])
    | false =>
      have hcount : r.blacklist.getRefreshCount x.clientId = completed r.counters x.clientId :=
        hkept.refreshes.count x.clientId
      simp only [answerUnless, Bool.false_eq_true, if_false, hcount]
      cases hcurrent : Validate.validatePushId L config x.clientId (.str x.req.pushId)
          (.ok (completed r.counters x.clientId)) with
      | ok u =>
        obtain ⟨k, hk, hpush⟩ := (Listen.validatePushId_ok hunit).mp hcurrent
        obtain rfl := Except.ok.inj hk
        exact .counted hclient (hgrows.count _) le_rfl hpush
      | error e =>
        have hpush : x.req.pushId ≠ issued L config x.clientId (completed r.counters x.clientId) := by
          intro hpush
          rw [(Listen.validatePushId_ok hunit).mpr ⟨_, rfl, hpush⟩] at hcurrent
          exact absurd hcurrent (by simp)
        refine .refused (fun hadmitted => absurd hadmitted.pushId (by simp [unasked])) ?_
        exact .current (hgrows.count _) le_rfl hpush
  | counted hclient hlow hhigh hcurrent =>
    simp only [Blacklist.ask, Option.some.injEq] at hask
    subst hask
    cases fails with
    | true =>
      exact .refused (fun hadmitted => absurd hadmitted.pushId (by simp [answerUnless]))
        (.lost (.inr (.inr rfl)))
    | false =>
      cases hrevoked : r.blacklist.getRevokedPushId x.req.pushId with
      | none => exact .accepted hclient (hgrows.pushIds _ hrevoked) hlow hhigh hcurrent
      | some row =>
        obtain ⟨y, hy, hrevokes⟩ := (hkept.revokedPushId x.req.pushId).mp (by simp [hrevoked])
        exact .refused (fun hadmitted => absurd hadmitted.pushId (by simp [answerUnless]))
          (.pushId hy hrevokes)
  | accepted hclient hpush hlow hhigh hcurrent => simp [Blacklist.ask] at hask
  | refused hnot hexcused => simp [Blacklist.ask] at hask

/-! ### Runs -/

variable (L V config) in
/-- Everything that is known of a listen under way. -/
structure Followed (x : Listener) (asked : Asked) (r : Records) : Prop where
  headers : Blacklist.headers config x.req = .ok x.clientId
  kept : WellKept L V config x.began
  grows : Grows x.began r
  judged : Judged L V config x r asked

variable (L V config) in
structure AuthorityInv (s : Authority) : Prop where
  kept : WellKept L V config s.records
  listens : ∀ x asked, (x, asked) ∈ s.listens → Followed L V config x asked s.records

theorem AuthorityInv.step {s s' : Authority} {e : AuthorityEvent}
    (hunit : config.NODE_ENV ≠ some "unit") (hs : AuthorityInv L V config s)
    (h : authorityStep L V config s e = some s') : AuthorityInv L V config s' := by
  cases e with
  | record e =>
    obtain ⟨r, hr, rfl⟩ := Option.map_eq_some_iff.mp h
    obtain ⟨hkept, hgrows⟩ := hs.kept.step hr
    refine ⟨hkept, fun x asked hx => ?_⟩
    have hx := hs.listens x asked hx
    exact ⟨hx.headers, hx.kept, hx.grows.trans hgrows, hx.judged.mono hgrows⟩
  | listen req =>
    obtain ⟨c, hc, rfl⟩ := Option.map_eq_some_iff.mp h
    refine ⟨hs.kept, fun x asked hx => ?_⟩
    rcases List.mem_append.mp hx with hold | hnew
    · exact hs.listens x asked hold
    · obtain ⟨rfl, rfl⟩ := Prod.mk.inj (List.mem_singleton.mp hnew)
      refine ⟨?_, hs.kept, .refl _, .start⟩
      cases hheaders : Blacklist.headers config req with
      | error e => simp [hheaders, Except.toOption] at hc
      | ok c' => simpa [hheaders, Except.toOption] using hc
  | ask i fails =>
    obtain ⟨⟨x, a⟩, hx, h⟩ := Option.bind_eq_some_iff.mp h
    obtain ⟨a', ha, rfl⟩ := Option.map_eq_some_iff.mp h
    have hfollowed := hs.listens x a (List.mem_of_getElem? hx)
    refine ⟨hs.kept, fun y asked hy => ?_⟩
    rcases List.mem_or_eq_of_mem_set hy with hold | hnew
    · exact hs.listens y asked hold
    · obtain ⟨rfl, rfl⟩ := Prod.mk.inj hnew
      exact ⟨hfollowed.headers, hfollowed.kept, hfollowed.grows,
        hfollowed.judged.ask hunit hs.kept hfollowed.grows ha⟩

theorem AuthorityInv.create : AuthorityInv L V config .create :=
  ⟨.create, fun _ _ hx => absurd hx List.not_mem_nil⟩

theorem parseClientId_of_headers {req : Api.Request} {c : ClientId} (h : headers config req = .ok c) :
    Validate.parseClientId req = .ok c := by
  obtain ⟨_, -, h₁⟩ := bind_eq_ok.mp h
  obtain ⟨_, -, h₂⟩ := bind_eq_ok.mp h₁
  obtain ⟨_, -, h₃⟩ := bind_eq_ok.mp h₂
  exact h₃

/-- An id that was not revoked when the listen began has not been in the log then. -/
theorem Followed.justified {k : ℕ} {asked : Asked} (hinj : Function.Injective L.shaDigest)
    (h : Followed L V config x asked r)
    (hclient : x.began.blacklist.getRevokedClientId x.clientId = none)
    (hpush : x.began.blacklist.getRevokedPushId x.req.pushId = none)
    (hlow : completed x.began.counters x.clientId ≤ k)
    (hhigh : k ≤ completed r.counters x.clientId)
    (hcurrent : x.req.pushId = issued L config x.clientId k) :
    Justified L V config x r where
  clientId y hy hrevokes := by
    have hsome := (h.kept.revokedClientId _).mpr ⟨y, hy, hrevokes⟩
    rw [hclient] at hsome
    exact absurd hsome (by simp)
  pushId y hy hrevokes := by
    have hsome := (h.kept.revokedPushId _).mpr ⟨y, hy, hrevokes⟩
    rw [hpush] at hsome
    exact absurd hsome (by simp)
  exchanged f hf hc q hq heq := by
    have hseen := h.kept.refreshes.seen f hf
    simp only [Seen, hq, hc] at hseen
    obtain ⟨j, -, -, hlt, hj, -⟩ := hseen
    have hsame : issued L config x.clientId j = issued L config x.clientId k := by
      rw [← hcurrent, ← heq, hj, issued]
    have := generatePushId_inj hinj hsame
    omega
  current := ⟨k, hlow, hhigh, hcurrent⟩
  latest j hj hissued := by
    have := generatePushId_inj hinj (hissued.symm.trans hcurrent)
    omega

theorem AuthorityInv.authorized {s : Authority} (hunit : config.NODE_ENV ≠ some "unit")
    (hinj : Function.Injective L.shaDigest) (hs : AuthorityInv L V config s) :
    Authorized L V config s := by
  intro x db hx now socket w
  have hfollowed := hs.listens x _ hx
  have hparse := parseClientId_of_headers hfollowed.headers
  rcases Listen.handle_cases L hunit x.req db now socket w with
    ⟨c, n, haccepts, hhandle⟩ | ⟨hnot, e, he, hhandle⟩
  · obtain rfl : c = x.clientId := Except.ok.inj (haccepts.1.clientId.symm.trans hparse)
    cases hfollowed.judged with
    | accepted hclient hpush hlow hhigh hcurrent =>
      exact .inl ⟨hfollowed.justified hinj hclient hpush hlow hhigh hcurrent, n, hhandle⟩
    | refused hrefused hexcused => exact absurd haccepts.2 hrefused
  · refine .inr ⟨?_, e, he, hhandle⟩
    cases hfollowed.judged with
    | accepted hclient hpush hlow hhigh hcurrent =>
      exact .inr fun n hform => hnot _ n ⟨hform, rfl, ⟨_, rfl, hcurrent⟩, rfl⟩
    | refused hrefused hexcused => exact .inl hexcused

end

/-- However the calls of listens, refreshes and admin requests interleave and whichever of them the
    database does not answer: every listen that is through has opened a session for ids that had not been
    revoked or exchanged when it began, or it was refused since one of them has been revoked by then, the
    push id was not the client's at some moment since it began, the database was down, or the ping
    interval is wrong. -/
theorem listens_authorized (L : Library) (hinj : Function.Injective L.shaDigest) (V : Varchar)
    (config : Config) (hunit : config.NODE_ENV ≠ some "unit") (es : List AuthorityEvent) :
    AllStates (authorityStep L V config) (Authorized L V config) .create es := by
  intro pre s _ hrun
  have hs : AuthorityInv L V config s :=
    inv_run (fun _ _ _ h _ hstep => h.step hunit hstep) .create (allSteps_true _ _) hrun
  exact hs.authorized hunit hinj

/-- A listen under the first push id of a client. -/
def firstListen : Api.Request :=
  ⟨"GET", List.toAList [⟨"authorization", "Basic clid-0"⟩], true, ["60"], "", "clid-0elephant0"⟩

/-- The push id is exchanged after a listen has asked for it, and before another one begins. -/
def exchangedMeanwhile : List AuthorityEvent :=
  [.record (.register "clid-0"), .listen firstListen, .ask 0 false, .ask 0 false,
    .record (.refresh "clid-0" "clid-0elephant0"), .record (.exec 0), .record (.exec 0),
    .record (.exec 0), .listen firstListen, .ask 0 false, .ask 1 false, .ask 1 false]

theorem listens_authorized_exchanged : Function.Injective plainLibrary.shaDigest ∧
    ∀ V, ∃ s x y, run (authorityStep plainLibrary V .default) .create exchangedMeanwhile = some s ∧
      Authorized plainLibrary V .default s ∧
      s.listens = [(x, .done ⟨.ok none, .ok 0, .ok none⟩), (y, .done ⟨.ok none, .ok 1, unasked⟩)] := by
  have hinj : Function.Injective plainLibrary.shaDigest := Function.injective_id
  refine ⟨hinj, fun V => ?_⟩
  have hrun : ∃ s x y, run (authorityStep plainLibrary V .default) .create exchangedMeanwhile = some s ∧
      s.listens = [(x, .done ⟨.ok none, .ok 0, .ok none⟩), (y, .done ⟨.ok none, .ok 1, unasked⟩)] :=
    ⟨_, _, _, rfl, rfl⟩
  obtain ⟨s, x, y, hrun, hlistens⟩ := hrun
  exact ⟨s, x, y, hrun, listens_authorized plainLibrary hinj V .default (by decide) exchangedMeanwhile _ s
    (List.prefix_refl _) hrun, hlistens⟩

end Elephant.Blacklist
