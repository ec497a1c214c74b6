import Mathlib.Data.Set.Insert
import Elephant.Api.Spdy
import Elephant.Blacklist.Storage
import Elephant.Refresh.Exchange

/-! A refresh whose database calls may fail (`api/v2/refresh.coffee`, `persistence/mysqlblacklist.coffee`).

    Every call takes its full effect or fails without any:

        getRevokedClientId ─▶ getRefreshCount ─▶ findOrCreate ─▶ increment ─▶ getRefreshCount ─▶ 200
              ╰ 500                ╰ 500             ╰ 500          ╰ 500           ╰ 500

    The counter goes up before the new push id is read back. The main result says that a refresh that
    is answered with an error leaves the push ids that are accepted as they were, except when it is
    the last call that fails. -/

namespace Elephant.Refresh
open Elephant.Schemes Elephant.Model Elephant.Api
open Elephant.Blacklist (BlacklistMysqlStorage)
open Elephant.Push (HttpError)

/-- Which calls of one refresh fail. -/
structure Faults where
  getRevokedClientId : Bool
  getRefreshCount : Bool
  findOrCreate : Bool
  increment : Bool
  getNewRefreshCount : Bool
  deriving DecidableEq, Repr

def connectionLost : String := "connection lost"

def answerUnless {α : Type} (fails : Bool) (result : α) : Answer α :=
  if fails then .error connectionLost else .ok result

namespace Faults

variable (faults : Faults)

/-- `incrementRefreshCount`: the blacklist afterwards, and what the callback gets. -/
def incrementRefreshCount (s : BlacklistMysqlStorage) (clientId : ClientId) :
    BlacklistMysqlStorage × Answer Unit :=
  match answerUnless faults.findOrCreate (Refresh.findOrCreate s.refreshCount clientId) with
  | .error err => (s, .error err)
  | .ok none => (s, .error connectionLost)
  | .ok (some (t, true)) => ({ s with refreshCount := t }, .ok ())
  | .ok (some (t, false)) =>
    match answerUnless faults.increment (Refresh.increment t clientId) with
    | .error err => ({ s with refreshCount := t }, .error err)
    | .ok none => ({ s with refreshCount := t }, .error connectionLost)
    | .ok (some t') => ({ s with refreshCount := t' }, .ok ())

/-- What the calls of a refresh of the client answer. -/
def answers (s : BlacklistMysqlStorage) (clientId : ClientId) : RefreshAnswers where
  revokedClientId :=
    answerUnless faults.getRevokedClientId ((s.getRevokedClientId clientId).map fun _ => ())
  refreshCount := answerUnless faults.getRefreshCount (s.getRefreshCount clientId)
  incremented := (faults.incrementRefreshCount s clientId).2
  newRefreshCount := answerUnless faults.getNewRefreshCount
    ((faults.incrementRefreshCount s clientId).1.getRefreshCount clientId)

end Faults

/-- The client that a request is about; without one the handler makes no database call. -/
def requestClientId (req : Api.Request) : ClientId :=
  match Validate.parseClientId req with
  | .ok clientId => clientId
  | .error _ => ""

section

variable (L : Library) (config : Config) (req : Api.Request) (faults : Faults)
  (s : BlacklistMysqlStorage)

/-- `Refresh.handle` on the stored blacklist. -/
def handle : BlacklistMysqlStorage × Option (List Output) :=
  let (counted, outs) := Api.Refresh.handle L config req (faults.answers s (requestClientId req)) []
  (counted.foldl (fun s clientId => (faults.incrementRefreshCount s clientId).1) s, outs)

/-- The push ids that `validatePushId` accepts for a client. -/
def acceptedPushIds (clientId : ClientId) : Set PushId :=
  {p | Validate.validatePushId L config clientId (.str p) (.ok (s.getRefreshCount clientId)) = .ok ()}

/-- An error that is answered has changed nothing for any client. -/
def Atomic : Prop :=
  ∀ outs, (handle L config req faults s).2 = some outs → (∃ r ∈ responses outs, 400 ≤ r.1) →
    ∀ c, acceptedPushIds L config (handle L config req faults s).1 c = acceptedPushIds L config s c

/-- The request has passed validation. -/
def Validated : Prop :=
  (Api.Refresh.validate L config req (faults.answers s (requestClientId req))
    ([] : List ClientId)).2 = .calls [.ok (requestClientId req)]

/-- The counter of the client has gone up, to another push id, and the read of it fails. -/
structure LeftMidway : Prop where
  validated : Validated L config req faults s
  found : faults.findOrCreate = false
  incremented : s.refreshCount.find (requestClientId req) ≠ none → faults.increment = false
  unread : faults.getNewRefreshCount = true
  checked : config.NODE_ENV ≠ some "unit"
  differs : generatePushId L.shaDigest config.SALT (requestClientId req)
      (s.getRefreshCount (requestClientId req))
    ≠ generatePushId L.shaDigest config.SALT (requestClientId req)
      (s.getRefreshCount (requestClientId req) + 1)

end

/-! ### The increment -/

section

variable {faults : Faults} {s : BlacklistMysqlStorage} {c : ClientId}

/-- A row that is there is found as it is. -/
theorem findOrCreate_cases (t : RefreshTable) (c : ClientId) :
    (t.find c ≠ none ∧ findOrCreate t c = some (t, false)) ∨
      (t.find c = none ∧ ∃ t', findOrCreate t c = some (t', true) ∧ Counted c t t') := by
  obtain ⟨u, hu⟩ := findOrCreate_isSome t c
  cases hf : t.find c with
  | some row => exact Or.inl ⟨by simp, by simp [findOrCreate, hf]⟩
  | none =>
    simp only [findOrCreate, hf, Option.map_eq_some_iff] at hu
    obtain ⟨t', ht', -⟩ := hu
    exact Or.inr ⟨rfl, t', by simp [findOrCreate, hf, ht'], counted_insert hf ht'⟩

/-- It takes effect iff neither of its calls fails; an error leaves everything as it was. -/
theorem incrementRefreshCount_cases (faults : Faults) (s : BlacklistMysqlStorage) (c : ClientId) :
    ((faults.findOrCreate = false ∧ (s.refreshCount.find c ≠ none → faults.increment = false)) ∧
      ∃ t, faults.incrementRefreshCount s c = ({ s with refreshCount := t }, .ok ()) ∧
        Counted c s.refreshCount t) ∨
    (¬ (faults.findOrCreate = false ∧ (s.refreshCount.find c ≠ none → faults.increment = false)) ∧
      ∃ err, faults.incrementRefreshCount s c = (s, .error err)) := by
  unfold Faults.incrementRefreshCount answerUnless
  cases hfind : faults.findOrCreate with
  | true => exact Or.inr ⟨by simp, connectionLost, rfl⟩
  | false =>
    rcases findOrCreate_cases s.refreshCount c with ⟨hrow, h⟩ | ⟨hrow, t, h, hcounted⟩
    · cases hincr : faults.increment with
      | true => exact Or.inr ⟨by simp [hrow], connectionLost, by simp [h]⟩
      | false =>
        obtain ⟨t, ht⟩ := increment_isSome s.refreshCount c
        exact Or.inl ⟨by simp, t, by simp [h, ht], counted_increment hrow ht⟩
    · exact Or.inl ⟨by simp [hrow], t, by simp [h], hcounted⟩

/-- Without a fault it is the increment of the blacklist. -/
theorem incrementRefreshCount_eq (hfind : faults.findOrCreate = false)
    (hincr : faults.increment = false) (s : BlacklistMysqlStorage) (c : ClientId) :
    s.incrementRefreshCount c = some (faults.incrementRefreshCount s c).1 := by
  rcases findOrCreate_cases s.refreshCount c with ⟨-, h⟩ | ⟨-, t, h, -⟩
  · obtain ⟨t, ht⟩ := increment_isSome s.refreshCount c
    simp [BlacklistMysqlStorage.incrementRefreshCount, Faults.incrementRefreshCount, answerUnless,
      hfind, hincr, h, ht]
  · simp [BlacklistMysqlStorage.incrementRefreshCount, Faults.incrementRefreshCount, answerUnless,
      hfind, h]

end

/-! ### How a refresh ends -/

section

variable {L : Library} {config : Config} {req : Api.Request} {faults : Faults}
  {s : BlacklistMysqlStorage}

/-- Validation only reads, and what it passes on is the client of the request. -/
theorem checks_validate (L : Library) (config : Config) (req : Api.Request) (db : RefreshAnswers) :
    Async.Checks (fun c => c = requestClientId req)
      (Api.Refresh.validate L config req db : Async (List ClientId) HttpError ClientId) := by
  unfold Api.Refresh.validate
  refine (Async.checks_lift _).bind fun _ _ => (Async.checks_lift _).bind fun _ _ => ?_
  refine (Async.checks_lift _).bind fun _ _ => (Async.checks_lift _).bind fun _ _ => ?_
  refine (Async.checks_lift _).bind fun clientId hclient => ?_
  refine (Async.checks_lift _).bind fun _ _ => (Async.checks_lift _).bind fun _ _ => ?_
  refine (Async.checks_liftThrow _).bind fun _ _ => (Async.checks_lift _).bind fun _ _ => ?_
  refine fun s => .inr (.inr ⟨clientId, ?_, rfl⟩)
  simp only [requestClientId, hclient]

/-- The tasks after validation. -/
theorem tasks_of_validate {db : RefreshAnswers} {c : ClientId} {counted : List ClientId}
    (h : Api.Refresh.validate L config req db counted = (counted, .calls [.ok c])) :
    Api.Refresh.tasks L config req db counted =
      match db.incremented with
      | .error _ => (counted, .calls [.error internalDbError])
      | .ok () => (counted ++ [c], .calls [Api.Refresh.generatePushId L config db c]) := by
  rw [Api.Refresh.tasks, Async.bind_apply, Async.bind, h]
  simp only [Async.proceed_one]
  rw [Async.bind_apply, Async.bind, Api.Refresh.incrementRefreshCount]
  cases db.incremented with
  | error err => rfl
  | ok u => simp only [Async.proceed_one]; rfl

/-- Without validation nothing is counted. -/
theorem handle_of_not_validated (h : ¬ Validated L config req faults s) :
    (handle L config req faults s).1 = s := by
  rcases checks_validate L config req (faults.answers s (requestClientId req)) [] with
    hv | ⟨e, hv⟩ | ⟨c, rfl, hv⟩
  · simp only [handle, Api.Refresh.handle, Api.Refresh.tasks, Async.bind_apply, Async.bind, hv, finish,
      List.foldl_nil]
  · simp only [handle, Api.Refresh.handle, Api.Refresh.tasks, Async.bind_apply, Async.bind, hv,
      Async.proceed, finish, List.foldl_nil]
  · exact absurd (congrArg Prod.snd hv) h

theorem Validated.validate_eq (h : Validated L config req faults s) :
    Api.Refresh.validate L config req (faults.answers s (requestClientId req)) ([] : List ClientId)
      = ([], .calls [.ok (requestClientId req)]) := by
  rcases checks_validate L config req (faults.answers s (requestClientId req)) [] with
    hv | ⟨e, hv⟩ | ⟨c, rfl, hv⟩
  · rw [Validated, hv] at h; simp at h
  · rw [Validated, hv] at h; simp at h
  · exact hv

/-- With it the increment decides. -/
theorem Validated.handle_eq (h : Validated L config req faults s) :
    handle L config req faults s =
      match faults.incrementRefreshCount s (requestClientId req) with
      | (_, .error _) => (s, some (Api.Refresh.complete (.error internalDbError)))
      | (s', .ok ()) => (s', some (Api.Refresh.complete (Api.Refresh.generatePushId L config
          (faults.answers s (requestClientId req)) (requestClientId req)))) := by
  have htasks := tasks_of_validate h.validate_eq
  simp only [handle, Api.Refresh.handle, htasks]
  have hanswer : (faults.answers s (requestClientId req)).incremented
      = (faults.incrementRefreshCount s (requestClientId req)).2 := rfl
  rw [hanswer]
  rcases hcall : faults.incrementRefreshCount s (requestClientId req) with ⟨s', _ | _⟩
  · simp [finish]
  · simp [finish, hcall]

/-! ### The push ids that are accepted -/

theorem acceptedPushIds_unit (h : config.NODE_ENV = some "unit") (c : ClientId) :
    acceptedPushIds L config s c = Set.univ := by
  ext p; simp [acceptedPushIds, Validate.validatePushId, h]

/-- Outside of unit tests it is one push id. -/
theorem acceptedPushIds_eq (h : config.NODE_ENV ≠ some "unit") (c : ClientId) :
    acceptedPushIds L config s c
      = {generatePushId L.shaDigest config.SALT c (s.getRefreshCount c)} := by
  ext p
  by_cases hp : p = generatePushId L.shaDigest config.SALT c (s.getRefreshCount c)
  · simp [acceptedPushIds, Validate.validatePushId, hp]
  · simp [acceptedPushIds, Validate.validatePushId, hp, h]

/-- A counter that has gone up changes what is accepted iff the digests differ. -/
theorem acceptedPushIds_counted (L : Library) (config : Config) {t : RefreshTable} {c : ClientId}
    (hc : Counted c s.refreshCount t) :
    (∀ d, acceptedPushIds L config { s with refreshCount := t } d = acceptedPushIds L config s d) ↔
      (config.NODE_ENV ≠ some "unit" →
        generatePushId L.shaDigest config.SALT c (s.getRefreshCount c)
          = generatePushId L.shaDigest config.SALT c (s.getRefreshCount c + 1)) := by
  have hself : BlacklistMysqlStorage.getRefreshCount { s with refreshCount := t } c
      = s.getRefreshCount c + 1 := hc.self
  constructor
  · intro h hunit
    have hd := h c
    rw [acceptedPushIds_eq hunit, acceptedPushIds_eq hunit, hself, Set.singleton_eq_singleton_iff] at hd
    exact hd.symm
  · intro h d
    by_cases hunit : config.NODE_ENV = some "unit"
    · rw [acceptedPushIds_unit hunit, acceptedPushIds_unit hunit]
    · rw [acceptedPushIds_eq hunit, acceptedPushIds_eq hunit]
      by_cases hd : d = c
      · subst hd; rw [hself, h hunit]
      · have hother : BlacklistMysqlStorage.getRefreshCount { s with refreshCount := t } d
            = s.getRefreshCount d := hc.getRefreshCount_ne hd
        rw [hother]

/-- The answer after a counted refresh is an error iff the read of the counter fails. -/
theorem responses_complete (c : ClientId) :
    (∃ r ∈ responses (Api.Refresh.complete (Api.Refresh.generatePushId L config
        (faults.answers s (requestClientId req)) c)), 400 ≤ r.1) ↔
      faults.getNewRefreshCount = true := by
  have hanswer : (faults.answers s (requestClientId req)).newRefreshCount
      = answerUnless faults.getNewRefreshCount
        ((faults.incrementRefreshCount s (requestClientId req)).1.getRefreshCount
          (requestClientId req)) := rfl
  rw [Api.Refresh.generatePushId, hanswer]
  cases faults.getNewRefreshCount with
  | true => simp [answerUnless, Api.Refresh.complete, responses, errorResponse, internalDbError]
  | false => simp [answerUnless, Api.Refresh.complete, responses]

end

/-- For every request, every content of the blacklist and every pattern of failing calls. -/
theorem atomic_iff_not_leftMidway (L : Library) (config : Config) (req : Api.Request)
    (faults : Faults) (s : BlacklistMysqlStorage) :
    Atomic L config req faults s ↔ ¬ LeftMidway L config req faults s := by
  by_cases hv : Validated L config req faults s
  · have hhandle := hv.handle_eq
    rcases incrementRefreshCount_cases faults s (requestClientId req) with
      ⟨⟨hfind, hincr⟩, t, hcall, hcounted⟩ | ⟨hno, err, hcall⟩
    · -- the counter has gone up: what is left is the read of it
      simp only [hcall] at hhandle
      have hchanged := acceptedPushIds_counted L config hcounted
      constructor
      · intro h hmid
        refine hmid.differs (hchanged.mp ?_ hmid.checked)
        have hsame := h _ (congrArg Prod.snd hhandle) ((responses_complete _).mpr hmid.unread)
        rwa [hhandle] at hsame
      · rintro h outs houts herror
        rw [hhandle] at houts ⊢
        obtain rfl := Option.some.inj houts
        refine hchanged.mpr fun hunit => by_contra fun hdiffers => h ?_
        exact ⟨hv, hfind, hincr, (responses_complete _).mp herror, hunit, hdiffers⟩
    · simp only [hcall] at hhandle
      refine ⟨fun _ hmid => hno ⟨hmid.found, hmid.incremented⟩, fun _ outs _ _ c => ?_⟩
      rw [hhandle]
  · refine ⟨fun _ hmid => hv hmid.validated, fun _ outs _ _ c => ?_⟩
    rw [handle_of_not_validated hv]

/-- The last call fails. -/
def lastReadFails : Faults := ⟨false, false, false, false, true⟩

/-- A refresh of a client that has never refreshed. -/
def firstRefresh : Api.Request :=
  ⟨"POST", List.toAList [⟨"authorization", "Basic clid-0"⟩, ⟨"content-type", "application/json"⟩],
    true, [], "\x7b\"push_id\":\"clid-0elephant0\"\x7d", ""⟩

/-- A digest that keeps its input, and a parser that reads the body of the request. -/
def plainLibrary : Library where
  numbers := ⟨fun _ => "", fun _ => .nan⟩
  urlParse _ := .ok none
  jsonParse text :=
    if text = firstRefresh.body then .ok (.obj [("push_id", .str "clid-0elephant0")]) else .error ""
  base64Decode text := text
  shaDigest text := text
  aesEncrypt _ := .error .library

/-- It is answered with 500, and the push id that it came with is not accepted any more. -/
theorem not_atomic_lastReadFails :
    ((handle plainLibrary .default firstRefresh lastReadFails .create).2.map responses
        = some [(500, .obj [("error", .str "internal DB error")])]) ∧
      acceptedPushIds plainLibrary .default .create "clid-0" = {"clid-0elephant0"} ∧
      acceptedPushIds plainLibrary .default
        (handle plainLibrary .default firstRefresh lastReadFails .create).1 "clid-0"
        = {"clid-0elephant1"} ∧
      ¬ Atomic plainLibrary .default firstRefresh lastReadFails .create := by
  have hbefore : acceptedPushIds plainLibrary .default .create "clid-0" = {"clid-0elephant0"} :=
    acceptedPushIds_eq (by decide) "clid-0"
  have hafter : acceptedPushIds plainLibrary .default
      (handle plainLibrary .default firstRefresh lastReadFails .create).1 "clid-0"
      = {"clid-0elephant1"} := acceptedPushIds_eq (by decide) "clid-0"
  refine ⟨rfl, hbefore, hafter, fun h => ?_⟩
  have hsame := h _ rfl ⟨_, List.mem_singleton.mpr rfl, by decide⟩ "clid-0"
  rw [hbefore, hafter, Set.singleton_eq_singleton_iff] at hsame
  exact absurd hsame (by decide)

/-! ### The calls one by one -/

/-- Every call of the exchange goes through. -/
def noFaults : Faults := ⟨false, false, false, false, false⟩

section

variable {shaDigest : String → String} {salt : String} {b : Blacklist} {i : ℕ} {c : ClientId}
  {p : PushId}

theorem step_exec {t : RefreshTable} {phase phase' : Phase} (hr : b.requests[i]? = some ⟨c, p, phase⟩)
    (hcall : runCall shaDigest salt b.refreshCount c p phase = some (t, phase')) :
    ∃ b', refreshStep shaDigest salt b (.exec i) = some b' ∧ b'.refreshCount = t ∧
      b'.requests[i]? = some ⟨c, p, phase'⟩ := by
  obtain ⟨hi, -⟩ := List.getElem?_eq_some_iff.mp hr
  refine ⟨b.moved i ⟨c, p, phase⟩ t phase', ?_, rfl, List.getElem?_set_self hi⟩
  simp [refreshStep, hr, hcall, Blacklist.moved]

/-- The last call answers with the push id of the counter. -/
theorem run_incremented (hr : b.requests[i]? = some ⟨c, p, .incremented⟩) :
    ∃ b', run (refreshStep shaDigest salt) b [.exec i] = some b' ∧ b'.refreshCount = b.refreshCount ∧
      b'.requests[i]? = some ⟨c, p, .done (.ok (generatePushId shaDigest salt c
        (getRefreshCount b.refreshCount c)))⟩ := by
  have hcall : runCall shaDigest salt b.refreshCount c p .incremented = some (b.refreshCount,
      .done (.ok (generatePushId shaDigest salt c (getRefreshCount b.refreshCount c)))) := rfl
  obtain ⟨b', hstep, hcount, hreq⟩ := step_exec hr hcall
  exact ⟨b', run_cons_some.mpr ⟨b', hstep, rfl⟩, hcount, hreq⟩

/-- From the check on, the calls count once and answer with the push id of the new count. -/
theorem run_validated (hr : b.requests[i]? = some ⟨c, p, .validated⟩) :
    ∃ n b', run (refreshStep shaDigest salt) b (List.replicate n (.exec i)) = some b' ∧
      b'.requests[i]? = some ⟨c, p, .done (.ok (generatePushId shaDigest salt c
        (getRefreshCount b'.refreshCount c)))⟩ ∧
      ∀ s : BlacklistMysqlStorage, s.refreshCount = b.refreshCount →
        noFaults.incrementRefreshCount s c = ({ s with refreshCount := b'.refreshCount }, .ok ()) := by
  rcases findOrCreate_cases b.refreshCount c with ⟨-, hfound⟩ | ⟨-, t, hcreated, -⟩
  · obtain ⟨t, ht⟩ := increment_isSome b.refreshCount c
    have hfind : runCall shaDigest salt b.refreshCount c p .validated
        = some (b.refreshCount, .found) := by
      simp [runCall, hfound]
    obtain ⟨b₁, hstep₁, hcount₁, hr₁⟩ := step_exec hr hfind
    have hincrement : runCall shaDigest salt b₁.refreshCount c p .found = some (t, .incremented) := by
      simp [runCall, hcount₁, ht]
    obtain ⟨b₂, hstep₂, hcount₂, hr₂⟩ := step_exec hr₁ hincrement
    obtain ⟨b', hrun, hcount, hreq⟩ := run_incremented hr₂
    refine ⟨3, b', run_cons_some.mpr ⟨b₁, hstep₁, run_cons_some.mpr ⟨b₂, hstep₂, hrun⟩⟩,
      by rwa [hcount], fun s hs => ?_⟩
    simp [Faults.incrementRefreshCount, answerUnless, noFaults, hs, hfound, ht, hcount, hcount₂]
  · have hfind : runCall shaDigest salt b.refreshCount c p .validated = some (t, .incremented) := by
      simp [runCall, hcreated]
    obtain ⟨b₁, hstep₁, hcount₁, hr₁⟩ := step_exec hr hfind
    obtain ⟨b', hrun, hcount, hreq⟩ := run_incremented hr₁
    refine ⟨2, b', run_cons_some.mpr ⟨b₁, hstep₁, hrun⟩, by rwa [hcount], fun s hs => ?_⟩
    simp [Faults.incrementRefreshCount, answerUnless, noFaults, hs, hcreated, hcount, hcount₁]

end

/-- A refresh that passes its checks counts and answers as its calls do when they run without a
    break. -/
theorem Validated.handle_schedule {L : Library} {config : Config} {req : Api.Request}
    {s : BlacklistMysqlStorage} (h : Validated L config req noFaults s) {b : Blacklist}
    (hb : b.refreshCount = s.refreshCount) :
    ∃ n b' q, run (refreshStep L.shaDigest config.SALT) b
        (.refresh (requestClientId req) (generatePushId L.shaDigest config.SALT (requestClientId req)
          (s.getRefreshCount (requestClientId req)))
          :: List.replicate n (.exec b.requests.length)) = some b' ∧
      handle L config req noFaults s
        = ({ s with refreshCount := b'.refreshCount }, some (Api.Refresh.complete (.ok q))) ∧
      (b'.requests[b.requests.length]?).map Request.phase = some (.done (.ok q)) := by
  set c := requestClientId req
  set p := generatePushId L.shaDigest config.SALT c (s.getRefreshCount c) with hp
  set b₀ : Blacklist := { b with requests := b.requests ++ [⟨c, p, .start⟩] } with hb₀
  have hr₀ : b₀.requests[b.requests.length]? = some ⟨c, p, .start⟩ := List.getElem?_concat_length
  have hcheck : runCall L.shaDigest config.SALT b₀.refreshCount c p .start
      = some (b₀.refreshCount, .validated) := by
    have hok : validatePushId L.shaDigest config.SALT b₀.refreshCount c p = .ok () := by
      rw [validatePushId_ok_iff, hp, hb₀, hb]
      rfl
    simp [runCall, hok]
  obtain ⟨b₁, hstep₁, hcount₁, hr₁⟩ := step_exec hr₀ hcheck
  obtain ⟨n, b', hrun, hreq, hincrement⟩ := run_validated hr₁
  refine ⟨n + 1, b', _, run_cons_some.mpr ⟨b₀, rfl, run_cons_some.mpr ⟨b₁, hstep₁, hrun⟩⟩, ?_,
    by rw [hreq]; rfl⟩
  have hcall := hincrement s (by rw [hcount₁, hb₀, hb])
  rw [h.handle_eq, hcall]
  simp only [Api.Refresh.generatePushId, Faults.answers]
  rw [hcall]
  rfl

end Elephant.Refresh
