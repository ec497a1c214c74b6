import Elephant.Model.Session
import Elephant.Push.World
import Elephant.Schemes.Run
import Elephant.Schemes.Table

/-! Refreshing a push id.

    A client's push id is the digest of its client id, the salt and the number of its refreshes. A
    refresh is four database calls that interleave freely with those of other refreshes:

        start ──getRefreshCount──▶ validated ──findOrCreate──▶ incremented ──getRefreshCount──▶ done
          ╰── 401                      ╰──▶ found ──increment──╯

    A client without a row has refreshed never; the first refresh creates the row with count 1. -/

namespace Elephant.Refresh
open Elephant.Schemes Elephant.Model
open Elephant.Push (HttpError)

/-! ### `persistence/mysqlblacklist.coffee` -/

structure RefreshCount where
  clientid : ClientId
  count : ℕ
  deriving DecidableEq, Repr

abbrev RefreshTable := Table RefreshCount.clientid RefreshCount.clientid

/-- The default of the column `count`. -/
def defaultCount : ℕ := 1

/-- `row?.count or 0`. -/
def getRefreshCount (t : RefreshTable) (clientId : ClientId) : ℕ :=
  match t.find clientId with
  | some row => row.count
  | none => 0

/-- The table, and whether the row was created. -/
def findOrCreate (t : RefreshTable) (clientId : ClientId) : Option (RefreshTable × Bool) :=
  match t.find clientId with
  | some _ => some (t, false)
  | none => (t.insert ⟨clientId, defaultCount⟩).map fun t' => (t', true)

/-- `client.increment 'count', { by: 1 }`. -/
def increment (t : RefreshTable) (clientId : ClientId) : Option RefreshTable :=
  match t.find clientId with
  | some row => t.update ⟨clientId, row.count + 1⟩
  | none => some t

/-! ### `model/clientpushid.coffee`, `common/validate.coffee`, `api/v2/refresh.coffee` -/

section

variable (shaDigest : String → String) (salt : String)

def generatePushId (clientId : ClientId) (refreshCount : ℕ) : PushId :=
  shaDigest (clientId ++ salt ++ toString refreshCount)

def invalidPushId : HttpError := ⟨401, "invalid push id"⟩

def validatePushId (t : RefreshTable) (clientId : ClientId) (pushId : PushId) :
    Except HttpError Unit :=
  if pushId ≠ generatePushId shaDigest salt clientId (getRefreshCount t clientId) then
    .error invalidPushId
  else .ok ()

/-- The push id that a register answers with. -/
def Register.generatePushId (clientId : ClientId) : PushId :=
  Refresh.generatePushId shaDigest salt clientId 0

/-- How far a refresh is; `found` is one whose `findOrCreate` has found a row. -/
inductive Phase where
  | start
  | validated
  | found
  | incremented
  | done (answer : Except HttpError PushId)
  deriving DecidableEq

structure Request where
  clientId : ClientId
  pushId : PushId
  phase : Phase
  deriving DecidableEq

/-- The next database call of a refresh: the table and the phase after it. -/
def runCall (t : RefreshTable) (clientId : ClientId) (pushId : PushId) :
    Phase → Option (RefreshTable × Phase)
  | .start => match validatePushId shaDigest salt t clientId pushId with
    | .ok () => some (t, .validated)
    | .error e => some (t, .done (.error e))
  | .validated => (findOrCreate t clientId).map fun (t', created) =>
      (t', if created then .incremented else .found)
  | .found => (increment t clientId).map fun t' => (t', .incremented)
  | .incremented =>
    some (t, .done (.ok (Refresh.generatePushId shaDigest salt clientId (getRefreshCount t clientId))))
  | .done _ => none

structure Blacklist where
  refreshCount : RefreshTable
  registered : List ClientId
  requests : List Request

def Blacklist.create : Blacklist := ⟨.empty, [], []⟩

inductive RefreshEvent where
  | register (clientId : ClientId)
  | refresh (clientId : ClientId) (pushId : PushId)
  | exec (i : ℕ)
  deriving DecidableEq, Repr

/-- A client id that `generateClientId` has not produced and no request has carried. -/
def freshClientId (s : Blacklist) (clientId : ClientId) : Prop :=
  clientId ∉ s.registered ∧ ∀ r ∈ s.requests, r.clientId ≠ clientId

instance (s : Blacklist) (clientId : ClientId) : Decidable (freshClientId s clientId) :=
  inferInstanceAs (Decidable (_ ∧ _))

def refreshStep (s : Blacklist) : RefreshEvent → Option Blacklist
  | .register clientId =>
    if freshClientId s clientId then some { s with registered := s.registered ++ [clientId] } else none
  | .refresh clientId pushId =>
    some { s with requests := s.requests ++ [⟨clientId, pushId, .start⟩] }
  | .exec i => s.requests[i]?.bind fun r =>
      (runCall shaDigest salt s.refreshCount r.clientId r.pushId r.phase).map fun (t, phase) =>
        { s with refreshCount := t, requests := s.requests.set i { r with phase := phase } }

end

/-- The increment step has completed. -/
def Phase.counted : Phase → Bool
  | .incremented => true
  | .done (.ok _) => true
  | _ => false

def Request.counts (clientId : ClientId) (r : Request) : Bool :=
  decide (r.clientId = clientId) && r.phase.counted

/-- The number of refreshes of a client whose increment step has completed. -/
def completed (s : Blacklist) (clientId : ClientId) : ℕ := s.requests.countP (Request.counts clientId)

/-! ### What one call does -/

section

variable {shaDigest : String → String} {salt : String} {t t' : RefreshTable} {c d : ClientId}
  {p : PushId}

/-- The counter of `c` goes up by one, and no other changes. -/
structure Counted (c : ClientId) (t t' : RefreshTable) : Prop where
  self : getRefreshCount t' c = getRefreshCount t c + 1
  other : ∀ d, d ≠ c → t'.find d = t.find d
  present : t'.find c ≠ none

theorem counted_insert (hf : t.find c = none) (h : t.insert ⟨c, defaultCount⟩ = some t') :
    Counted c t t' := by
  have hself : t'.find c = some ⟨c, defaultCount⟩ := Table.find_insert_self h
  refine ⟨?_, fun d hd => Table.find_insert_ne h hd, by simp [hself]⟩
  simp [getRefreshCount, hself, hf, defaultCount]

theorem counted_increment (hf : t.find c ≠ none) (h : increment t c = some t') :
    Counted c t t' := by
  obtain ⟨row, hrow⟩ := Option.ne_none_iff_exists'.mp hf
  simp only [increment, hrow] at h
  have hself : t'.find c = some ⟨c, row.count + 1⟩ := Table.find_update_self h hf
  refine ⟨?_, fun d hd => Table.find_update_ne h hd, by simp [hself]⟩
  simp [getRefreshCount, hself, hrow]

/-- All the calls there are. -/
inductive Ran (shaDigest : String → String) (salt : String) (t : RefreshTable) (c : ClientId)
    (p : PushId) : Phase → RefreshTable → Phase → Prop where
  | rejected (h : p ≠ generatePushId shaDigest salt c (getRefreshCount t c)) :
      Ran shaDigest salt t c p .start t (.done (.error invalidPushId))
  | accepted (h : p = generatePushId shaDigest salt c (getRefreshCount t c)) :
      Ran shaDigest salt t c p .start t .validated
  | created {t' : RefreshTable} (h : Counted c t t') :
      Ran shaDigest salt t c p .validated t' .incremented
  | found (h : t.find c ≠ none) : Ran shaDigest salt t c p .validated t .found
  | incremented {t' : RefreshTable} (h : t.find c ≠ none → Counted c t t') :
      Ran shaDigest salt t c p .found t' .incremented
  | answered : Ran shaDigest salt t c p .incremented t
      (.done (.ok (generatePushId shaDigest salt c (getRefreshCount t c))))

theorem validatePushId_ok_iff : validatePushId shaDigest salt t c p = .ok () ↔
    p = generatePushId shaDigest salt c (getRefreshCount t c) := by
  unfold validatePushId
  split <;> simp_all

theorem ran_of_runCall {ph ph' : Phase} (h : runCall shaDigest salt t c p ph = some (t', ph')) :
    Ran shaDigest salt t c p ph t' ph' := by
  cases ph with
  | start =>
    simp only [runCall, validatePushId] at h
    split_ifs at h with hp
    · cases h; exact .rejected hp
    · cases h; exact .accepted (by simpa using hp)
  | validated =>
    simp only [runCall, findOrCreate] at h
    cases hf : t.find c with
    | some row =>
      simp only [hf, Option.map_some] at h
      cases h; exact .found (by simp [hf])
    | none =>
      simp only [hf, Option.map_map, Option.map_eq_some_iff] at h
      obtain ⟨u, hu, heq⟩ := h
      cases heq; exact .created (counted_insert hf hu)
  | found =>
    simp only [runCall, Option.map_eq_some_iff] at h
    obtain ⟨u, hu, heq⟩ := h
    cases heq; exact .incremented fun hf => counted_increment hf hu
  | incremented => cases h; exact .answered
  | done a => simp [runCall] at h

/-- The state after a call of the request `r` at position `i`. -/
def Blacklist.moved (s : Blacklist) (i : ℕ) (r : Request) (t : RefreshTable) (ph : Phase) :
    Blacklist :=
  { s with refreshCount := t, requests := s.requests.set i { r with phase := ph } }

theorem refreshStep_exec {s s' : Blacklist} {i : ℕ}
    (h : refreshStep shaDigest salt s (.exec i) = some s') :
    ∃ r t ph, s.requests[i]? = some r ∧
      Ran shaDigest salt s.refreshCount r.clientId r.pushId r.phase t ph ∧
      s' = s.moved i r t ph := by
  simp only [refreshStep, Option.bind_eq_some_iff, Option.map_eq_some_iff] at h
  obtain ⟨r, hr, ⟨t, ph⟩, hcall, rfl⟩ := h
  exact ⟨r, t, ph, hr, ran_of_runCall hcall, rfl⟩

end

/-! ### The invariant -/

section

variable {shaDigest : String → String} {salt : String} {s s' : Blacklist} {c : ClientId}

/-- What a refresh has seen, by its phase: the count it was validated at, and one it answered with. -/
def Seen (shaDigest : String → String) (salt : String) (s : Blacklist) (r : Request) : Prop :=
  let gen := generatePushId shaDigest salt r.clientId
  match r.phase with
  | .start => True
  | .validated => ∃ k ≤ completed s r.clientId, r.pushId = gen k
  | .found => (∃ k ≤ completed s r.clientId, r.pushId = gen k) ∧
      s.refreshCount.find r.clientId ≠ none
  | .incremented => ∃ k < completed s r.clientId, r.pushId = gen k
  | .done (.ok q) => ∃ k k', k < k' ∧ k < completed s r.clientId ∧ r.pushId = gen k ∧ q = gen k'
  | .done (.error e) => e = invalidPushId

structure RefreshInv (shaDigest : String → String) (salt : String) (s : Blacklist) : Prop where
  count : ∀ c, getRefreshCount s.refreshCount c = completed s c
  seen : ∀ r ∈ s.requests, Seen shaDigest salt s r

/-- What was seen stays seen while counters grow and rows stay. -/
theorem Seen.mono {r : Request} (h : Seen shaDigest salt s r)
    (hle : completed s r.clientId ≤ completed s' r.clientId)
    (hfind : s.refreshCount.find r.clientId ≠ none → s'.refreshCount.find r.clientId ≠ none) :
    Seen shaDigest salt s' r := by
  unfold Seen at h ⊢
  split at h
  · trivial
  · obtain ⟨k, hk, hp⟩ := h; exact ⟨k, by omega, hp⟩
  · obtain ⟨⟨k, hk, hp⟩, hf⟩ := h; exact ⟨⟨k, by omega, hp⟩, hfind hf⟩
  · obtain ⟨k, hk, hp⟩ := h; exact ⟨k, by omega, hp⟩
  · obtain ⟨k, k', hk, hlt, hp, hq⟩ := h; exact ⟨k, k', hk, by omega, hp, hq⟩
  · exact h

/-- The counters after a request at position `i` has moved to another phase. -/
theorem completed_moved {i : ℕ} {r : Request} (hr : s.requests[i]? = some r) (t : RefreshTable)
    (ph : Phase) (c : ClientId) : completed (s.moved i r t ph) c + (r.counts c).toNat
      = completed s c + (Request.counts c { r with phase := ph }).toNat := by
  obtain ⟨hi, rfl⟩ := List.getElem?_eq_some_iff.mp hr
  have hpos : (s.requests[i].counts c).toNat ≤ s.requests.countP (Request.counts c) := by
    cases h : s.requests[i].counts c with
    | false => exact Nat.zero_le _
    | true => exact List.countP_pos_iff.mpr ⟨_, List.getElem_mem hi, h⟩
  simp only [completed, Blacklist.moved, List.countP_set hi]
  cases h : s.requests[i].counts c <;>
    cases h' : Request.counts c { s.requests[i] with phase := ph } <;>
    simp only [h, Bool.toNat_true, Bool.toNat_false, if_true, Bool.false_eq_true, if_false]
      at hpos ⊢ <;>
    omega

/-- A call counts as completed exactly where it changes the counter. -/
theorem Ran.counter {t t' : RefreshTable} {p : PushId} {ph ph' : Phase}
    (h : Ran shaDigest salt t c p ph t' ph') (hfound : ph = .found → t.find c ≠ none) :
    (ph.counted = ph'.counted ∧ t' = t) ∨
      (ph.counted = false ∧ ph'.counted = true ∧ Counted c t t') := by
  cases h with
  | created h => exact Or.inr ⟨rfl, rfl, h⟩
  | incremented h => exact Or.inr ⟨rfl, rfl, h (hfound rfl)⟩
  | _ => exact Or.inl ⟨rfl, rfl⟩

theorem Counted.getRefreshCount_ne {t t' : RefreshTable} {d : ClientId} (h : Counted c t t')
    (hd : d ≠ c) : getRefreshCount t' d = getRefreshCount t d := by
  simp only [getRefreshCount, h.other d hd]

namespace RefreshInv

/-- A request that has found a row still has it. -/
theorem present {i : ℕ} {r : Request} (hI : RefreshInv shaDigest salt s)
    (hr : s.requests[i]? = some r) (hph : r.phase = .found) :
    s.refreshCount.find r.clientId ≠ none := by
  have hseen := hI.seen r (List.mem_of_getElem? hr)
  simp only [Seen, hph] at hseen
  exact hseen.2

variable {i : ℕ} {r : Request} {t : RefreshTable} {ph : Phase}

theorem count_moved (hI : RefreshInv shaDigest salt s) (hr : s.requests[i]? = some r)
    (hran : Ran shaDigest salt s.refreshCount r.clientId r.pushId r.phase t ph) (d : ClientId) :
    getRefreshCount t d = completed (s.moved i r t ph) d := by
  have hd := completed_moved hr t ph d
  have hold := hI.count d
  simp only [Request.counts] at hd
  rcases hran.counter (hI.present hr) with ⟨hph, rfl⟩ | ⟨hno, hyes, hC⟩
  · rw [hph] at hd; omega
  · rw [hno, hyes, Bool.and_false, Bool.and_true] at hd
    by_cases hdc : r.clientId = d
    · subst hdc
      have := hC.self
      simp only [decide_true, Bool.toNat_true, Bool.toNat_false] at hd
      omega
    · have := hC.getRefreshCount_ne (Ne.symm hdc)
      simp only [hdc, decide_false, Bool.toNat_false] at hd
      omega

theorem completed_le (hI : RefreshInv shaDigest salt s) (hr : s.requests[i]? = some r)
    (hran : Ran shaDigest salt s.refreshCount r.clientId r.pushId r.phase t ph) (d : ClientId) :
    completed s d ≤ completed (s.moved i r t ph) d := by
  rw [← hI.count_moved hr hran, ← hI.count]
  rcases hran.counter (hI.present hr) with ⟨-, rfl⟩ | ⟨-, -, hC⟩
  · exact le_rfl
  · by_cases hdc : d = r.clientId
    · subst hdc; have := hC.self; omega
    · exact (hC.getRefreshCount_ne hdc).ge

theorem find_moved (hI : RefreshInv shaDigest salt s) (hr : s.requests[i]? = some r)
    (hran : Ran shaDigest salt s.refreshCount r.clientId r.pushId r.phase t ph) {d : ClientId}
    (hd : s.refreshCount.find d ≠ none) : t.find d ≠ none := by
  rcases hran.counter (hI.present hr) with ⟨-, rfl⟩ | ⟨-, -, hC⟩
  · exact hd
  · by_cases hdc : d = r.clientId
    · exact hdc ▸ hC.present
    · rw [hC.other d hdc]; exact hd

/-- What the request that ran has seen. -/
theorem seen_self (hI : RefreshInv shaDigest salt s) (hr : s.requests[i]? = some r)
    (hran : Ran shaDigest salt s.refreshCount r.clientId r.pushId r.phase t ph) :
    Seen shaDigest salt (s.moved i r t ph) { r with phase := ph } := by
  have hseen := hI.seen r (List.mem_of_getElem? hr)
  have hself := hI.count_moved hr hran r.clientId
  have hold := hI.count r.clientId
  have hle := hI.completed_le hr hran r.clientId
  obtain ⟨c, p, ph₀⟩ := r
  simp only at hself hold hle
  cases hran with
  | rejected h => exact rfl
  | accepted h => exact ⟨_, hself.le, h⟩
  | created h =>
    obtain ⟨k, hk, hp⟩ := hseen
    have hself' := h.self
    simp only at hk hself'
    exact ⟨k, by simp only; omega, hp⟩
  | found h =>
    obtain ⟨k, hk, hp⟩ := hseen
    exact ⟨⟨k, hk.trans hle, hp⟩, h⟩
  | incremented h =>
    obtain ⟨⟨k, hk, hp⟩, hf⟩ := hseen
    have hself' := (h hf).self
    simp only at hk hself'
    exact ⟨k, by simp only; omega, hp⟩
  | answered =>
    obtain ⟨k, hk, hp⟩ := hseen
    exact ⟨k, _, by rw [hold]; exact hk, hk.trans_le hle, hp, rfl⟩

theorem exec (hI : RefreshInv shaDigest salt s)
    (hstep : refreshStep shaDigest salt s (.exec i) = some s') : RefreshInv shaDigest salt s' := by
  obtain ⟨r, t, ph, hr, hran, rfl⟩ := refreshStep_exec hstep
  refine ⟨hI.count_moved hr hran, fun x hx => ?_⟩
  rcases List.mem_or_eq_of_mem_set hx with hx | rfl
  · exact (hI.seen x hx).mono (hI.completed_le hr hran _) (hI.find_moved hr hran)
  · exact hI.seen_self hr hran

theorem step {e : RefreshEvent} (hI : RefreshInv shaDigest salt s)
    (hstep : refreshStep shaDigest salt s e = some s') : RefreshInv shaDigest salt s' := by
  cases e with
  | register c =>
    simp only [refreshStep] at hstep
    split at hstep <;> cases hstep
    exact ⟨hI.count, hI.seen⟩
  | refresh c p =>
    cases hstep
    have hsame (d : ClientId) : completed
        { s with requests := s.requests ++ [⟨c, p, .start⟩] } d = completed s d := by
      simp [completed, List.countP_append, Request.counts, Phase.counted]
    refine ⟨fun d => (hI.count d).trans (hsame d).symm, fun r hr => ?_⟩
    rcases List.mem_append.mp hr with hr | hr
    · exact (hI.seen r hr).mono (hsame _).ge id
    · rw [List.mem_singleton] at hr; subst hr; trivial
  | exec i => exact hI.exec hstep

theorem create : RefreshInv shaDigest salt .create :=
  ⟨fun c => by simp [Blacklist.create, completed, getRefreshCount, Table.find, Table.empty],
    by simp [Blacklist.create]⟩

theorem of_run {es : List RefreshEvent}
    (hrun : run (refreshStep shaDigest salt) .create es = some s) : RefreshInv shaDigest salt s :=
  inv_run (fun _ _ _ hI _ hs => hI.step hs) create (allSteps_true _ es) hrun

end RefreshInv

end

/-! ### No refresh is lost -/

theorem generatePushId_inj {shaDigest : String → String} (hinj : Function.Injective shaDigest)
    {salt : String} {c : ClientId} {k k' : ℕ}
    (h : generatePushId shaDigest salt c k = generatePushId shaDigest salt c k') : k = k' := by
  have htext : toString k = toString k' := (String.append_right_inj _).mp (hinj h)
  exact toString_inj (congrArg String.toList htext)

/-- The push id that is accepted counts the completed refreshes, and a refresh answers with another
    push id than the one presented. -/
structure NoneLost (shaDigest : String → String) (salt : String) (s : Blacklist) : Prop where
  accepts : ∀ c p, validatePushId shaDigest salt s.refreshCount c p = .ok () ↔
    p = generatePushId shaDigest salt c (completed s c)
  renewed : ∀ r ∈ s.requests, ∀ q, r.phase = .done (.ok q) → q ≠ r.pushId

/-- In every state that registers and refreshes reach, none is lost; and a client that registers
    then has its push id accepted. -/
theorem noneLost_of_run (shaDigest : String → String) (hinj : Function.Injective shaDigest)
    (salt : String) (es : List RefreshEvent) (s : Blacklist)
    (hrun : run (refreshStep shaDigest salt) .create es = some s) :
    NoneLost shaDigest salt s ∧
      ∀ c s', refreshStep shaDigest salt s (.register c) = some s' → completed s' c = 0 ∧
        validatePushId shaDigest salt s'.refreshCount c (Register.generatePushId shaDigest salt c)
          = .ok () := by
  have hI := RefreshInv.of_run hrun
  refine ⟨⟨fun c p => ?_, fun r hr q hq heq => ?_⟩, fun c s' hstep => ?_⟩
  · rw [validatePushId_ok_iff, hI.count]
  · have hseen := hI.seen r hr
    simp only [Seen, hq] at hseen
    obtain ⟨k, k', hlt, -, hp, hq'⟩ := hseen
    have := generatePushId_inj hinj (hq'.symm.trans (heq.trans hp))
    omega
  · have hI' := hI.step hstep
    simp only [refreshStep] at hstep
    split at hstep
    · rename_i hfresh
      cases hstep
      have hzero : completed s c = 0 := by
        rw [completed, List.countP_eq_zero]
        intro r hr
        simp [Request.counts, hfresh.2 r hr]
      refine ⟨hzero, ?_⟩
      rw [validatePushId_ok_iff, hI.count, hzero]; rfl
    · simp at hstep

/-- Two refreshes of a registered client, the first one's read-back after the second one's
    increment. -/
def refreshTwice : List RefreshEvent :=
  [.register "clid-0", .refresh "clid-0" "clid-0salt0", .exec 0, .exec 0,
    .refresh "clid-0" "clid-0salt1", .exec 1, .exec 1, .exec 1, .exec 0, .exec 1]

theorem noneLost_refreshTwice : ∃ s, run (refreshStep id "salt") .create refreshTwice = some s ∧
    completed s "clid-0" = 2 ∧ NoneLost id "salt" s :=
  ⟨_, rfl, by decide, (noneLost_of_run id Function.injective_id "salt" refreshTwice _ rfl).1⟩

end Elephant.Refresh
