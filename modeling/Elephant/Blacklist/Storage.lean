import Elephant.Api.Validate

/-! The blacklist in MySQL and the admin calls that revoke ids (`persistence/mysqlblacklist.coffee`,
    `persistence/blacklist.coffee`, `model/revokedPushId.coffee`, `model/revokedClientId.coffee`,
    `model/refreshCount.coffee`, `api/admin/v1/admin.coffee`).

    A revocation is an insert. The primary keys are the revoked ids, and in `revoked_push_id` the
    client id is unique as well:

        revoked_client_id  clientid* timestamp memo
        revoked_push_id    pushid*   clientid (unique) timestamp memo

    An insert that the database rejects leaves the tables alone, and the admin call answers 500. The
    main result says for exactly which histories every revoked id is refused from then on. -/

namespace Elephant.Blacklist
open Elephant.Schemes Elephant.Model Elephant.Refresh Elephant.Api
open Elephant.Push (HttpError)

structure RevokedClientId where
  clientid : ClientId
  timestamp : ℕ
  memo : String
  deriving DecidableEq, Repr

structure RevokedPushId where
  pushid : PushId
  clientid : ClientId
  timestamp : ℕ
  memo : String
  deriving DecidableEq, Repr

structure BlacklistMysqlStorage where
  revokedClientId : Table RevokedClientId.clientid RevokedClientId.clientid
  revokedPushId : Table RevokedPushId.pushid RevokedPushId.clientid
  refreshCount : RefreshTable
  deriving DecidableEq

namespace BlacklistMysqlStorage

def create : BlacklistMysqlStorage := ⟨.empty, .empty, .empty⟩

variable (s : BlacklistMysqlStorage)

def getRefreshCount (clientId : ClientId) : ℕ := Refresh.getRefreshCount s.refreshCount clientId

def getRevokedClientId (clientId : ClientId) : Option RevokedClientId :=
  s.revokedClientId.find clientId

def getRevokedPushId (pushId : PushId) : Option RevokedPushId := s.revokedPushId.find pushId

/-- `none` is an error handed to the callback, here and below. -/
def revokeClientId (now : ℕ) (clientId : ClientId) (reason : String) :
    Option BlacklistMysqlStorage :=
  (s.revokedClientId.insert ⟨clientId, now, reason⟩).map fun t => { s with revokedClientId := t }

def revokePushId (now : ℕ) (pushId : PushId) (clientId : ClientId) (reason : String) :
    Option BlacklistMysqlStorage :=
  (s.revokedPushId.insert ⟨pushId, clientId, now, reason⟩).map fun t => { s with revokedPushId := t }

def incrementRefreshCount (clientId : ClientId) : Option BlacklistMysqlStorage :=
  (findOrCreate s.refreshCount clientId).bind fun (t, created) =>
    if created then some { s with refreshCount := t }
    else (increment t clientId).map fun t' => { s with refreshCount := t' }

end BlacklistMysqlStorage

/-- The reason that `Blacklist` gives for every revocation. -/
def noReason : String := "no reason"

/-- The calls of `Blacklist` that write, with the time of the database row. -/
inductive Call where
  | revokeClientId (now : ℕ) (clientId : ClientId)
  | revokePushId (now : ℕ) (pushId : PushId) (clientId : ClientId)
  | incrementRefreshCount (clientId : ClientId)
  deriving DecidableEq, Repr

def BlacklistMysqlStorage.call (s : BlacklistMysqlStorage) : Call → Option BlacklistMysqlStorage
  | .revokeClientId now clientId => s.revokeClientId now clientId noReason
  | .revokePushId now pushId clientId => s.revokePushId now pushId clientId noReason
  | .incrementRefreshCount clientId => s.incrementRefreshCount clientId

/-! ### What a call does to a lookup -/

namespace BlacklistMysqlStorage

variable {s s' : BlacklistMysqlStorage}

/-- The tables of revoked ids are filled by their own calls only. -/
theorem call_eq_some {call : Call} (h : s.call call = some s') :
    (∀ c, (s'.getRevokedClientId c).isSome = true ↔
      (s.getRevokedClientId c).isSome = true ∨ ∃ now, call = .revokeClientId now c) ∧
    (∀ p, (s'.getRevokedPushId p).isSome = true ↔
      (s.getRevokedPushId p).isSome = true ∨ ∃ now c, call = .revokePushId now p c) := by
  cases call with
  | revokeClientId now clientId =>
    obtain ⟨t, ht, rfl⟩ := Option.map_eq_some_iff.mp h
    refine ⟨fun c => ?_, fun p => by simp [getRevokedPushId]⟩
    by_cases hc : c = clientId
    · subst hc
      have hf : t.find c = some ⟨c, now, noReason⟩ := Table.find_insert_self ht
      simp [getRevokedClientId, hf]
    · have hf : t.find c = s.revokedClientId.find c := Table.find_insert_ne ht hc
      simp [getRevokedClientId, hf, Ne.symm hc]
  | revokePushId now pushId clientId =>
    obtain ⟨t, ht, rfl⟩ := Option.map_eq_some_iff.mp h
    refine ⟨fun c => by simp [getRevokedClientId], fun p => ?_⟩
    by_cases hp : p = pushId
    · subst hp
      have hf : t.find p = some ⟨p, clientId, now, noReason⟩ := Table.find_insert_self ht
      simp [getRevokedPushId, hf]
    · have hf : t.find p = s.revokedPushId.find p := Table.find_insert_ne ht hp
      simp [getRevokedPushId, hf, Ne.symm hp]
  | incrementRefreshCount clientId =>
    obtain ⟨⟨t, created⟩, -, h⟩ := Option.bind_eq_some_iff.mp h
    have hs : s'.revokedClientId = s.revokedClientId ∧ s'.revokedPushId = s.revokedPushId := by
      cases created with
      | true => simp only [if_true, Option.some.injEq] at h; subst h; exact ⟨rfl, rfl⟩
      | false =>
        obtain ⟨t', -, rfl⟩ := Option.map_eq_some_iff.mp h
        exact ⟨rfl, rfl⟩
    simp [getRevokedClientId, getRevokedPushId, hs]

/-- A client id that is revoked already is the one reason to reject its revocation. -/
theorem revokeClientId_eq_none {now : ℕ} {c : ClientId} (h : s.call (.revokeClientId now c) = none) :
    (s.getRevokedClientId c).isSome = true := by
  by_contra hn
  have habs : s.revokedClientId.find c = none := by simpa [getRevokedClientId] using hn
  have hk : ∀ x ∈ s.revokedClientId.rows, x.clientid ≠ c := Table.find_eq_none.mp habs
  obtain ⟨t, ht⟩ := Table.insert_isSome (r := (⟨c, now, noReason⟩ : RevokedClientId)) hk hk
  simp [call, revokeClientId, ht] at h

/-- The revocation of a push id is accepted iff neither the push id nor the client has a row. -/
theorem revokePushId_isSome (now : ℕ) {p : PushId} {c : ClientId} :
    (s.call (.revokePushId now p c)).isSome = true ↔
      s.getRevokedPushId p = none ∧ ∀ r ∈ s.revokedPushId.rows, r.clientid ≠ c := by
  simp only [call, revokePushId, Option.isSome_map, getRevokedPushId]
  constructor
  · intro h
    obtain ⟨t, ht⟩ := Option.isSome_iff_exists.mp h
    obtain ⟨-, hk, hu⟩ := Table.insert_eq_some ht
    refine ⟨Table.find_eq_none.mpr ?_, ?_⟩
    · simpa using hk
    · simpa using hu
  · rintro ⟨hk, hu⟩
    obtain ⟨t, ht⟩ := Table.insert_isSome (r := (⟨p, c, now, noReason⟩ : RevokedPushId))
      (Table.find_eq_none.mp hk) hu
    rw [ht]; rfl

end BlacklistMysqlStorage

/-! ### The admin calls -/

/-- The blacklist and the revocations that were asked for, oldest first. -/
structure Admin where
  blacklist : BlacklistMysqlStorage
  asked : List Call
  deriving DecidableEq

def Admin.create : Admin := ⟨.create, []⟩

inductive AdminCall where
  | revokePushId (now : ℕ) (pushId : PushId) (clientId : ClientId)
  | revokeClientId (now : ℕ) (clientId : ClientId)
  deriving DecidableEq, Repr

def AdminCall.toCall : AdminCall → Call
  | .revokePushId now pushId clientId => .revokePushId now pushId clientId
  | .revokeClientId now clientId => .revokeClientId now clientId

/-- `_revokeClientId` and `_revokePushId`: the answer, and the blacklist after the call. -/
def revoke (s : BlacklistMysqlStorage) (call : AdminCall) : BlacklistMysqlStorage × Next Unit :=
  match s.call call.toCall with
  | some s' => (s', .ok ())
  | none => (s, .error ⟨500, "Internal DB Error"⟩)

def adminStep (a : Admin) (call : AdminCall) : Option Admin :=
  some ⟨(revoke a.blacklist call).1, a.asked ++ [call.toCall]⟩

namespace Admin

variable (a : Admin)

/-- `validateRevokedPushId` and `validateRevokedClientId`, with the database up. -/
def checkPushId (pushId : PushId) : Next Unit :=
  Validate.validateRevokedPushId (.ok (a.blacklist.getRevokedPushId pushId))

def checkClientId (clientId : ClientId) : Next Unit :=
  Validate.validateRevokedClientId (.ok (a.blacklist.getRevokedClientId clientId))

/-- The ids that are refused are the ids that someone asked to revoke. -/
structure Effective (a : Admin) : Prop where
  pushId : ∀ p, a.checkPushId p = .error ⟨410, "push id revoked"⟩ ↔
    ∃ now c, .revokePushId now p c ∈ a.asked
  clientId : ∀ c, a.checkClientId c = .error ⟨403, "client id revoked"⟩ ↔
    ∃ now, .revokeClientId now c ∈ a.asked

/-- No other push id has been revoked for the client, unless this one has been too. -/
def FirstOfClient (a : Admin) : AdminCall → Prop
  | .revokePushId _ p c => (a.blacklist.getRevokedPushId p).isSome = true ∨
      ∀ r ∈ a.blacklist.revokedPushId.rows, r.clientid ≠ c
  | .revokeClientId _ _ => True

instance (call : AdminCall) : Decidable (a.FirstOfClient call) :=
  match call with
  | .revokePushId .. => inferInstanceAs (Decidable (_ ∨ _))
  | .revokeClientId .. => inferInstanceAs (Decidable True)

end Admin

section

variable {a a' : Admin}

theorem checkPushId_eq_error {p : PushId} : a.checkPushId p = .error ⟨410, "push id revoked"⟩ ↔
    (a.blacklist.getRevokedPushId p).isSome = true := by
  unfold Admin.checkPushId Validate.validateRevokedPushId Validate.validateRevoked
  cases a.blacklist.getRevokedPushId p <;> simp

theorem checkClientId_eq_error {c : ClientId} :
    a.checkClientId c = .error ⟨403, "client id revoked"⟩ ↔
      (a.blacklist.getRevokedClientId c).isSome = true := by
  unfold Admin.checkClientId Validate.validateRevokedClientId Validate.validateRevoked
  cases a.blacklist.getRevokedClientId c <;> simp

/-- `Effective` in terms of the rows. -/
theorem effective_iff : a.Effective ↔
    (∀ p, (a.blacklist.getRevokedPushId p).isSome = true ↔
      ∃ now c, .revokePushId now p c ∈ a.asked) ∧
    ∀ c, (a.blacklist.getRevokedClientId c).isSome = true ↔
      ∃ now, .revokeClientId now c ∈ a.asked := by
  refine ⟨fun h => ⟨fun p => ?_, fun c => ?_⟩, fun h => ⟨fun p => ?_, fun c => ?_⟩⟩
  · rw [← checkPushId_eq_error]; exact h.pushId p
  · rw [← checkClientId_eq_error]; exact h.clientId c
  · rw [checkPushId_eq_error]; exact h.1 p
  · rw [checkClientId_eq_error]; exact h.2 c

/-- One admin call: afterwards an id has a row iff it had one or the call was accepted for it. -/
theorem adminStep_rows {call : AdminCall} (h : adminStep a call = some a') :
    a'.asked = a.asked ++ [call.toCall] ∧
    ((a.blacklist.call call.toCall = some a'.blacklist) ∨
      (a.blacklist.call call.toCall = none ∧ a'.blacklist = a.blacklist)) := by
  simp only [adminStep, Option.some.injEq] at h
  subst h
  refine ⟨rfl, ?_⟩
  cases hc : a.blacklist.call call.toCall with
  | some s => left; simp [revoke, hc]
  | none => right; simp [revoke, hc]

/-- The first push id revoked for a client is rejected only when it has a row already. -/
theorem row_of_rejected {now : ℕ} {p : PushId} {c : ClientId}
    (hc : a.FirstOfClient (.revokePushId now p c))
    (hnone : a.blacklist.call (.revokePushId now p c) = none) :
    (a.blacklist.getRevokedPushId p).isSome = true := by
  rcases hc with hrow | hfree
  · exact hrow
  · by_contra habs
    have hsome := (BlacklistMysqlStorage.revokePushId_isSome now).mpr ⟨by simpa using habs, hfree⟩
    rw [show a.blacklist.call (.revokePushId now p c) = none from hnone] at hsome
    simp at hsome

theorem effective_step {call : AdminCall} (ha : a.Effective) (hc : a.FirstOfClient call)
    (h : adminStep a call = some a') : a'.Effective := by
  obtain ⟨hasked, hcall⟩ := adminStep_rows h
  rw [effective_iff] at ha ⊢
  obtain ⟨hp, hcl⟩ := ha
  simp only [hasked, List.mem_append, List.mem_singleton]
  rcases hcall with hcall | ⟨hnone, hsame⟩
  · obtain ⟨hclient, hpush⟩ := BlacklistMysqlStorage.call_eq_some hcall
    refine ⟨fun p => ?_, fun c => ?_⟩
    · rw [hpush, hp]; simp only [exists_or, eq_comm]
    · rw [hclient, hcl]; simp only [exists_or, eq_comm]
  · -- a rejected call names an id that has a row already
    rw [hsame]
    cases call with
    | revokeClientId now c =>
      have hrow := BlacklistMysqlStorage.revokeClientId_eq_none hnone
      refine ⟨fun p => by rw [hp]; simp [AdminCall.toCall], fun c' => ?_⟩
      rw [hcl]
      refine ⟨fun ⟨n, hn⟩ => ⟨n, Or.inl hn⟩, ?_⟩
      rintro ⟨n, hn | hn⟩
      · exact ⟨n, hn⟩
      · simp only [AdminCall.toCall, Call.revokeClientId.injEq] at hn
        exact (hcl c').mp (hn.2 ▸ hrow)
    | revokePushId now p c =>
      have hrow := row_of_rejected hc hnone
      refine ⟨fun p' => ?_, fun c' => by rw [hcl]; simp [AdminCall.toCall]⟩
      rw [hp]
      refine ⟨fun ⟨n, c', hn⟩ => ⟨n, c', Or.inl hn⟩, ?_⟩
      rintro ⟨n, c', hn | hn⟩
      · exact ⟨n, c', hn⟩
      · simp only [AdminCall.toCall, Call.revokePushId.injEq] at hn
        exact (hp p').mp (hn.2.1 ▸ hrow)

/-- A push id whose client has another revoked one stays usable. -/
theorem not_effective_step {call : AdminCall} (hc : ¬ a.FirstOfClient call)
    (h : adminStep a call = some a') : ¬ a'.Effective := by
  obtain ⟨hasked, hcall⟩ := adminStep_rows h
  cases call with
  | revokeClientId now c => exact absurd trivial hc
  | revokePushId now p c =>
    simp only [Admin.FirstOfClient, not_or] at hc
    obtain ⟨habs, htaken⟩ := hc
    intro he
    have hrow := ((effective_iff.mp he).1 p).mpr ⟨now, c, by rw [hasked]; simp [AdminCall.toCall]⟩
    rcases hcall with hcall | ⟨-, hsame⟩
    · exact htaken ((BlacklistMysqlStorage.revokePushId_isSome now).mp
        (Option.isSome_iff_exists.mpr ⟨_, hcall⟩)).2
    · rw [hsame] at hrow; exact habs hrow

end

theorem run_adminStep (a : Admin) : ∀ calls, ∃ a', run adminStep a calls = some a'
  | [] => ⟨a, rfl⟩
  | call :: calls => by
      obtain ⟨a', h⟩ := run_adminStep ⟨(revoke a.blacklist call).1, a.asked ++ [call.toCall]⟩ calls
      exact ⟨a', run_cons_some.mpr ⟨_, rfl, h⟩⟩

/-- For every history of admin calls: exactly the revoked ids are refused after each of them iff no
    call revokes a push id of a client that has another revoked one. -/
theorem revocation_effective_iff (calls : List AdminCall) :
    AllStates adminStep Admin.Effective .create calls ↔
      AllSteps adminStep Admin.FirstOfClient .create calls :=
  allStates_iff_allSteps (fun _ _ _ => effective_step) (fun _ => id)
    (fun _ _ _ _ => not_effective_step)
    (effective_iff.mpr ⟨by simp [Admin.create, BlacklistMysqlStorage.create,
        BlacklistMysqlStorage.getRevokedPushId, Table.empty, Table.find],
      by simp [Admin.create, BlacklistMysqlStorage.create,
        BlacklistMysqlStorage.getRevokedClientId, Table.empty, Table.find]⟩)
    (run_adminStep _ calls)

/-- The second push id of a client: the admin call answers 500 and the id is accepted as before. -/
theorem secondPushId_notRevoked :
    ¬ AllStates adminStep Admin.Effective .create
        [.revokePushId 0 "puid-1" "clid", .revokePushId 1 "puid-2" "clid"] ∧
      ∃ a, run adminStep .create [.revokePushId 0 "puid-1" "clid"] = some a ∧
        (revoke a.blacklist (.revokePushId 1 "puid-2" "clid")).2 = .error ⟨500, "Internal DB Error"⟩ ∧
        ∀ a', adminStep a (.revokePushId 1 "puid-2" "clid") = some a' →
          a'.checkPushId "puid-2" = .ok () := by
  refine ⟨fun h => ?_, _, rfl, rfl, ?_⟩
  · have hsecond : ¬ Admin.FirstOfClient
        ⟨(revoke .create (.revokePushId 0 "puid-1" "clid")).1, [.revokePushId 0 "puid-1" "clid"]⟩
        (.revokePushId 1 "puid-2" "clid") := by decide
    exact not_effective_step hsecond rfl (h _ _ (List.prefix_refl _) rfl)
  · rintro a' ⟨⟩; rfl

end Elephant.Blacklist
