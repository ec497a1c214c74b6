import Elephant.Blacklist.Storage

/-! The blacklist in memory (`persistence/objectblacklist.coffee`) against the one in MySQL.

    The in-memory storage keeps three plain objects and reads them without asking whether the
    property is their own. So it also finds what the objects inherit, and an id `__proto__` changes
    what they inherit: revoking it gives the object a prototype with the fields of a record, counting
    a refresh of it leaves a property `count` on `Object.prototype` itself.

        Object.prototype  (… constructor, toString, … + count)
              ▲
        prototype, if `__proto__` was revoked  (clientid, timestamp, memo)
              ▲
        revoked_client_id -/

namespace Elephant.Blacklist
open Elephant.Schemes Elephant.Model

/-- The names of a record's properties. -/
def RevokedClientId.fields (_ : RevokedClientId) : List String := ["clientid", "timestamp", "memo"]

def RevokedPushId.fields (_ : RevokedPushId) : List String :=
  ["pushid", "clientid", "memo", "timestamp"]

/-- What is kept under a client id: an entry, or a function of `Object.prototype`, whose `count` has
    become `NaN`. -/
inductive CountEntry where
  | entry (clientid : ClientId) (count : ℕ)
  | inherited
  deriving DecidableEq, Repr

/-- `sharedNames` are the properties that the storage has left on `Object.prototype`. -/
structure BlacklistObjectStorage where
  revokedClientId : JsDict RevokedClientId
  revokedPushId : JsDict RevokedPushId
  refreshCount : PlainObject CountEntry
  sharedNames : List String

namespace BlacklistObjectStorage

def create : BlacklistObjectStorage := ⟨.create, .create, ∅, []⟩

variable (o : BlacklistObjectStorage)

/-- The arguments after the error: the client id in the place of the result, then the entry. -/
def getRefreshCount (clientId : ClientId) : ClientId × Option CountEntry :=
  (clientId, o.refreshCount.lookup clientId)

def getRevokedClientId (clientId : ClientId) : Option (Found RevokedClientId) :=
  o.revokedClientId.read RevokedClientId.fields o.sharedNames clientId

def getRevokedPushId (pushId : PushId) : Option (Found RevokedPushId) :=
  o.revokedPushId.read RevokedPushId.fields o.sharedNames pushId

def revokeClientId (now : ℕ) (clientId : ClientId) (reason : String) : BlacklistObjectStorage :=
  { o with revokedClientId := o.revokedClientId.assign clientId ⟨clientId, now, reason⟩ }

def revokePushId (now : ℕ) (pushId : PushId) (clientId : ClientId) (reason : String) :
    BlacklistObjectStorage :=
  { o with revokedPushId := o.revokedPushId.assign pushId ⟨pushId, clientId, now, reason⟩ }

def incrementRefreshCount (clientId : ClientId) : BlacklistObjectStorage :=
  match o.refreshCount.read clientId with
  | some (.own (.entry clientid count)) =>
    { o with refreshCount := o.refreshCount.insert clientId (.entry clientid (count + 1)) }
  | some (.own .inherited) => o
  | some .inherited =>
    -- `entry.count += 1` writes to what was inherited; for `__proto__` that is `Object.prototype`
    if clientId = "__proto__" then { o with sharedNames := "count" :: o.sharedNames }
    else { o with refreshCount := o.refreshCount.insert clientId .inherited }
  | none => { o with refreshCount := o.refreshCount.insert clientId (.entry clientId 1) }

/-- No call reports an error. -/
def call : Call → Option BlacklistObjectStorage
  | .revokeClientId now clientId => some (o.revokeClientId now clientId noReason)
  | .revokePushId now pushId clientId => some (o.revokePushId now pushId clientId noReason)
  | .incrementRefreshCount clientId => some (o.incrementRefreshCount clientId)

end BlacklistObjectStorage

/-! ### Queries -/

inductive Query where
  | getRefreshCount (clientId : ClientId)
  | getRevokedClientId (clientId : ClientId)
  | getRevokedPushId (pushId : PushId)
  deriving DecidableEq, Repr

/-- What the callback gets for the result: a number, a text, or a record, of which only matters
    whether there is one. -/
inductive Result where
  | number (n : ℕ)
  | text (t : String)
  | record (present : Bool)
  deriving DecidableEq, Repr

def BlacklistMysqlStorage.query (s : BlacklistMysqlStorage) : Query → Result
  | .getRefreshCount clientId => .number (s.getRefreshCount clientId)
  | .getRevokedClientId clientId => .record (s.getRevokedClientId clientId).isSome
  | .getRevokedPushId pushId => .record (s.getRevokedPushId pushId).isSome

def BlacklistObjectStorage.query (o : BlacklistObjectStorage) : Query → Result
  | .getRefreshCount clientId => .text (o.getRefreshCount clientId).1
  | .getRevokedClientId clientId => .record (o.getRevokedClientId clientId).isSome
  | .getRevokedPushId pushId => .record (o.getRevokedPushId pushId).isSome

/-! ### What the calls leave behind -/

def ClientRevoked (calls : List Call) (c : ClientId) : Prop := ∃ now, .revokeClientId now c ∈ calls

def PushRevoked (calls : List Call) (p : PushId) : Prop := ∃ now c, .revokePushId now p c ∈ calls

/-- The names that both objects inherit after the calls. -/
def SharedName (calls : List Call) (k : String) : Prop :=
  k ∈ protoNames ∨ .incrementRefreshCount "__proto__" ∈ calls ∧ k = "count"

def ClientName (calls : List Call) (k : String) : Prop :=
  SharedName calls k ∨ ClientRevoked calls "__proto__" ∧ k ∈ ["clientid", "timestamp", "memo"]

def PushName (calls : List Call) (k : String) : Prop :=
  SharedName calls k ∨
    PushRevoked calls "__proto__" ∧ k ∈ ["pushid", "clientid", "memo", "timestamp"]

/-- Counts never agree; a revoked id does, and one that is not revoked unless it is inherited. -/
def Agreeing (calls : List Call) : Query → Prop
  | .getRefreshCount _ => False
  | .getRevokedClientId c => ClientRevoked calls c ∨ ¬ ClientName calls c
  | .getRevokedPushId p => PushRevoked calls p ∨ ¬ PushName calls p

section

variable {calls : List Call} {call : Call} {c : ClientId} {p : PushId}

theorem clientRevoked_concat : ClientRevoked (calls ++ [call]) c ↔
    ClientRevoked calls c ∨ ∃ now, call = .revokeClientId now c := by
  simp only [ClientRevoked, List.mem_append, List.mem_singleton, exists_or, eq_comm]

theorem pushRevoked_concat : PushRevoked (calls ++ [call]) p ↔
    PushRevoked calls p ∨ ∃ now c, call = .revokePushId now p c := by
  simp only [PushRevoked, List.mem_append, List.mem_singleton, exists_or, eq_comm]

/-- What the two storages hold after the calls. -/
structure Recorded (calls : List Call) (s : BlacklistMysqlStorage) (o : BlacklistObjectStorage) :
    Prop where
  clientRow : ∀ c, (s.getRevokedClientId c).isSome = true ↔ ClientRevoked calls c
  pushRow : ∀ p, (s.getRevokedPushId p).isSome = true ↔ PushRevoked calls p
  clientOwn : ∀ c, c ∈ o.revokedClientId.own ↔ ClientRevoked calls c ∧ c ≠ "__proto__"
  clientProto : o.revokedClientId.proto.isSome = true ↔ ClientRevoked calls "__proto__"
  pushOwn : ∀ p, p ∈ o.revokedPushId.own ↔ PushRevoked calls p ∧ p ≠ "__proto__"
  pushProto : o.revokedPushId.proto.isSome = true ↔ PushRevoked calls "__proto__"
  countOwn : "__proto__" ∉ o.refreshCount
  shared : ∀ k, k ∈ o.sharedNames ↔ .incrementRefreshCount "__proto__" ∈ calls ∧ k = "count"

/-- An increment touches neither of the objects with the revoked ids. -/
theorem incrementRefreshCount_frame (o : BlacklistObjectStorage) (c : ClientId)
    (hown : "__proto__" ∉ o.refreshCount) :
    (o.incrementRefreshCount c).revokedClientId = o.revokedClientId ∧
      (o.incrementRefreshCount c).revokedPushId = o.revokedPushId ∧
      "__proto__" ∉ (o.incrementRefreshCount c).refreshCount ∧
      ∀ k, k ∈ (o.incrementRefreshCount c).sharedNames ↔
        k ∈ o.sharedNames ∨ c = "__proto__" ∧ k = "count" := by
  have hlookup : o.refreshCount.lookup "__proto__" = none := AList.lookup_eq_none.mpr hown
  by_cases hc : c = "__proto__"
  · subst hc
    have hread : o.refreshCount.read "__proto__" = some .inherited := by
      simp [PlainObject.read, hlookup, protoNames]
    simp [BlacklistObjectStorage.incrementRefreshCount, hread, hown, or_comm]
  · unfold BlacklistObjectStorage.incrementRefreshCount
    split <;> simp [hc, hown, AList.mem_insert, Ne.symm hc]

theorem recorded_step {s s' : BlacklistMysqlStorage} {o o' : BlacklistObjectStorage}
    (h : Recorded calls s o) (hs : s.call call = some s') (ho : o.call call = some o') :
    Recorded (calls ++ [call]) s' o' := by
  obtain ⟨hclient, hpush⟩ := BlacklistMysqlStorage.call_eq_some hs
  have hrows : (∀ c, (s'.getRevokedClientId c).isSome = true ↔ ClientRevoked (calls ++ [call]) c) ∧
      ∀ p, (s'.getRevokedPushId p).isSome = true ↔ PushRevoked (calls ++ [call]) p :=
    ⟨fun c => by rw [hclient, h.clientRow, clientRevoked_concat],
      fun p => by rw [hpush, h.pushRow, pushRevoked_concat]⟩
  cases call with
  | revokeClientId now clientId =>
    obtain rfl := Option.some.inj ho
    refine ⟨hrows.1, hrows.2, fun c => ?_, ?_, fun p => ?_, ?_, h.countOwn, fun k => ?_⟩
    · rw [BlacklistObjectStorage.revokeClientId, JsDict.assign_own, h.clientOwn,
        clientRevoked_concat, ← or_and_right]
      simp [eq_comm]
    · rw [BlacklistObjectStorage.revokeClientId, JsDict.assign_proto, h.clientProto,
        clientRevoked_concat]
      simp
    · rw [BlacklistObjectStorage.revokeClientId, h.pushOwn, pushRevoked_concat]; simp
    · rw [BlacklistObjectStorage.revokeClientId, h.pushProto, pushRevoked_concat]; simp
    · rw [BlacklistObjectStorage.revokeClientId, h.shared]; simp
  | revokePushId now pushId clientId =>
    obtain rfl := Option.some.inj ho
    refine ⟨hrows.1, hrows.2, fun c => ?_, ?_, fun p => ?_, ?_, h.countOwn, fun k => ?_⟩
    · rw [BlacklistObjectStorage.revokePushId, h.clientOwn, clientRevoked_concat]; simp
    · rw [BlacklistObjectStorage.revokePushId, h.clientProto, clientRevoked_concat]; simp
    · rw [BlacklistObjectStorage.revokePushId, JsDict.assign_own, h.pushOwn, pushRevoked_concat,
        ← or_and_right]
      simp [eq_comm]
    · rw [BlacklistObjectStorage.revokePushId, JsDict.assign_proto, h.pushProto, pushRevoked_concat]
      simp
    · rw [BlacklistObjectStorage.revokePushId, h.shared]; simp
  | incrementRefreshCount clientId =>
    obtain rfl := Option.some.inj ho
    obtain ⟨hcl, hpu, hcount, hshared⟩ := incrementRefreshCount_frame o clientId h.countOwn
    refine ⟨hrows.1, hrows.2, fun c => ?_, ?_, fun p => ?_, ?_, hcount, fun k => ?_⟩
    · rw [hcl, h.clientOwn, clientRevoked_concat]; simp
    · rw [hcl, h.clientProto, clientRevoked_concat]; simp
    · rw [hpu, h.pushOwn, pushRevoked_concat]; simp
    · rw [hpu, h.pushProto, pushRevoked_concat]; simp
    · rw [hshared, h.shared, ← or_and_right]; simp [eq_comm]

theorem recorded_run : ∀ {rest done : List Call} {s s' : BlacklistMysqlStorage}
    {o o' : BlacklistObjectStorage}, Recorded done s o →
      run BlacklistMysqlStorage.call s rest = some s' →
      run BlacklistObjectStorage.call o rest = some o' → Recorded (done ++ rest) s' o'
  | [], done, s, s', o, o', h, hs, ho => by
      obtain rfl := Option.some.inj hs
      obtain rfl := Option.some.inj ho
      rwa [List.append_nil]
  | call :: rest, done, s, s', o, o', h, hs, ho => by
      obtain ⟨s₁, hs₁, hs'⟩ := run_cons_some.mp hs
      obtain ⟨o₁, ho₁, ho'⟩ := run_cons_some.mp ho
      rw [List.append_cons]
      exact recorded_run (recorded_step h hs₁ ho₁) hs' ho'

theorem recorded_create : Recorded [] .create .create := by
  constructor <;> simp [ClientRevoked, PushRevoked, BlacklistMysqlStorage.create,
    BlacklistMysqlStorage.getRevokedClientId, BlacklistMysqlStorage.getRevokedPushId, Table.empty,
    Table.find, BlacklistObjectStorage.create, JsDict.create]

/-- The object finds a revoked id, and every name it inherits. -/
theorem objectFound_iff {s : BlacklistMysqlStorage} {o : BlacklistObjectStorage}
    (h : Recorded calls s o) :
    (∀ c, (o.getRevokedClientId c).isSome = true ↔ ClientRevoked calls c ∨ ClientName calls c) ∧
      ∀ p, (o.getRevokedPushId p).isSome = true ↔ PushRevoked calls p ∨ PushName calls p := by
  have hproto : "__proto__" ∈ protoNames := by decide
  refine ⟨fun c => ?_, fun p => ?_⟩
  · rw [BlacklistObjectStorage.getRevokedClientId, JsDict.read_isSome, h.clientOwn, h.shared,
      ClientName, SharedName, ← h.clientProto, Option.isSome_iff_exists]
    by_cases hc : c = "__proto__"
    · simp [hc, hproto]
    · simp [hc, RevokedClientId.fields, or_assoc]
  · rw [BlacklistObjectStorage.getRevokedPushId, JsDict.read_isSome, h.pushOwn, h.shared,
      PushName, SharedName, ← h.pushProto, Option.isSome_iff_exists]
    by_cases hp : p = "__proto__"
    · simp [hp, hproto]
    · simp [hp, RevokedPushId.fields, or_assoc]

end

/-- For every history that both storages accept and every query after it: they hand the same result
    to the callback iff the query asks for an id that is revoked or that no object inherits. -/
theorem storages_agree_iff (calls : List Call) {s : BlacklistMysqlStorage}
    {o : BlacklistObjectStorage} (hs : run BlacklistMysqlStorage.call .create calls = some s)
    (ho : run BlacklistObjectStorage.call .create calls = some o) (q : Query) :
    s.query q = o.query q ↔ Agreeing calls q := by
  have h := recorded_run recorded_create hs ho
  rw [List.nil_append] at h
  obtain ⟨hclient, hpush⟩ := objectFound_iff h
  cases q with
  | getRefreshCount c =>
    simp [BlacklistMysqlStorage.query, BlacklistObjectStorage.query, Agreeing]
  | getRevokedClientId c =>
    simp only [BlacklistMysqlStorage.query, BlacklistObjectStorage.query, Result.record.injEq,
      Bool.eq_iff_iff, h.clientRow, hclient, Agreeing]
    tauto
  | getRevokedPushId p =>
    simp only [BlacklistMysqlStorage.query, BlacklistObjectStorage.query, Result.record.injEq,
      Bool.eq_iff_iff, h.pushRow, hpush, Agreeing]
    tauto

/-- A revoked client id is revoked for both. -/
theorem storages_agree_revoked : ∃ s o,
    run BlacklistMysqlStorage.call .create [.revokeClientId 0 "clid"] = some s ∧
      run BlacklistObjectStorage.call .create [.revokeClientId 0 "clid"] = some o ∧
      s.query (.getRevokedClientId "clid") = o.query (.getRevokedClientId "clid") :=
  ⟨_, _, rfl, rfl, (storages_agree_iff [.revokeClientId 0 "clid"] rfl rfl _).mpr (.inl ⟨0, by simp⟩)⟩

/-- One refresh: the number 1 against the client id. No call at all: `constructor` is revoked in
    memory only. -/
theorem storages_disagree : (∃ s o,
      run BlacklistMysqlStorage.call .create [.incrementRefreshCount "clid"] = some s ∧
        run BlacklistObjectStorage.call .create [.incrementRefreshCount "clid"] = some o ∧
        s.query (.getRefreshCount "clid") = .number 1 ∧
        o.query (.getRefreshCount "clid") = .text "clid") ∧
    BlacklistMysqlStorage.create.query (.getRevokedClientId "constructor") = .record false ∧
      BlacklistObjectStorage.create.query (.getRevokedClientId "constructor") = .record true :=
  ⟨⟨_, _, rfl, rfl, rfl, rfl⟩, rfl, rfl⟩

end Elephant.Blacklist
