import Elephant.Listen.Worker
import Elephant.Schemes.Table

/-! The client map in MySQL (`persistence/mysqlclientmap.coffee`, `model/clientMapModel.coffee`) and
    the master's message handlers over it (`api/appserver.coffee`).

    The table `connected_push_id` maps a push id to the client, the server (`hostname`) and the
    worker it is connected to; the client id column is unique. `add` looks the push id up and then
    inserts or updates; here it runs in one go, its single operations are interleaved in
    `Elephant.ClientMap.Ordering`. -/

namespace Elephant.ClientMap
open Elephant.Schemes Elephant.Model Elephant.Listen

/-- A row of `connected_push_id`; the worker id is stored as a string. -/
structure Row where
  pushid : PushId
  clientid : ClientId
  hostname : ServerId
  workerid : String
  deriving DecidableEq, Repr

abbrev ClientTable := Table Row.pushid Row.clientid

/-- No other push id has a row of the client. -/
def Unheld (t : ClientTable) (p : PushId) (c : ClientId) : Prop :=
  ∀ q r, t.find q = some r → r.clientid = c → q = p

section

variable {t t' : ClientTable} {p : PushId} {c : ClientId}

theorem unheld_iff : Unheld t p c ↔ ∀ r ∈ t.rows, r.clientid = c → r.pushid = p := by
  constructor
  · intro h r hr hc
    exact h r.pushid r (Table.find_eq_some.mpr ⟨hr, rfl⟩) hc
  · rintro h q r hfind hc
    obtain ⟨hr, rfl⟩ := Table.find_eq_some.mp hfind
    exact h r hr hc

instance (t : ClientTable) (p : PushId) (c : ClientId) : Decidable (Unheld t p c) :=
  decidable_of_iff' _ unheld_iff

/-- The rows of the other push ids decide. -/
theorem Unheld.congr (h : Unheld t p c) (hne : ∀ q, q ≠ p → t'.find q = t.find q) :
    Unheld t' p c := by
  intro q r hr hc
  by_contra hq
  rw [hne q hq] at hr
  exact hq (h q r hr hc)

/-- Two rows of one client are one row. -/
theorem pushid_eq_of_clientid {r r' : Row} (hr : r ∈ t.rows) (hr' : r' ∈ t.rows)
    (h : r.clientid = r'.clientid) : r.pushid = r'.pushid := by
  rw [List.inj_on_of_nodup_map t.uniqNodup hr hr' h]

/-- A push id that has a row of the client is the only one. -/
theorem unheld_of_find {r : Row} (hr : t.find p = some r) (hc : r.clientid = c) : Unheld t p c := by
  obtain ⟨hmem, hp⟩ := Table.find_eq_some.mp hr
  rw [unheld_iff]
  intro r' hr' hc'
  rw [pushid_eq_of_clientid hr' hmem (hc'.trans hc.symm), hp]

end

namespace MySqlClientMap

/-- The column values that `insert` and `updateInstance` write. -/
def row (pushId : PushId) (clientId : ClientId) (serverId : ServerId) (workerId : WorkerId) : Row :=
  ⟨pushId, clientId, serverId, toString workerId⟩

def getClient (t : ClientTable) (pushId : PushId) : Option Row := t.find pushId

def insert (t : ClientTable) (pushId : PushId) (clientId : ClientId) (serverId : ServerId)
    (workerId : WorkerId) : Option ClientTable :=
  Table.insert t (row pushId clientId serverId workerId)

def updateInstance (t : ClientTable) (pushId : PushId) (clientId : ClientId) (serverId : ServerId)
    (workerId : WorkerId) : Option ClientTable :=
  Table.update t (row pushId clientId serverId workerId)

/-- Find first; update if found, insert otherwise. `none` is an error handed to the callback. -/
def add (t : ClientTable) (pushId : PushId) (clientId : ClientId) (serverId : ServerId)
    (workerId : WorkerId) : Option ClientTable :=
  match getClient t pushId with
  | none => insert t pushId clientId serverId workerId
  | some _ => updateInstance t pushId clientId serverId workerId

def remove (t : ClientTable) (pushId : PushId) : ClientTable := t.destroy pushId

section

variable {t : ClientTable} {p : PushId} {c : ClientId} (s : ServerId) (w : WorkerId)

/-- Where no other push id holds the client, an insert fails on a present row only. -/
theorem insert_absent (h : ∀ r ∈ t.rows, r.clientid = c → r.pushid = p) (habs : t.find p = none) :
    ∃ t', insert t p c s w = some t' ∧ t'.find p = some (row p c s w) ∧
      ∀ q, q ≠ p → t'.find q = t.find q := by
  have hk : ∀ x ∈ t.rows, x.pushid ≠ (row p c s w).pushid := Table.find_eq_none.mp habs
  obtain ⟨t', ht'⟩ := Table.insert_isSome hk fun x hx hc => hk x hx (h x hx hc)
  exact ⟨t', ht', Table.find_insert_self ht', fun q hq => Table.find_insert_ne ht' hq⟩

theorem insert_present (hp : t.find p ≠ none) : insert t p c s w = none := by
  cases ht : insert t p c s w with
  | none => rfl
  | some t' =>
    have habs := (Table.insert_eq_some ht).2.1
    exact absurd (Table.find_eq_none.mpr (by simpa [row] using habs)) hp

theorem insert_held (h : ¬ Unheld t p c) : insert t p c s w = none := by
  cases ht : insert t p c s w with
  | none => rfl
  | some t' =>
    have hrow : t'.find p = some (row p c s w) := Table.find_insert_self ht
    exact absurd ((unheld_of_find hrow rfl).congr fun q hq => (Table.find_insert_ne ht hq).symm) h

theorem update_absent (habs : t.find p = none) : updateInstance t p c s w = some t :=
  Table.update_absent habs

theorem update_held (hp : t.find p ≠ none) (h : ¬ Unheld t p c) :
    updateInstance t p c s w = none := by
  cases ht : updateInstance t p c s w with
  | none => rfl
  | some t' =>
    have hrow : t'.find p = some (row p c s w) := Table.find_update_self ht hp
    exact absurd ((unheld_of_find hrow rfl).congr fun q hq => (Table.find_update_ne ht hq).symm) h

/-- Where no other push id holds the client, an update of a present row sets it. -/
theorem update_present (h : ∀ r ∈ t.rows, r.clientid = c → r.pushid = p) (hp : t.find p ≠ none) :
    ∃ t', updateInstance t p c s w = some t' ∧ t'.find p = some (row p c s w) ∧
      ∀ q, q ≠ p → t'.find q = t.find q := by
  obtain ⟨t', ht'⟩ := Table.update_isSome (t := t) (r := row p c s w)
    fun x hx hk hc => hk (h x hx hc)
  exact ⟨t', ht', Table.find_update_self ht' hp, fun q hq => Table.find_update_ne ht' hq⟩

/-- Where no other push id holds the client, `add` succeeds and sets the push id's row, whatever was
    there, and no other row. -/
theorem add_spec (h : ∀ r ∈ t.rows, r.clientid = c → r.pushid = p) :
    ∃ t', add t p c s w = some t' ∧ t'.find p = some (row p c s w) ∧
      ∀ q, q ≠ p → t'.find q = t.find q := by
  unfold add
  cases hf : getClient t p with
  | none => exact insert_absent s w h hf
  | some r => exact update_present s w h (by rw [show t.find p = some r from hf]; simp)

end

/-- Whether or not it succeeds, `add` touches no row of another push id. -/
theorem find_add_ne {t t' : ClientTable} {p q : PushId} {c : ClientId} {s : ServerId} {w : WorkerId}
    (h : add t p c s w = some t') (hq : q ≠ p) : t'.find q = t.find q := by
  unfold add at h
  cases hf : getClient t p with
  | none => rw [hf] at h; exact Table.find_insert_ne h hq
  | some r => rw [hf] at h; exact Table.find_update_ne h hq

end MySqlClientMap

/-- `processAddClient` and `processDelClient`; an error is logged and leaves the map alone. -/
def processMsg (t : ClientTable) : WorkerMsg → ClientTable
  | .addClient clientId pushId serverId workerId =>
    (MySqlClientMap.add t pushId clientId serverId workerId).getD t
  | .delClient _ pushId => MySqlClientMap.remove t pushId

/-! ### One message -/

/-- The push id a message is about. -/
def msgPushId : WorkerMsg → PushId
  | .addClient _ p _ _ => p
  | .delClient _ p => p

def isDel : WorkerMsg → Bool
  | .addClient .. => false
  | .delClient .. => true

/-- The row a message asks for. -/
def outcome : WorkerMsg → Option Row
  | .addClient c p s w => some (MySqlClientMap.row p c s w)
  | .delClient _ _ => none

/-- No other push id has a row of the client that a message adds. -/
def Free (t : ClientTable) : WorkerMsg → Prop
  | .addClient c p _ _ => Unheld t p c
  | .delClient _ _ => True

/-- Each client has one push id, `puid c`, and the rows keep to it. -/
def OnePushId (puid : ClientId → PushId) (t : ClientTable) : Prop :=
  ∀ p r, t.find p = some r → p = puid r.clientid

/-- An `ADD_CLIENT` keeps to it as well. -/
def msgOk (puid : ClientId → PushId) : WorkerMsg → Bool
  | .addClient c p _ _ => p = puid c
  | .delClient _ _ => true

section

variable {puid : ClientId → PushId} {t : ClientTable} {m : WorkerMsg} {p : PushId}

theorem find_processMsg_ne (t : ClientTable) (h : msgPushId m ≠ p) :
    (processMsg t m).find p = t.find p := by
  cases m with
  | delClient c q => exact Table.find_destroy_ne (Ne.symm h)
  | addClient c q s w =>
    rw [processMsg]
    cases ha : MySqlClientMap.add t q c s w with
    | none => rfl
    | some t' => exact MySqlClientMap.find_add_ne ha (Ne.symm h)

theorem find_processMsg_del (t : ClientTable) (h : isDel m = true) :
    (processMsg t m).find (msgPushId m) = none := by
  cases m with
  | addClient c q s w => simp [isDel] at h
  | delClient c q => exact Table.find_destroy_self

theorem OnePushId.only (h : OnePushId puid t) (c : ClientId) :
    ∀ r ∈ t.rows, r.clientid = c → r.pushid = puid c := by
  intro r hr hc
  rw [h r.pushid r (Table.find_eq_some.mpr ⟨hr, rfl⟩), hc]

/-- A message whose client no other push id holds gets its way. -/
theorem find_processMsg_of_free (h : Free t m) : (processMsg t m).find (msgPushId m) = outcome m := by
  cases m with
  | delClient c q => exact Table.find_destroy_self
  | addClient c q s w =>
    obtain ⟨t', ht', hfind, -⟩ := MySqlClientMap.add_spec s w (unheld_iff.mp h)
    rw [processMsg, ht']; exact hfind

theorem OnePushId.free (h : OnePushId puid t) (hm : msgOk puid m = true) : Free t m := by
  cases m with
  | delClient c q => exact trivial
  | addClient c q s w =>
    obtain rfl : q = puid c := by simpa [msgOk] using hm
    exact unheld_iff.mpr (h.only c)

/-- With one push id per client a message always gets its way. -/
theorem find_processMsg_self (h : OnePushId puid t) (hm : msgOk puid m = true) :
    (processMsg t m).find (msgPushId m) = outcome m :=
  find_processMsg_of_free (h.free hm)

/-- A table that differs by a row of `p` that keeps to it. -/
theorem OnePushId.congr {t' : ClientTable} (h : OnePushId puid t)
    (hne : ∀ q, q ≠ p → t'.find q = t.find q) (hp : ∀ r, t'.find p = some r → p = puid r.clientid) :
    OnePushId puid t' := by
  intro q r hr
  by_cases hq : q = p
  · subst hq; exact hp r hr
  · rw [hne q hq] at hr; exact h q r hr

theorem OnePushId.processMsg (h : OnePushId puid t) (hm : msgOk puid m = true) :
    OnePushId puid (processMsg t m) := by
  refine h.congr (fun q hq => find_processMsg_ne t (Ne.symm hq)) fun r hr => ?_
  rw [find_processMsg_self h hm] at hr
  cases m with
  | delClient c q => simp [outcome] at hr
  | addClient c q s w =>
    obtain rfl : MySqlClientMap.row q c s w = r := by simpa [outcome] using hr
    exact of_decide_eq_true hm

end

end Elephant.ClientMap
