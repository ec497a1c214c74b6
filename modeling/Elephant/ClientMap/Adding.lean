import Elephant.ClientMap.Backends

/-! Whether an `add` takes effect (`persistence/mysqlclientmap.coffee`, `model/clientMapModel.coffee`).

    `add` looks for a row of the push id and updates it, or inserts a new one. The client id column is
    unique, and nothing looks at it first: a row that an earlier push id of the client has left makes
    the insert, or the update, a duplicate, and the error is only logged. Any calls of the storage may
    have come before. -/

namespace Elephant.ClientMap
open Elephant.Schemes Elephant.Model

/-- `DELETE … WHERE clientid = clientId`. -/
def MySqlClientMap.removeByClientId (t : ClientTable) (clientId : ClientId) : ClientTable where
  rows := t.rows.filter fun r => r.clientid ≠ clientId
  keyNodup := (List.filter_sublist.map Row.pushid).nodup t.keyNodup
  uniqNodup := (List.filter_sublist.map Row.clientid).nodup t.uniqNodup

/-- The calls of the storage that write. -/
inductive TableCall where
  | add (pushId : PushId) (clientId : ClientId) (serverId : ServerId) (workerId : WorkerId)
  | remove (pushId : PushId)
  | removeByClientId (clientId : ClientId)
  | update (pushId : PushId) (valueMap : ValueMap)
  deriving DecidableEq, Repr

/-- A call with the database up; an error is handed to the callback and leaves the table alone. -/
def TableCall.on (t : ClientTable) : TableCall → ClientTable
  | .add pushId clientId serverId workerId =>
    (MySqlClientMap.add t pushId clientId serverId workerId).getD t
  | .remove pushId => MySqlClientMap.remove t pushId
  | .removeByClientId clientId => MySqlClientMap.removeByClientId t clientId
  | .update pushId valueMap => (MySqlClientMap.update t pushId valueMap).getD t

/-- The content of the table after a history of calls. -/
def contentAfter (history : List TableCall) : ClientTable := history.foldl TableCall.on .empty

/-- After `add` has completed, `getClient` finds exactly what was added. -/
def TakesEffect (t : ClientTable) (p : PushId) (c : ClientId) (s : ServerId) (w : WorkerId) : Prop :=
  MySqlClientMap.getClient (TableCall.on t (.add p c s w)) p = some (MySqlClientMap.row p c s w)

instance (t : ClientTable) (p : PushId) (c : ClientId) (s : ServerId) (w : WorkerId) :
    Decidable (TakesEffect t p c s w) := inferInstanceAs (Decidable (_ = _))

section

variable {t : ClientTable} {p q : PushId} {c : ClientId} {s : ServerId} {w : WorkerId} {r : Row}

/-- Whatever `add` did, it has not set the row if another push id holds the client. -/
theorem not_takesEffect_of_held (hr : r ∈ t.rows) (hc : r.clientid = c) (hp : r.pushid ≠ p) :
    ¬ TakesEffect t p c s w := by
  intro heffect
  rw [TakesEffect, TableCall.on, MySqlClientMap.getClient] at heffect
  cases hadd : MySqlClientMap.add t p c s w with
  | none =>
    -- the table is as it was, and the row of the client is the one under the other push id
    rw [hadd, Option.getD_none] at heffect
    obtain ⟨hmem, -⟩ := Table.find_eq_some.mp heffect
    exact hp (pushid_eq_of_clientid hr hmem hc)
  | some t' =>
    -- the other row is still there, so the table would have two rows of the client
    rw [hadd, Option.getD_some] at heffect
    obtain ⟨hmem, -⟩ := Table.find_eq_some.mp heffect
    have hold : t'.find r.pushid = some r := by
      rw [MySqlClientMap.find_add_ne hadd hp]
      exact Table.find_eq_some.mpr ⟨hr, rfl⟩
    obtain ⟨hmem', -⟩ := Table.find_eq_some.mp hold
    exact hp (pushid_eq_of_clientid hmem' hmem hc)

end

/-- For every content that calls of the storage can leave, and every `add` to it: it takes effect iff
    no other push id has a row of the client. -/
theorem takesEffect_iff_unheld (history : List TableCall) (p : PushId) (c : ClientId) (s : ServerId)
    (w : WorkerId) :
    TakesEffect (contentAfter history) p c s w ↔ Unheld (contentAfter history) p c := by
  constructor
  · intro heffect
    rw [unheld_iff]
    intro r hr hc
    by_contra hp
    exact not_takesEffect_of_held hr hc hp heffect
  · intro hfree
    obtain ⟨t', hadd, hfind, -⟩ := MySqlClientMap.add_spec s w (unheld_iff.mp hfree)
    rw [TakesEffect, TableCall.on, hadd]
    exact hfind

/-- A client is added, refreshes its push id and is added again while the first row is there. -/
theorem not_takesEffect_afterRefresh :
    let history : List TableCall := [.add "puid-0" "clid-0" "10.0.0.1:8443" 1]
    ¬ TakesEffect (contentAfter history) "puid-1" "clid-0" "10.0.0.1:8443" 1 ∧
      MySqlClientMap.getClient
        (TableCall.on (contentAfter history) (.add "puid-1" "clid-0" "10.0.0.1:8443" 1)) "puid-1"
          = none := by
  decide

end Elephant.ClientMap
