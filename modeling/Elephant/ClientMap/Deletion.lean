import Elephant.ClientMap.Adding
import Elephant.Schemes.Json

/-! Removing clients by either id (`persistence/mysqlclientmap.coffee`, `removeById`;
    `persistence/objectclientmap.coffee`, `removeByClientId`).

    In MySQL one function builds the condition of the delete from two optional arguments:

        removeById (pushId, clientId)   pushId?   ──▶ DELETE WHERE pushid = pushId
                                        clientId? ──▶ DELETE WHERE clientid = clientId
                                        neither   ──▶ DELETE

    How the database compares a value that is no text with a column of text is its own affair (MySQL
    takes both for numbers), so the value that is handed over decides what is deleted. In memory the
    entries are searched for one whose `clientId` is the argument. -/

namespace Elephant.ClientMap
open Elephant.Schemes Elephant.Model

/-! ### In MySQL -/

/-- `v?`: a value that is neither `undefined` nor `null`. -/
def present (v : Option Json) : Option Json := v.filter fun v => !v.isNull

/-- The condition of a delete: a value for each column that is compared. -/
structure DeleteQuery where
  pushid : Option Json
  clientid : Option Json

def deleteQuery (pushId clientId : Option Json) : DeleteQuery :=
  match present pushId, present clientId with
  | some p, _ => ⟨some p, none⟩
  | none, some c => ⟨none, some c⟩
  | none, none => ⟨none, none⟩

section

-- how the database compares a value with a column of text
variable (equals : Json → String → Bool)

def DeleteQuery.matches (query : DeleteQuery) (r : Row) : Bool :=
  query.pushid.all (equals · r.pushid) && query.clientid.all (equals · r.clientid)

/-! The removals of `MySqlClientMap`, with any argument. -/

namespace Untyped

variable (t : ClientTable)

def removeById (pushId clientId : Option Json) : ClientTable :=
  t.destroyWhere ((deleteQuery pushId clientId).matches equals)

def remove (pushId : Option Json) : ClientTable := removeById equals t pushId none

def removeByClientId (clientId : Option Json) : ClientTable := removeById equals t none clientId

end Untyped

end

/-- At most the rows whose column is the argument are gone. -/
structure Confined (column : Row → String) (arg : Option Json) (t t' : ClientTable) : Prop where
  kept : ∀ r ∈ t.rows, arg ≠ some (.str (column r)) → r ∈ t'.rows
  unchanged : t'.rows.Sublist t.rows

/-- The argument is a text; or there are no rows; or it is another value, neither `undefined` nor
    `null`, that the database equates with no row's column. -/
def Keyed (equals : Json → String → Bool) (column : Row → String) (arg : Option Json)
    (t : ClientTable) : Prop :=
  (∃ text, arg = some (.str text)) ∨ t.rows = [] ∨
    ∃ v, present arg = some v ∧ ∀ r ∈ t.rows, equals v (column r) = false

section

variable {equals : Json → String → Bool} {column : Row → String} {arg : Option Json} {t : ClientTable}

/-- The rows that a removal by the column deletes. -/
def deleted (equals : Json → String → Bool) (column : Row → String) (arg : Option Json) (r : Row) :
    Bool :=
  (present arg).all (equals · (column r))

theorem remove_eq : Untyped.remove equals t arg = t.destroyWhere (deleted equals Row.pushid arg) := by
  rw [Untyped.remove, Untyped.removeById]
  congr 1
  funext r
  have hnone : present none = none := rfl
  cases hp : present arg with
  | none => simp [deleted, deleteQuery, hp, hnone, DeleteQuery.matches]
  | some v => simp [deleted, deleteQuery, hp, DeleteQuery.matches]

theorem removeByClientId_eq :
    Untyped.removeByClientId equals t arg = t.destroyWhere (deleted equals Row.clientid arg) := by
  rw [Untyped.removeByClientId, Untyped.removeById]
  congr 1
  funext r
  have hnone : present none = none := rfl
  cases hp : present arg with
  | none => simp [deleted, deleteQuery, hp, hnone, DeleteQuery.matches]
  | some v => simp [deleted, deleteQuery, hp, hnone, DeleteQuery.matches]

theorem deleted_str (hequals : ∀ s text, equals (.str s) text = decide (text = s)) (s : String)
    (r : Row) : deleted equals column (some (.str s)) r = decide (column r = s) := by
  simp [deleted, present, Json.isNull, hequals]

/-- With a text for its argument each removal is the one of the typed model. -/
theorem remove_str (hequals : ∀ s text, equals (.str s) text = decide (text = s)) (p : PushId) :
    Untyped.remove equals t (some (.str p)) = MySqlClientMap.remove t p := by
  rw [remove_eq, MySqlClientMap.remove, ← Table.destroyWhere_key]
  congr 1
  funext r
  exact deleted_str hequals p r

theorem removeByClientId_str (hequals : ∀ s text, equals (.str s) text = decide (text = s))
    (c : ClientId) :
    Untyped.removeByClientId equals t (some (.str c)) = MySqlClientMap.removeByClientId t c := by
  rw [removeByClientId_eq]
  refine Table.ext (List.filter_congr fun r _ => ?_)
  rw [deleted_str hequals, decide_not]

/-- A value that is no text takes along every row that is equated with it. -/
theorem confined_iff_keyed (hequals : ∀ s text, equals (.str s) text = decide (text = s)) :
    Confined column arg t (t.destroyWhere (deleted equals column arg)) ↔
      Keyed equals column arg t := by
  constructor
  · intro h
    refine or_iff_not_imp_left.mpr fun htext => ?_
    -- no row's column is the argument, so all are kept
    have hkept : ∀ r ∈ t.rows, deleted equals column arg r = false := fun r hr =>
      (Table.mem_destroyWhere.mp (h.kept r hr fun harg => htext ⟨_, harg⟩)).2
    cases harg : present arg with
    | none =>
      refine .inl (List.eq_nil_iff_forall_not_mem.mpr fun r hr => ?_)
      have := hkept r hr
      simp [deleted, harg] at this
    | some v =>
      refine .inr ⟨v, rfl, fun r hr => ?_⟩
      have := hkept r hr
      rwa [deleted, harg, Option.all_some] at this
  · intro h
    refine ⟨fun r hr hne => Table.mem_destroyWhere.mpr ⟨hr, ?_⟩, List.filter_sublist⟩
    rcases h with ⟨text, rfl⟩ | hempty | ⟨v, hv, hnone⟩
    · rw [deleted_str hequals, decide_eq_false_iff_not]
      rintro rfl
      exact hne rfl
    · rw [hempty] at hr
      simp at hr
    · rw [deleted, hv, Option.all_some]
      exact hnone r hr

end

/-- For every table and every argument, where the database compares texts as they are and other values
    in any way: a removal is confined to its key iff the argument is a text, or there are no rows, or
    the argument is another value that equals no row's column. -/
theorem removals_confined_iff (equals : Json → String → Bool)
    (hequals : ∀ s text, equals (.str s) text = decide (text = s)) (t : ClientTable)
    (arg : Option Json) :
    (Confined Row.pushid arg t (Untyped.remove equals t arg) ↔ Keyed equals Row.pushid arg t) ∧
      (Confined Row.clientid arg t (Untyped.removeByClientId equals t arg) ↔
        Keyed equals Row.clientid arg t) := by
  rw [remove_eq, removeByClientId_eq]
  exact ⟨confined_iff_keyed hequals, confined_iff_keyed hequals⟩

/-- The whole number that a text begins with. -/
def leadingNumber (text : String) : ℕ :=
  (text.toList.takeWhile Char.isDigit).foldl (fun n d => 10 * n + (d.toNat - '0'.toNat)) 0

/-- How MySQL compares texts and whole numbers with a column of text. -/
def mysqlEquals : Json → String → Bool
  | .str s, text => decide (text = s)
  | .num n, text => decide (n = .fin (leadingNumber text))
  | _, _ => false

/-- Of two clients the one whose push id is given is removed, and the other one stays. -/
theorem removals_confined_two : ∃ t,
    TableCall.on (TableCall.on .empty (.add "puid-0" "clid-0" "10.0.0.1:8443" 1))
      (.add "puid-1" "clid-1" "10.0.0.1:8443" 2) = t ∧
    Confined Row.pushid (some (.str "puid-0")) t (Untyped.remove mysqlEquals t (some (.str "puid-0"))) ∧
    (Untyped.remove mysqlEquals t (some (.str "puid-0"))).rows
      = [⟨"puid-1", "clid-1", "10.0.0.1:8443", "2"⟩] :=
  ⟨_, rfl, (removals_confined_iff mysqlEquals (fun _ _ => rfl) _ _).1.mpr (.inl ⟨_, rfl⟩), by decide⟩

/-- One client is connected. A removal of `undefined` or `null` deletes its row, and so does a removal
    of the number 0, for MySQL reads a push id that begins with no digit as 0. -/
theorem not_confined_undefined : ∃ t,
    MySqlClientMap.add .empty "puid-0" "clid-0" "10.0.0.1:8443" 1 = some t ∧ t.rows.length = 1 ∧
      (∀ equals, (Untyped.remove equals t none).rows = [] ∧
        ¬ Confined Row.pushid none t (Untyped.remove equals t none) ∧
        (Untyped.removeByClientId equals t (some .null)).rows = [] ∧
        ¬ Confined Row.clientid (some .null) t (Untyped.removeByClientId equals t (some .null))) ∧
      (Untyped.remove mysqlEquals t (some (.num (.fin 0)))).rows = [] ∧
      ¬ Confined Row.pushid (some (.num (.fin 0))) t
        (Untyped.remove mysqlEquals t (some (.num (.fin 0)))) := by
  have hgone {column : Row → String} {arg : Option Json} {t t' : ClientTable} {r : Row}
      (hr : r ∈ t.rows) (hrows : t'.rows = []) (harg : ∀ s, arg ≠ some (.str s)) :
      ¬ Confined column arg t t' := by
    intro h
    have hkept := h.kept r hr (harg _)
    rw [hrows] at hkept
    exact absurd hkept List.not_mem_nil
  refine ⟨_, rfl, rfl, fun equals => ⟨rfl, ?_, rfl, ?_⟩, rfl, ?_⟩
  · exact hgone (List.mem_singleton_self _) rfl (by simp)
  · exact hgone (List.mem_singleton_self _) rfl (by simp)
  · exact hgone (List.mem_singleton_self _) rfl (by simp)

/-! ### In memory -/

/-- What `add` writes into an entry, numbers as text; the time is left out. -/
def ClientModel.properties (m : ClientModel) : List (String × String) :=
  [("pushid", m.pushid), ("clientid", m.clientid), ("hostname", m.hostname),
    ("workerid", toString m.workerid)]

/-- `m.name`; `none` is `undefined`. -/
def ClientModel.property (m : ClientModel) (name : String) : Option String := m.properties.lookup name

namespace ObjectMap

/-- The clients that are there for tests, the last two of them on other servers. -/
def testData (localAddress : ServerId) : List (PushId × ClientId × ServerId) :=
  [("puid-11", "clid-11", localAddress), ("puid-12", "clid-12", localAddress),
    ("puid-13", "clid-13", localAddress), ("puid-14", "clid-14", localAddress),
    ("puid-15", "clid-15", localAddress), ("puid-16", "clid-16", localAddress),
    ("puid-17", "clid-17", localAddress), ("puid-18", "clid-18", localAddress),
    ("puid-21", "clid-21", localAddress), ("puid-22", "clid-22", localAddress),
    ("puid-23", "clid-23", localAddress), ("puid-24", "clid-24", localAddress),
    ("puid-25", "clid-25", localAddress), ("puid-30", "clid-30", "127.0.0.1:8444"),
    ("puid-31", "clid-31", "127.0.0.1:8445")]

/-- Both callers add them to a new object, where nothing throws. -/
def addTestData (localAddress : ServerId) (o : ObjectMap) : ObjectMap :=
  (testData localAddress).foldl (fun o d => o.call (.add d.1 d.2.1 d.2.2 0)) o

/-- The constructor. -/
def construct (localAddress : ServerId) : ObjectMap := create.addTestData localAddress

/-- `purge` starts again. -/
def purge (localAddress : ServerId) (_ : ObjectMap) : ObjectMap := create.addTestData localAddress

variable (o : ObjectMap)

/-- The property `clientId` of everything that `for e of @clientmap` comes to. A prototype that was
    replaced is walked through as well, and its values are texts and numbers. -/
def scanned : List (Option String) :=
  o.clientmap.own.entries.map (fun e => e.2.property "clientId") ++
    o.clientmap.proto.toList.flatMap fun _ =>
      ["pushid", "clientid", "hostname", "workerid", "timestamp"].map fun _ => none

/-- An entry that is found is logged with a variable `pushId` that there is not. -/
def findByClientId (clientId : Option ClientId) : Except Thrown (Option ClientModel) :=
  if clientId ∈ o.scanned then .error (.message "pushId is not defined") else .ok none

/-- The map, and whether the callback got an error. -/
def removeByClientId (clientId : Option ClientId) : Except Thrown (ObjectMap × Bool) :=
  match o.findByClientId clientId with
  | .error e => .error e
  | .ok (some client) => o.remove ((client.property "pushId").getD "undefined")
  | .ok none => .ok (o, true)

def entries : List (PushId × ClientModel) :=
  o.clientmap.own.entries.map (fun e => (e.1, e.2)) ++
    o.clientmap.proto.toList.map fun m => ("__proto__", m)

end ObjectMap

inductive ObjectCall where
  | call (c : MapCall)
  | purge
  deriving DecidableEq, Repr

def ObjectMap.run (localAddress : ServerId) (o : ObjectMap) : ObjectCall → ObjectMap
  | .call c => o.call c
  | .purge => o.purge localAddress

/-- An entry of the client is removed if there is one, it is counted, nothing else changes, and an
    error says that there is none. -/
structure Removes (c : ClientId) (o o' : ObjectMap) (error : Bool) : Prop where
  removed : (∃ e ∈ o.entries, e.2.clientid = c) → ∃ e ∈ o.entries, e.2.clientid = c ∧ e ∉ o'.entries
  gone : (o.entries.map fun e => e.2.clientid).Nodup → ∀ e ∈ o.entries, e.2.clientid = c →
    o'.getClient e.1 = .ok none
  others : ∀ e ∈ o.entries, e.2.clientid ≠ c → e ∈ o'.entries
  unchanged : o'.entries.Sublist o.entries
  counted : o'.numClients = o.numClients - ((o.entries.length : ℤ) - (o'.entries.length : ℤ))
  reported : error = true ↔ ∀ e ∈ o.entries, e.2.clientid ≠ c

def RemovesByClientId (o : ObjectMap) (c : ClientId) : Prop :=
  ∃ o' error, o.removeByClientId (some c) = .ok (o', error) ∧ Removes c o o' error

/-- No entry has a property `clientId`, so none is ever found. -/
theorem findByClientId_some (o : ObjectMap) (c : ClientId) : o.findByClientId (some c) = .ok none := by
  have hnone : ∀ x ∈ o.scanned, x = none := by
    intro x hx
    rcases List.mem_append.mp hx with hx | hx
    · obtain ⟨e, -, rfl⟩ := List.mem_map.mp hx
      rfl
    · obtain ⟨m, -, hx⟩ := List.mem_flatMap.mp hx
      obtain ⟨name, -, rfl⟩ := List.mem_map.mp hx
      rfl
  rw [ObjectMap.findByClientId, if_neg]
  intro hmem
  exact absurd (hnone _ hmem) (by simp)

/-- It answers that there is no such client. -/
theorem removeByClientId_some (o : ObjectMap) (c : ClientId) :
    o.removeByClientId (some c) = .ok (o, true) := by
  rw [ObjectMap.removeByClientId, findByClientId_some]

/-- In every state that can be reached, for every client id: the removal does what it is for iff no
    entry has the client id. -/
theorem removesByClientId_iff (localAddress : ServerId) (calls : List ObjectCall) (c : ClientId) :
    RemovesByClientId (calls.foldl (ObjectMap.run localAddress) (.construct localAddress)) c ↔
      ∀ e ∈ (calls.foldl (ObjectMap.run localAddress) (.construct localAddress)).entries,
        e.2.clientid ≠ c := by
  generalize calls.foldl (ObjectMap.run localAddress) (.construct localAddress) = o
  constructor
  · rintro ⟨o', error, hcall, h⟩
    rw [removeByClientId_some] at hcall
    obtain ⟨rfl, rfl⟩ := Prod.mk.inj (Except.ok.inj hcall)
    exact h.reported.mp rfl
  · intro hno
    refine ⟨o, true, removeByClientId_some o c, ?_, ?_, ?_, List.Sublist.refl _, by simp,
      fun _ => hno, fun _ => rfl⟩
    · rintro ⟨e, he, hc⟩
      exact absurd hc (hno e he)
    · intro _ e he hc
      exact absurd hc (hno e he)
    · intro e he _
      exact he

/-- None of the test clients has the name of the method, so no call throws in the constructor. -/
theorem construct_unshadowed (localAddress : ServerId) :
    "hasOwnProperty" ∉ (ObjectMap.construct localAddress).clientmap.own := by
  have hcalls : ObjectMap.construct localAddress = ((ObjectMap.testData localAddress).map fun d =>
      MapCall.add d.1 d.2.1 d.2.2 0).foldl ObjectMap.call .create := List.foldl_map.symm
  rw [hcalls, shadowed_iff]
  simp [Shadowed, ObjectMap.testData]

/-- A client that was added is not removed, and an error is reported. -/
theorem not_removesByClientId_added :
    ∃ o, List.foldl (ObjectMap.run "10.0.0.1:8443") (.construct "10.0.0.1:8443")
        [.call (.add "puid" "clid" "10.0.0.1:8443" 1)] = o ∧
      o.getClient "puid" = .ok (some (.own ⟨"puid", "clid", "10.0.0.1:8443", 1⟩)) ∧
      o.removeByClientId (some "clid") = .ok (o, true) ∧ ¬ RemovesByClientId o "clid" := by
  have hnew := construct_unshadowed "10.0.0.1:8443"
  have hadd := ObjectMap.clientmap_add hnew "puid" "clid" "10.0.0.1:8443" 1
  refine ⟨_, rfl, ?_, removeByClientId_some _ _, ?_⟩
  · rw [List.foldl_cons, List.foldl_nil, ObjectMap.run, ObjectMap.getClient_ok]
    · rw [hadd, JsDict.read, JsDict.assign, if_neg (by decide), AList.lookup_insert]
    · rw [hadd, JsDict.assign_own]
      simp [hnew]
  · rintro ⟨o', error, hcall, h⟩
    rw [removeByClientId_some] at hcall
    obtain ⟨rfl, rfl⟩ := Prod.mk.inj (Except.ok.inj hcall)
    refine h.reported.mp rfl ("puid", ⟨"puid", "clid", "10.0.0.1:8443", 1⟩) ?_ rfl
    refine List.mem_append_left _ (List.mem_map.mpr ⟨⟨"puid", _⟩, ?_, rfl⟩)
    rw [List.foldl_cons, List.foldl_nil, ObjectMap.run, hadd, JsDict.assign, if_neg (by decide),
      AList.entries_insert]
    exact List.mem_cons_self

end Elephant.ClientMap
