import Elephant.ClientMap.Store

/-! The client map in memory (`persistence/objectclientmap.coffee`) against the one in MySQL, both
    used through `ClientMap` (`model/clientmap.coffee`) and `persistence/interface.coffee`.

    What a history of `add` and `remove` calls leaves under a push id is said once (`entry`); the
    table and the object are compared with it. The object is read without asking whether the property
    is its own, an `add` under `__proto__` gives it a new prototype, the fields of which it then
    inherits, and an `add` under `hasOwnProperty` hides the method that every later call begins with. -/

namespace Elephant.ClientMap
open Elephant.Schemes Elephant.Model

/-! ### `persistence/objectclientmap.coffee` -/

/-- The object kept under a push id; its `timestamp` is never looked at. -/
structure ClientModel where
  pushid : PushId
  clientid : ClientId
  hostname : ServerId
  workerid : WorkerId
  deriving DecidableEq, Repr

/-- The names under which the object has a value that counts as true. -/
def ClientModel.fields (m : ClientModel) : List String :=
  (if m.pushid = "" then [] else ["pushid"]) ++ (if m.clientid = "" then [] else ["clientid"]) ++
    (if m.hostname = "" then [] else ["hostname"]) ++ (if m.workerid = 0 then [] else ["workerid"]) ++
    ["timestamp"]

/-- What is thrown: an error with its message, or a `TypeError` for the call of what is no function. -/
inductive Thrown where
  | message (text : String)
  | typeError
  deriving DecidableEq, Repr

structure ObjectMap where
  clientmap : JsDict ClientModel
  numClients : ℤ

namespace ObjectMap

def create : ObjectMap := ⟨.create, 0⟩

variable (o : ObjectMap) (pushId : PushId)

/-- `hasClient`, which gives an error for a push id that is not there. -/
def hasClient : Except Thrown Bool :=
  match o.clientmap.hasOwnProperty pushId with
  | some b => .ok b
  | none => .error .typeError

def getClient : Except Thrown (Option (Found ClientModel)) := do
  let _ ← o.hasClient pushId
  return o.clientmap.read ClientModel.fields [] pushId

/-- `Object.keys`. -/
def getAllClients : List PushId := o.clientmap.own.keys

def add (clientId : ClientId) (serverId : ServerId) (workerId : WorkerId) :
    Except Thrown ObjectMap := do
  let has ← o.hasClient pushId
  return {
    clientmap := o.clientmap.assign pushId ⟨pushId, clientId, serverId, workerId⟩
    numClients := if has then o.numClients else o.numClients + 1 }

/-- The map, and whether the callback got an error. -/
def remove : Except Thrown (ObjectMap × Bool) := do
  let has ← o.hasClient pushId
  return if has then (⟨o.clientmap.erase pushId, o.numClients - 1⟩, false) else (o, true)

end ObjectMap

/-! ### `update` in MySQL -/

/-- The columns that an `update` sets. -/
structure ValueMap where
  pushid : Option PushId
  clientid : Option ClientId
  hostname : Option ServerId
  workerid : Option String
  deriving DecidableEq, Repr

def ValueMap.apply (v : ValueMap) (r : Row) : Row where
  pushid := v.pushid.getD r.pushid
  clientid := v.clientid.getD r.clientid
  hostname := v.hostname.getD r.hostname
  workerid := v.workerid.getD r.workerid

/-- `UPDATE … WHERE pushid = pushId`; `none` is a duplicate key. -/
def MySqlClientMap.update (t : ClientTable) (pushId : PushId) (valueMap : ValueMap) :
    Option ClientTable :=
  let rows := t.rows.map fun r => if r.pushid = pushId then valueMap.apply r else r
  if h : (rows.map Row.pushid).Nodup ∧ (rows.map Row.clientid).Nodup then some ⟨rows, h.1, h.2⟩
  else none

/-! ### Observations through `ClientMap` -/

inductive MapCall where
  | add (pushId : PushId) (clientId : ClientId) (serverId : ServerId) (workerId : WorkerId)
  | remove (pushId : PushId)
  deriving DecidableEq, Repr

inductive MapQuery where
  | getClient (pushId : PushId)
  | getAllClients
  | remove (pushId : PushId)
  | update (pushId : PushId) (valueMap : ValueMap)
  deriving DecidableEq, Repr

/-- The client object that `getClient` makes of what it finds; `none` is `undefined`. A worker is
    named by the text of its id, which MySQL stores. -/
structure Client where
  clientId : Option ClientId
  serverId : Option ServerId
  workerId : Option String
  deriving DecidableEq, Repr

/-- What a caller sees: a throw, or the arguments of the callback. -/
inductive Observed where
  | throws (error : Thrown)
  | client (found : Option Client)
  | clients (error : Option (List PushId)) (found : Option (List Row))
  | removed (error : Bool) (pushId : PushId)
  | updated (error : Bool)
  deriving DecidableEq, Repr

def Row.toClient (r : Row) : Client := ⟨some r.clientid, some r.hostname, some r.workerid⟩

/-- What is inherited is true but has none of the properties. -/
def ObjectMap.toClient : Found ClientModel → Client
  | .own m => ⟨some m.clientid, some m.hostname, some (toString m.workerid)⟩
  | .inherited => ⟨none, none, none⟩

/-- An error of `add` goes to the callback, and the table stays. -/
def MySqlClientMap.call (t : ClientTable) : MapCall → ClientTable
  | .add pushId clientId serverId workerId => (add t pushId clientId serverId workerId).getD t
  | .remove pushId => remove t pushId

/-- What is thrown is thrown before anything is written. -/
def ObjectMap.call (o : ObjectMap) : MapCall → ObjectMap
  | .add pushId clientId serverId workerId =>
    match o.add pushId clientId serverId workerId with
    | .ok o' => o'
    | .error _ => o
  | .remove pushId =>
    match o.remove pushId with
    | .ok (o', _) => o'
    | .error _ => o

def MySqlClientMap.query (t : ClientTable) : MapQuery → Observed
  | .getClient pushId => .client ((getClient t pushId).map Row.toClient)
  | .getAllClients => .clients none (some t.rows)
  | .remove pushId => .removed false pushId
  | .update pushId valueMap => .updated (update t pushId valueMap).isNone

/-- `getAllClients` puts its list in the place of the error, and `update` is not bound in the
    interface object, so the default runs. -/
def ObjectMap.query (o : ObjectMap) : MapQuery → Observed
  | .getClient pushId =>
    match o.getClient pushId with
    | .ok found => .client (found.map toClient)
    | .error e => .throws e
  | .getAllClients => .clients (some o.getAllClients) none
  | .remove pushId =>
    match o.remove pushId with
    | .ok (_, error) => .removed error pushId
    | .error e => .throws e
  | .update _ _ => .throws (.message "not implemented")

/-! ### What a history leaves -/

structure Entry where
  clientId : ClientId
  serverId : ServerId
  workerId : WorkerId
  deriving DecidableEq, Repr

/-- What one call does to the entry of `p`. -/
def MapCall.on (p : PushId) (e : Option Entry) : MapCall → Option Entry
  | .add q c s w => if q = p then some ⟨c, s, w⟩ else e
  | .remove q => if q = p then none else e

/-- The entry of `p` after the history. -/
def entry (history : List MapCall) (p : PushId) : Option Entry :=
  history.foldl (MapCall.on p) none

/-- What was last added under `__proto__`; a prototype is never removed. -/
def prototype (history : List MapCall) : Option Entry :=
  (history.filter fun call => call ≠ .remove "__proto__").foldl (MapCall.on "__proto__") none

def Entry.toRow (p : PushId) (e : Entry) : Row :=
  MySqlClientMap.row p e.clientId e.serverId e.workerId

def Entry.toModel (p : PushId) (e : Entry) : ClientModel := ⟨p, e.clientId, e.serverId, e.workerId⟩

/-- The names that the object inherits after the history. -/
def InheritedName (history : List MapCall) (k : String) : Prop :=
  k ∈ protoNames ∨ ∃ e, prototype history = some e ∧ k ∈ (e.toModel "__proto__").fields

/-- No client id occurs under two push ids. -/
def OneEach (history : List MapCall) : Prop :=
  ∀ p p' c s s' w w', MapCall.add p c s w ∈ history → MapCall.add p' c s' w' ∈ history → p = p'

/-- Some client was added under the name of the method that asks for entries. -/
def Shadowed (history : List MapCall) : Prop := ∃ c s w, MapCall.add "hasOwnProperty" c s w ∈ history

def MapQuery.Agreeing (history : List MapCall) : MapQuery → Prop
  | .getClient p =>
    ¬ Shadowed history ∧ ((entry history p).isSome = true ∨ ¬ InheritedName history p)
  | .getAllClients => False
  | .remove p => ¬ Shadowed history ∧ (entry history p).isSome = true ∧ p ≠ "__proto__"
  | .update _ _ => False

section

variable {history : List MapCall} {call : MapCall} {p : PushId}

theorem entry_concat : entry (history ++ [call]) p = call.on p (entry history p) := by
  simp [entry]

theorem prototype_concat : prototype (history ++ [call]) =
    if call = .remove "__proto__" then prototype history
    else call.on "__proto__" (prototype history) := by
  unfold prototype
  split <;> simp_all [List.filter_append]

/-- An entry was added by some call. -/
theorem add_of_entry {e : Entry} : entry history p = some e →
    .add p e.clientId e.serverId e.workerId ∈ history := by
  induction history using List.reverseRecOn with
  | nil => simp [entry]
  | append_singleton history call ih =>
    rw [entry_concat, List.mem_append, List.mem_singleton]
    intro h
    cases call with
    | add q c s w =>
      by_cases hq : q = p
      · rw [MapCall.on, if_pos hq, Option.some.injEq] at h; subst h hq; exact Or.inr rfl
      · rw [MapCall.on, if_neg hq] at h; exact Or.inl (ih h)
    | remove q =>
      by_cases hq : q = p
      · rw [MapCall.on, if_pos hq] at h; simp at h
      · rw [MapCall.on, if_neg hq] at h; exact Or.inl (ih h)

/-- A push id `__proto__` that has an entry is what the prototype was made of. -/
theorem prototype_of_entry {e : Entry} :
    entry history "__proto__" = some e → prototype history = some e := by
  induction history using List.reverseRecOn with
  | nil => simp [entry]
  | append_singleton history call ih =>
    rw [entry_concat, prototype_concat]
    intro h
    cases call with
    | add q c s w =>
      rw [if_neg (by simp)]
      by_cases hq : q = "__proto__"
      · rw [MapCall.on, if_pos hq] at h ⊢; exact h
      · rw [MapCall.on, if_neg hq] at h ⊢; exact ih h
    | remove q =>
      by_cases hq : q = "__proto__"
      · rw [MapCall.on, if_pos hq] at h; simp at h
      · rw [if_neg (by simpa using hq)]
        rw [MapCall.on, if_neg hq] at h ⊢; exact ih h

/-! ### The two maps hold the entries -/

theorem OneEach.initial (h : OneEach (history ++ [call])) : OneEach history :=
  fun p p' c s s' w w' hp hp' =>
    h p p' c s s' w w' (List.mem_append_left _ hp) (List.mem_append_left _ hp')

/-- The table has a row for each entry, with its columns. -/
theorem find_mysql (hone : OneEach history) (p : PushId) :
    Table.find (history.foldl MySqlClientMap.call .empty) p
      = (entry history p).map (Entry.toRow p) := by
  induction history using List.reverseRecOn generalizing p with
  | nil => rfl
  | append_singleton history call ih =>
    have ih := ih hone.initial
    rw [List.foldl_append, List.foldl_cons, List.foldl_nil, entry_concat]
    cases call with
    | add q c s w =>
      -- the rows with this client id were added under this push id
      have hfree : ∀ r ∈ Table.rows (history.foldl MySqlClientMap.call .empty),
          r.clientid = c → r.pushid = q := by
        intro r hr hc
        have hrow := (ih r.pushid).symm.trans (Table.find_eq_some.mpr ⟨hr, rfl⟩)
        obtain ⟨e, he, her⟩ := Option.map_eq_some_iff.mp hrow
        have hce : e.clientId = c := by rw [← hc, ← her]; rfl
        refine hone r.pushid q c _ s _ w (List.mem_append_left _ (hce ▸ add_of_entry he)) ?_
        simp
      obtain ⟨t', ht', hself, hother⟩ := MySqlClientMap.add_spec s w hfree
      rw [MySqlClientMap.call, ht', Option.getD_some, MapCall.on]
      by_cases hq : q = p
      · subst hq; rw [if_pos rfl, hself]; rfl
      · rw [if_neg hq, hother p (Ne.symm hq), ih]
    | remove q =>
      rw [MySqlClientMap.call, MySqlClientMap.remove, MapCall.on]
      by_cases hq : q = p
      · subst hq; rw [if_pos rfl, Table.find_destroy_self]; rfl
      · rw [if_neg hq, Table.find_destroy_ne (Ne.symm hq), ih]

theorem shadowed_concat : Shadowed (history ++ [call]) ↔
    Shadowed history ∨ ∃ c s w, call = .add "hasOwnProperty" c s w := by
  simp only [Shadowed, List.mem_append, List.mem_singleton, eq_comm, exists_or]

namespace ObjectMap

variable {o : ObjectMap}

theorem hasClient_ok (h : "hasOwnProperty" ∉ o.clientmap.own) :
    o.hasClient p = .ok (decide (p ∈ o.clientmap.own)) := by
  rw [hasClient, JsDict.hasOwnProperty, if_neg h]

theorem getClient_ok (h : "hasOwnProperty" ∉ o.clientmap.own) :
    o.getClient p = .ok (o.clientmap.read ClientModel.fields [] p) := by
  rw [getClient, hasClient_ok h]; rfl

theorem hasClient_throws (h : "hasOwnProperty" ∈ o.clientmap.own) :
    o.hasClient p = .error .typeError := by
  rw [hasClient, JsDict.hasOwnProperty, if_pos h]

/-- A map that throws stays as it is. -/
theorem call_throws (h : "hasOwnProperty" ∈ o.clientmap.own) : o.call call = o := by
  cases call with
  | add q c s w => rw [ObjectMap.call, add, hasClient_throws h]; rfl
  | remove q => rw [ObjectMap.call, remove, hasClient_throws h]; rfl

theorem clientmap_add (h : "hasOwnProperty" ∉ o.clientmap.own) (q : PushId) (c : ClientId)
    (s : ServerId) (w : WorkerId) :
    (o.call (.add q c s w)).clientmap = o.clientmap.assign q ⟨q, c, s, w⟩ := by
  rw [ObjectMap.call, add, hasClient_ok h]; rfl

theorem clientmap_remove (h : "hasOwnProperty" ∉ o.clientmap.own) (q : PushId) :
    (o.call (.remove q)).clientmap = o.clientmap.erase q := by
  rw [ObjectMap.call, remove, hasClient_ok h]
  by_cases hq : q ∈ o.clientmap.own
  · simp [bind, Except.bind, pure, Except.pure, hq]
  · have hsame : o.clientmap.own.erase q = o.clientmap.own :=
      AList.ext (List.kerase_of_notMem_keys hq)
    simp [bind, Except.bind, pure, Except.pure, hq, JsDict.erase, hsame]

end ObjectMap

/-- Without such a client the method is the inherited one. -/
theorem unshadowed_of_lookup {o : ObjectMap} (hfree : ¬ Shadowed history)
    (h : o.clientmap.own.lookup "hasOwnProperty" = if "hasOwnProperty" = "__proto__" then none
      else (entry history "hasOwnProperty").map (Entry.toModel "hasOwnProperty")) :
    "hasOwnProperty" ∉ o.clientmap.own := by
  rw [← AList.lookup_eq_none, h, if_neg (by decide), Option.map_eq_none_iff]
  cases he : entry history "hasOwnProperty" with
  | none => rfl
  | some e => exact absurd ⟨_, _, _, add_of_entry he⟩ hfree

/-- The object has a property of its own for each entry, but for `__proto__`. -/
theorem lookup_object (hfree : ¬ Shadowed history) (p : PushId) :
    (history.foldl ObjectMap.call .create).clientmap.own.lookup p
      = if p = "__proto__" then none else (entry history p).map (Entry.toModel p) := by
  induction history using List.reverseRecOn generalizing p with
  | nil => simp [ObjectMap.create, JsDict.create, entry]
  | append_singleton history call ih =>
    rw [shadowed_concat, not_or] at hfree
    have ih := ih hfree.1
    have hok := unshadowed_of_lookup hfree.1 (ih "hasOwnProperty")
    rw [List.foldl_append, List.foldl_cons, List.foldl_nil, entry_concat]
    cases call with
    | add q c s w =>
      rw [ObjectMap.clientmap_add hok, MapCall.on, JsDict.assign]
      by_cases hproto : q = "__proto__"
      · subst hproto
        rw [if_pos rfl, ih]
        by_cases hp : p = "__proto__"
        · rw [if_pos hp, if_pos hp]
        · rw [if_neg hp, if_neg hp, if_neg (Ne.symm hp)]
      · rw [if_neg hproto]
        by_cases hq : q = p
        · subst hq; rw [AList.lookup_insert, if_neg hproto, if_pos rfl]; rfl
        · rw [AList.lookup_insert_ne (Ne.symm hq), ih, if_neg hq]
    | remove q =>
      rw [ObjectMap.clientmap_remove hok, MapCall.on, JsDict.erase]
      by_cases hq : q = p
      · subst hq; simp
      · rw [if_neg hq, AList.lookup_erase_ne (Ne.symm hq), ih]

/-- It throws iff a client was added under the name of the method. -/
theorem shadowed_iff : "hasOwnProperty" ∈ (history.foldl ObjectMap.call .create).clientmap.own ↔
    Shadowed history := by
  constructor
  · intro hown
    by_contra hfree
    exact unshadowed_of_lookup hfree (lookup_object hfree _) hown
  · induction history using List.reverseRecOn with
    | nil => simp [Shadowed]
    | append_singleton history call ih =>
      rw [shadowed_concat, List.foldl_append, List.foldl_cons, List.foldl_nil]
      intro h
      by_cases hbefore : Shadowed history
      · rw [ObjectMap.call_throws (ih hbefore)]
        exact ih hbefore
      · obtain ⟨c, s, w, rfl⟩ := h.resolve_left hbefore
        have hok := unshadowed_of_lookup hbefore (lookup_object hbefore _)
        rw [ObjectMap.clientmap_add hok, JsDict.assign_own]
        exact .inr ⟨rfl, by decide⟩

theorem proto_object (hfree : ¬ Shadowed history) :
    (history.foldl ObjectMap.call .create).clientmap.proto
      = (prototype history).map (Entry.toModel "__proto__") := by
  induction history using List.reverseRecOn with
  | nil => rfl
  | append_singleton history call ih =>
    rw [shadowed_concat, not_or] at hfree
    have ih := ih hfree.1
    have hok := shadowed_iff.not.mpr hfree.1
    rw [List.foldl_append, List.foldl_cons, List.foldl_nil, prototype_concat]
    cases call with
    | add q c s w =>
      rw [if_neg (show MapCall.add q c s w ≠ .remove "__proto__" by simp),
        ObjectMap.clientmap_add hok, MapCall.on, JsDict.assign]
      by_cases hq : q = "__proto__"
      · subst hq; rw [if_pos rfl, if_pos rfl]; rfl
      · rw [if_neg hq, if_neg hq, ih]
    | remove q =>
      rw [ObjectMap.clientmap_remove hok, JsDict.erase, ih]
      by_cases hq : q = "__proto__"
      · rw [if_pos (by rw [hq])]
      · rw [if_neg (by simpa using hq), MapCall.on, if_neg hq]

/-! ### Reading them -/

/-- Under a push id with an entry the object finds it. -/
theorem read_of_entry (hfree : ¬ Shadowed history) {e : Entry} (h : entry history p = some e) :
    (history.foldl ObjectMap.call .create).clientmap.read ClientModel.fields [] p
      = some (.own (e.toModel p)) := by
  rw [JsDict.read, lookup_object hfree, proto_object hfree]
  by_cases hp : p = "__proto__"
  · subst hp; rw [prototype_of_entry h]; rfl
  · rw [if_neg hp, h]; rfl

/-- Under one without an entry it finds what it inherits. -/
theorem read_isSome_of_no_entry (hfree : ¬ Shadowed history) (h : entry history p = none) :
    ((history.foldl ObjectMap.call .create).clientmap.read ClientModel.fields [] p).isSome = true ↔
      InheritedName history p := by
  have hown : p ∉ (history.foldl ObjectMap.call .create).clientmap.own := by
    rw [← AList.lookup_eq_none, lookup_object hfree, h]; simp
  rw [JsDict.read_isSome, proto_object hfree, InheritedName]
  simp [hown]

theorem mem_object (hfree : ¬ Shadowed history) :
    p ∈ (history.foldl ObjectMap.call .create).clientmap.own ↔
      (entry history p).isSome = true ∧ p ≠ "__proto__" := by
  rw [← AList.lookup_isSome, lookup_object hfree]
  by_cases hp : p = "__proto__" <;> simp [hp]

/-- Once the method is hidden, no call shows what MySQL shows. -/
theorem query_ne_of_shadowed (h : Shadowed history) (t : ClientTable) (q : MapQuery) :
    MySqlClientMap.query t q ≠ (history.foldl ObjectMap.call .create).query q := by
  have hthrows (p : PushId) := ObjectMap.hasClient_throws (p := p) (shadowed_iff.mpr h)
  cases q with
  | getClient p => simp [MySqlClientMap.query, ObjectMap.query, ObjectMap.getClient, hthrows, bind,
      Except.bind]
  | getAllClients => simp [MySqlClientMap.query, ObjectMap.query]
  | remove p => simp [MySqlClientMap.query, ObjectMap.query, ObjectMap.remove, hthrows, bind,
      Except.bind]
  | update p v => simp [MySqlClientMap.query, ObjectMap.query]

end

/-- For every history in which no client id occurs under two push ids, and every call after it: the
    two maps show the same iff no client was added as `hasOwnProperty` and the call looks up an entry,
    or a name that is not inherited, or removes an entry. -/
theorem backends_agree_iff (history : List MapCall) (hone : OneEach history) (q : MapQuery) :
    MySqlClientMap.query (history.foldl MySqlClientMap.call .empty) q
      = (history.foldl ObjectMap.call .create).query q ↔ q.Agreeing history := by
  by_cases hshadow : Shadowed history
  · refine iff_of_false (query_ne_of_shadowed hshadow _ q) ?_
    cases q <;> simp [MapQuery.Agreeing, hshadow]
  have hok := shadowed_iff.not.mpr hshadow
  cases q with
  | getClient p =>
    simp only [MySqlClientMap.query, MySqlClientMap.getClient, ObjectMap.query, find_mysql hone,
      MapQuery.Agreeing, ObjectMap.getClient_ok hok, Observed.client.injEq]
    cases he : entry history p with
    | some e => simp [read_of_entry hshadow he, Entry.toRow, Row.toClient, ObjectMap.toClient,
        MySqlClientMap.row, Entry.toModel, hshadow]
    | none =>
      rw [← read_isSome_of_no_entry hshadow he]
      cases (history.foldl ObjectMap.call .create).clientmap.read ClientModel.fields [] p <;>
        simp [hshadow]
  | getAllClients => simp [MySqlClientMap.query, ObjectMap.query, MapQuery.Agreeing]
  | remove p =>
    simp only [MySqlClientMap.query, ObjectMap.query, MapQuery.Agreeing, ← mem_object hshadow,
      ObjectMap.remove, ObjectMap.hasClient_ok hok]
    by_cases hp : p ∈ (history.foldl ObjectMap.call .create).clientmap.own <;>
      simp [bind, Except.bind, pure, Except.pure, hp, hshadow]
  | update p v => simp [MySqlClientMap.query, ObjectMap.query, MapQuery.Agreeing]

/-- A client that was added is found by both. -/
theorem backends_agree_added :
    OneEach [.add "puid" "clid" "host:8443" 1] ∧
      MySqlClientMap.query (MySqlClientMap.call .empty (.add "puid" "clid" "host:8443" 1))
          (.getClient "puid")
        = (ObjectMap.create.call (.add "puid" "clid" "host:8443" 1)).query (.getClient "puid") := by
  have hone : OneEach [.add "puid" "clid" "host:8443" 1] := by
    intro p p' c s s' w w' h h'
    simp only [List.mem_singleton, MapCall.add.injEq] at h h'
    rw [h.1, h'.1]
  exact ⟨hone, (backends_agree_iff [.add "puid" "clid" "host:8443" 1] hone (.getClient "puid")).mpr
    ⟨by simp [Shadowed], .inl rfl⟩⟩

/-- On the empty maps: a removal is an error in memory only, the list of all clients arrives in the
    place of the error, `update` throws, and `constructor` is a client. After an `add` under
    `hasOwnProperty` every lookup in memory throws. -/
theorem backends_disagree :
    MySqlClientMap.query .empty (.remove "puid") = .removed false "puid" ∧
      ObjectMap.create.query (.remove "puid") = .removed true "puid" ∧
      MySqlClientMap.query .empty .getAllClients = .clients none (some []) ∧
      ObjectMap.create.query .getAllClients = .clients (some []) none ∧
      (∀ v, MySqlClientMap.query .empty (.update "puid" v) = .updated false) ∧
      (∀ v, ObjectMap.create.query (.update "puid" v) = .throws (.message "not implemented")) ∧
      MySqlClientMap.query .empty (.getClient "constructor") = .client none ∧
      ObjectMap.create.query (.getClient "constructor") = .client (some ⟨none, none, none⟩) ∧
      MySqlClientMap.query (MySqlClientMap.call .empty (.add "hasOwnProperty" "clid" "host:8443" 1))
        (.getClient "puid") = .client none ∧
      (ObjectMap.create.call (.add "hasOwnProperty" "clid" "host:8443" 1)).query (.getClient "puid")
        = .throws .typeError :=
  ⟨rfl, rfl, rfl, rfl, fun _ => rfl, fun _ => rfl, rfl, rfl, rfl, rfl⟩

end Elephant.ClientMap
