import Mathlib.Data.List.AList
import Mathlib.Data.Rat.Defs
import Elephant.Schemes.Text

/-! JavaScript dictionaries and numbers.

    The code under verification uses plain objects (`{}`) as string-keyed dictionaries. Writing and
    deleting act on own properties; reading (`o[k]`) and the `in` operator also see the names every
    object inherits from `Object.prototype`. Own properties are an association list with distinct
    keys, so the number of keys is its length. -/

namespace Elephant.Schemes

/-- The names a plain object inherits from `Object.prototype`. -/
def protoNames : List String :=
  ["constructor", "hasOwnProperty", "isPrototypeOf", "propertyIsEnumerable", "toLocaleString",
    "toString", "valueOf", "__defineGetter__", "__defineSetter__", "__lookupGetter__",
    "__lookupSetter__", "__proto__"]

/-- A plain object whose own properties hold values of type `α`. -/
abbrev PlainObject (α : Type*) := AList fun _ : String => α

/-- What a property read that is not `undefined` finds. -/
inductive Found (α : Type*) where
  | own (a : α)
  | inherited
  deriving DecidableEq, Repr

namespace PlainObject

variable {α : Type*}

/-- `o[k]`: the own property if there is one, else the inherited one; `none` is `undefined`. -/
def read (o : PlainObject α) (k : String) : Option (Found α) :=
  match o.lookup k with
  | some a => some (.own a)
  | none => if k ∈ protoNames then some .inherited else none

/-- `o[k] = a`. Written under `__proto__` the value becomes no own property; that it is the prototype
    from then on is not kept here (see `JsDict`). -/
def assign (o : PlainObject α) (k : String) (a : α) : PlainObject α :=
  if k = "__proto__" then o else o.insert k a

/-- `k in o`. -/
def isIn (o : PlainObject α) (k : String) : Bool := decide (k ∈ o) || decide (k ∈ protoNames)

theorem read_eq_own {o : PlainObject α} {k : String} {a : α} :
    o.read k = some (.own a) ↔ o.lookup k = some a := by
  unfold read
  cases h : o.lookup k with
  | some b => simp
  | none => by_cases hk : k ∈ protoNames <;> simp [hk]

theorem exists_read_own {o : PlainObject α} {k : String} : (∃ a, o.read k = some (.own a)) ↔ k ∈ o := by
  simp only [read_eq_own, ← Option.isSome_iff_exists, AList.lookup_isSome]

theorem read_eq_none {o : PlainObject α} {k : String} :
    o.read k = none ↔ k ∉ o ∧ k ∉ protoNames := by
  unfold read
  cases h : o.lookup k with
  | some a =>
    have hk : k ∈ o := AList.lookup_isSome.mp (by rw [h]; rfl)
    simp [hk]
  | none =>
    have hk : k ∉ o := AList.lookup_eq_none.mp h
    by_cases hproto : k ∈ protoNames <;> simp [hk, hproto]

theorem assign_eq_insert {k : String} (hk : k ≠ "__proto__") (o : PlainObject α) (a : α) :
    o.assign k a = o.insert k a := if_neg hk

theorem read_insert_self (o : PlainObject α) (k : String) (a : α) :
    read (o.insert k a) k = some (.own a) := by
  rw [read_eq_own, AList.lookup_insert]

theorem read_insert_ne {o : PlainObject α} {k k' : String} {a : α} (h : k ≠ k') :
    read (o.insert k' a) k = read o k := by
  rw [read, AList.lookup_insert_ne h, read]

theorem lookup_assign (o : PlainObject α) (k k' : String) (a : α) :
    (o.assign k a).lookup k'
      = if k' = k ∧ k ≠ "__proto__" then some a else o.lookup k' := by
  unfold assign
  by_cases hproto : k = "__proto__"
  · rw [if_pos hproto, if_neg fun h => h.2 hproto]
  · rw [if_neg hproto]
    by_cases hk : k' = k
    · rw [if_pos ⟨hk, hproto⟩, hk, AList.lookup_insert]
    · rw [if_neg fun h => hk h.1, AList.lookup_insert_ne hk]

theorem read_assign_self {k : String} (hk : k ≠ "__proto__") (o : PlainObject α) (a : α) :
    read (o.assign k a) k = some (.own a) := by
  rw [read_eq_own, lookup_assign, if_pos ⟨rfl, hk⟩]

theorem read_assign_ne {o : PlainObject α} {k k' : String} {a : α} (h : k ≠ k') :
    read (o.assign k' a) k = read o k := by
  rw [read, lookup_assign, if_neg fun h' => h h'.1, read]

/-- What is read as an own property after a write was written or was there before. -/
theorem read_of_assign {o : PlainObject α} {k k' : String} {a x : α}
    (h : read (o.assign k' a) k = some (.own x)) :
    (k = k' ∧ x = a) ∨ read o k = some (.own x) := by
  rw [read_eq_own, lookup_assign] at h
  split at h
  next hk => exact .inl ⟨hk.1, (Option.some.inj h).symm⟩
  next => exact .inr (read_eq_own.mpr h)

theorem mem_assign {o : PlainObject α} {k k' : String} {a : α} :
    k' ∈ o.assign k a ↔ (k' = k ∧ k ≠ "__proto__") ∨ k' ∈ o := by
  unfold assign
  split
  · rename_i hk; simp [hk]
  · rename_i hk; rw [AList.mem_insert, and_iff_left hk]

theorem read_erase_ne {o : PlainObject α} {k k' : String} (h : k ≠ k') :
    read (o.erase k') k = read o k := by
  rw [read, AList.lookup_erase_ne h, read]

/-- A deleted property is never read back as an own one. -/
theorem read_erase_self (o : PlainObject α) (k : String) (a : α) :
    read (o.erase k) k ≠ some (.own a) := by
  rw [Ne, read_eq_own, AList.lookup_erase]
  simp

/-- A name that is written over is not counted again. -/
theorem length_keys_insert (o : PlainObject α) (k : String) (a : α) :
    (o.insert k a).keys.length = if k ∈ o then o.keys.length else o.keys.length + 1 := by
  rw [AList.keys_insert, List.length_cons]
  split
  next h => exact List.length_erase_add_one h
  next h => rw [List.erase_of_not_mem h]

theorem length_keys_erase {o : PlainObject α} {k : String} (h : k ∈ o) :
    (o.erase k).keys.length + 1 = o.keys.length := by
  rw [AList.keys_erase]
  exact List.length_erase_add_one h

/-- An inherited name is short. -/
theorem notMem_protoNames_of_lt {k : String} (h : 20 < k.length) : k ∉ protoNames := by
  have hnames : protoNames.all (fun name => decide (name.length ≤ 20)) = true := by decide
  intro hk
  have hshort : k.length ≤ 20 := of_decide_eq_true (List.all_eq_true.mp hnames k hk)
  omega

/-- The name of a number is not inherited. -/
theorem toString_notMem_protoNames (n : ℕ) : toString n ∉ protoNames := by
  intro hmem
  have hletter : (protoNames.all fun w => w.toList.any fun c => !c.isDigit) = true := rfl
  obtain ⟨c, hc, hdigit⟩ := List.any_eq_true.mp (List.all_eq_true.mp hletter _ hmem)
  rw [isDigit_of_mem_toString hc] at hdigit
  simp at hdigit

theorem read_erase_toString (o : PlainObject α) (n : ℕ) :
    read (o.erase (toString n)) (toString n) = none := by
  rw [read, AList.lookup_erase]
  exact if_neg (toString_notMem_protoNames n)

/-! ### Objects in a family, such as one field of many objects -/

section Family

variable {κ : Type*} [DecidableEq κ] (f : κ → PlainObject α) (a b : κ) (k k' : String)

theorem read_update_assign_self (hk : k ≠ "__proto__") (x : α) :
    read (Function.update f a ((f a).assign k x) a) k = some (.own x) := by
  rw [Function.update_self, read_assign_self hk]

theorem read_update_assign_ne (x : α) (h : ¬ (b = a ∧ k' = k)) :
    read (Function.update f a ((f a).assign k x) b) k' = read (f b) k' := by
  by_cases hb : b = a
  · subst hb; rw [Function.update_self, read_assign_ne fun hk => h ⟨rfl, hk⟩]
  · rw [Function.update_of_ne hb]

/-- What is read after a write was written or was there before. -/
theorem read_of_update_assign {x y : α}
    (h : read (Function.update f a ((f a).assign k x) b) k' = some (.own y)) :
    (b = a ∧ k' = k ∧ y = x) ∨ read (f b) k' = some (.own y) := by
  by_cases hb : b = a
  · subst hb
    rw [Function.update_self] at h
    rcases read_of_assign h with ⟨hk, hy⟩ | hold
    · exact .inl ⟨rfl, hk, hy⟩
    · exact .inr hold
  · rw [Function.update_of_ne hb] at h
    exact .inr h

theorem read_update_erase_ne (h : ¬ (b = a ∧ k' = k)) :
    read (Function.update f a ((f a).erase k) b) k' = read (f b) k' := by
  by_cases hb : b = a
  · subst hb; rw [Function.update_self, read_erase_ne fun hk => h ⟨rfl, hk⟩]
  · rw [Function.update_of_ne hb]

/-- What is read after a delete was there before, elsewhere. -/
theorem read_of_update_erase {x : α}
    (h : read (Function.update f a ((f a).erase k) b) k' = some (.own x)) :
    ¬ (b = a ∧ k' = k) ∧ read (f b) k' = some (.own x) := by
  have hne : ¬ (b = a ∧ k' = k) := by
    rintro ⟨rfl, rfl⟩
    rw [Function.update_self] at h; exact read_erase_self _ _ _ h
  exact ⟨hne, read_update_erase_ne f a b k k' hne ▸ h⟩

end Family

end PlainObject

/-- A plain object that is written under names that come from outside. Writing `__proto__` makes no
    own property, it replaces the prototype, by the object `proto`. -/
structure JsDict (α : Type*) where
  own : PlainObject α
  proto : Option α

namespace JsDict

variable {α : Type*}

def create : JsDict α := ⟨∅, none⟩

/-- `o[k] = a`, for an object `a`. -/
def assign (o : JsDict α) (k : String) (a : α) : JsDict α :=
  if k = "__proto__" then { o with proto := some a } else { o with own := o.own.insert k a }

/-- `delete o[k]`, for an own property. -/
def erase (o : JsDict α) (k : String) : JsDict α := { o with own := o.own.erase k }

/-- `o.hasOwnProperty(k)`; `none` is a `TypeError`, for an own property shadows the method. -/
def hasOwnProperty (o : JsDict α) (k : String) : Option Bool :=
  if "hasOwnProperty" ∈ o.own then none else some (decide (k ∈ o.own))

/-- `o[k]`. Besides the names of `Object.prototype`, which may have come to have `shared` ones, the
    names that a replaced prototype has (`fields`) are inherited; `__proto__` reads the prototype. -/
def read (fields : α → List String) (shared : List String) (o : JsDict α) (k : String) :
    Option (Found α) :=
  match o.own.lookup k, o.proto with
  | some a, _ => some (.own a)
  | none, some a =>
    if k = "__proto__" then some (.own a)
    else if k ∈ protoNames ∨ k ∈ shared ∨ k ∈ fields a then some .inherited
    else none
  | none, none => if k ∈ protoNames ∨ k ∈ shared then some .inherited else none

variable {fields : α → List String} {shared : List String} {o : JsDict α} {k : String}

theorem read_isSome : (o.read fields shared k).isSome = true ↔
    k ∈ o.own ∨ k ∈ protoNames ∨ k ∈ shared ∨ ∃ a, o.proto = some a ∧ k ∈ fields a := by
  unfold read
  rw [← AList.lookup_isSome]
  cases hk : o.own.lookup k with
  | some a => simp
  | none =>
    cases hp : o.proto with
    | none => by_cases h : k ∈ protoNames ∨ k ∈ shared <;> simp_all
    | some a =>
      by_cases hproto : k = "__proto__"
      · simp [hproto, protoNames]
      · by_cases h : k ∈ protoNames ∨ k ∈ shared ∨ k ∈ fields a <;> simp_all

/-- Writing under a name makes it an own property, or, for `__proto__`, replaces the prototype. -/
theorem assign_own (o : JsDict α) (k k' : String) (a : α) :
    k' ∈ (o.assign k a).own ↔ k' ∈ o.own ∨ k' = k ∧ k' ≠ "__proto__" := by
  unfold assign
  split
  · rename_i hk; simp [hk]
  · rename_i hk
    have hk' : k' = k → k' ≠ "__proto__" := fun h => h ▸ hk
    rw [AList.mem_insert, or_comm, and_iff_left_of_imp hk']

theorem assign_proto (o : JsDict α) (k : String) (a : α) :
    (o.assign k a).proto.isSome = true ↔ o.proto.isSome = true ∨ k = "__proto__" := by
  unfold assign
  split <;> simp_all

end JsDict

/-- A JavaScript number; the finite ones are taken as exact rationals. -/
inductive JsNum where
  | nan
  | negInf
  | fin (q : ℚ)
  | posInf
  deriving DecidableEq, Repr

end Elephant.Schemes
