import Mathlib.Algebra.GroupWithZero.Nat
import Mathlib.Algebra.Order.Ring.Unbundled.Rat
import Elephant.Schemes.Js

/-! JSON values as JavaScript sees them after `JSON.parse`.

    Reading a property of `null`, calling a method that an own property shadows, and turning an
    object whose own `toString` shadows the inherited one into a primitive throw a `TypeError`. How
    the engine writes and reads numbers is a parameter. -/

namespace Elephant.Schemes

/-- A parsed value. The members of an object are in text order; the last one of a name counts. -/
inductive Json where
  | null
  | bool (b : Bool)
  | num (n : JsNum)
  | str (s : String)
  | arr (elems : List Json)
  | obj (members : List (String × Json))

/-- What is thrown: a `TypeError`, or whatever a library function throws. -/
inductive Throw where
  | typeError
  | library
  deriving DecidableEq, Repr

/-- `Number::toString` and `StringToNumber`. -/
structure NumberText where
  toText : JsNum → String
  ofText : String → JsNum

/-- The number of UTF-16 code units. -/
def utf16Length (s : String) : ℕ := (s.toList.map fun c => if c.toNat < 0x10000 then 1 else 2).sum

def JsNum.gt : JsNum → ℚ → Bool
  | .nan, _ => false
  | .negInf, _ => false
  | .fin q, bound => decide (bound < q)
  | .posInf, _ => true

/-! ### Results that are not thrown -/

theorem isOk_map {ε α β : Type} (x : Except ε α) (f : α → β) : (x.map f).isOk = x.isOk := by
  cases x <;> rfl

theorem isOk_bind {ε α β : Type} {x : Except ε α} {f : α → Except ε β} :
    (x >>= f).isOk = true ↔ ∃ a, x = .ok a ∧ (f a).isOk = true := by
  cases x with
  | error e => simp [bind, Except.bind, Except.isOk, Except.toBool]
  | ok a => simp [bind, Except.bind]

theorem isOk_iff {ε α : Type} {x : Except ε α} : x.isOk = true ↔ ∃ a, x = .ok a := by
  cases x <;> simp [Except.isOk, Except.toBool]

namespace Json

/-- The own property of an object. -/
def own (members : List (String × Json)) (k : String) : Option Json := members.reverse.lookup k

/-- `Boolean(v)`; `none` is `undefined`. -/
def truthy : Option Json → Bool
  | none => false
  | some .null => false
  | some (.bool b) => b
  | some (.num n) => n ≠ .nan ∧ n ≠ .fin 0
  | some (.str s) => s ≠ ""
  | some (.arr _) => true
  | some (.obj _) => true

/-- `v.k`, for a name `k` that no prototype has. -/
def get (v : Json) (k : String) : Except Throw (Option Json) :=
  match v with
  | .null => .error .typeError
  | .bool _ => .ok none
  | .num _ => .ok none
  | .str s => .ok (if k = "length" then some (.num (.fin (utf16Length s))) else none)
  | .arr elems => .ok (if k = "length" then some (.num (.fin elems.length)) else none)
  | .obj members => .ok (own members k)

/-- `v.hasOwnProperty(k)`, for a name `k` that is neither an index nor `length`. -/
def hasOwnProperty (v : Json) (k : String) : Except Throw Bool :=
  match v with
  | .null => .error .typeError
  | .obj members =>
    if (own members "hasOwnProperty").isSome then .error .typeError else .ok (own members k).isSome
  | _ => .ok false

def isNull : Json → Bool
  | .null => true
  | _ => false

/-! ### Conversion to a primitive -/

mutual

/-- `String(v)`; an own `toString` is never a function. -/
def toText (N : NumberText) : Json → Except Throw String
  | .null => .ok "null"
  | .bool b => .ok (toString b)
  | .num n => .ok (N.toText n)
  | .str s => .ok s
  | .arr elems => (texts N elems).map (",".intercalate)
  | .obj members =>
    if (own members "toString").isSome then .error .typeError else .ok "[object Object]"

/-- The texts that `Array.prototype.join` puts together. -/
def texts (N : NumberText) : List Json → Except Throw (List String)
  | [] => .ok []
  | v :: rest => match toText N v with
    | .error e => .error e
    | .ok text => (texts N rest).map ((if v.isNull then "" else text) :: ·)

end

mutual

/-- No object in the value, through arrays only, has an own `toString`. -/
def convertible : Json → Bool
  | .arr elems => allConvertible elems
  | .obj members => (own members "toString").isNone
  | _ => true

def allConvertible : List Json → Bool
  | [] => true
  | v :: rest => convertible v && allConvertible rest

end

/-- `v > bound`. -/
def gt (N : NumberText) (v : Option Json) (bound : ℚ) : Except Throw Bool :=
  match v with
  | none => .ok false
  | some .null => .ok ((JsNum.fin 0).gt bound)
  | some (.bool b) => .ok ((JsNum.fin b.toNat).gt bound)
  | some (.num n) => .ok (n.gt bound)
  | some v => (toText N v).map fun text => (N.ofText text).gt bound

/-! ### When nothing is thrown -/

theorem get_isOk {v : Json} {k : String} : (get v k).isOk = true ↔ v ≠ .null := by
  cases v <;> simp [get, Except.isOk, Except.toBool]

mutual

theorem toText_isOk (N : NumberText) : ∀ v : Json, (toText N v).isOk = convertible v
  | .null => rfl
  | .bool _ => rfl
  | .num _ => rfl
  | .str _ => rfl
  | .arr elems => by rw [toText, isOk_map, texts_isOk N elems, convertible]
  | .obj members => by
      rw [toText, convertible]
      cases own members "toString" <;> rfl

theorem texts_isOk (N : NumberText) : ∀ elems : List Json,
    (texts N elems).isOk = allConvertible elems
  | [] => rfl
  | v :: rest => by
      have hv := toText_isOk N v
      rw [texts, allConvertible, ← hv]
      cases toText N v with
      | error e => rfl
      | ok text => rw [isOk_map, texts_isOk N rest]; rfl

end

/-- The comparison of a value that may have to be converted. -/
theorem gt_isOk (N : NumberText) (v : Option Json) (bound : ℚ) :
    (gt N v bound).isOk = true ↔ ∀ w ∈ v, convertible w = true := by
  cases v with
  | none => simp [gt, Except.isOk, Except.toBool]
  | some w =>
    have hw := toText_isOk N w
    cases w <;> simp_all [gt, isOk_map] <;> rfl

end Json

end Elephant.Schemes
