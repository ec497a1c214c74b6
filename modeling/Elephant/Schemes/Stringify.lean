import Mathlib.Data.List.Sort
import Elephant.Schemes.Json
import Elephant.Schemes.Utf8

/-! The text of a JSON value, after `JSON.stringify`, and its length in two measures.

    An object has every name once, where the name first stood and with its last value; names that are
    array indices come first, in their order as numbers. A string is quoted:

        " \ and the control characters   ──▶  an escape of two or six characters
        any other character              ──▶  itself

    The length of a text in UTF-16 code units is at most its length in UTF-8 bytes, and equal iff the
    text is ASCII; the text of a value is ASCII iff all strings in it are. -/

namespace Elephant.Schemes

/-! ### Text -/

def IsAscii (text : List Char) : Prop := ∀ c ∈ text, c.toNat < 0x80

instance (text : List Char) : Decidable (IsAscii text) :=
  decidable_of_iff (text.all (fun c => decide (c.toNat < 0x80)) = true) (by simp [IsAscii])

@[simp] theorem isAscii_nil : IsAscii [] := by intro c hc; simp at hc

@[simp] theorem isAscii_cons {c : Char} {text : List Char} :
    IsAscii (c :: text) ↔ c.toNat < 0x80 ∧ IsAscii text := List.forall_mem_cons

@[simp] theorem isAscii_append {a b : List Char} : IsAscii (a ++ b) ↔ IsAscii a ∧ IsAscii b :=
  List.forall_mem_append

theorem utf16Length_append (a b : List Char) : utf16Length (String.ofList (a ++ b))
    = utf16Length (String.ofList a) + utf16Length (String.ofList b) := by
  simp [utf16Length]

theorem utf16Length_singleton (c : Char) :
    utf16Length (String.ofList [c]) = if c.toNat < 0x10000 then 1 else 2 := by
  simp [utf16Length]

theorem isAscii_replicate {c : Char} (h : c.toNat < 0x80) (n : ℕ) : IsAscii (List.replicate n c) := by
  intro x hx
  rw [List.eq_of_mem_replicate hx]
  exact h

theorem utf16Length_of_isAscii {text : List Char} (h : IsAscii text) :
    utf16Length (String.ofList text) = text.length := by
  induction text with
  | nil => rfl
  | cons c text ih =>
    obtain ⟨hc, htext⟩ := isAscii_cons.mp h
    rw [← List.singleton_append, utf16Length_append, utf16Length_singleton, ih htext,
      if_pos (by omega), List.length_append, List.length_singleton]

theorem length_encodeChar (c : Char) : (String.utf8EncodeChar c).length =
    if c.toNat < 0x80 then 1 else if c.toNat < 0x800 then 2 else if c.toNat < 0x10000 then 3 else 4 := by
  unfold String.utf8EncodeChar Char.toNat
  dsimp only
  split_ifs <;> first | rfl | omega

/-- A text has at least as many bytes as code units, and as many only if it is ASCII. -/
theorem utf16Length_encode (text : List Char) :
    utf16Length (String.ofList text) ≤ (Utf8.encode text).length ∧
      (utf16Length (String.ofList text) = (Utf8.encode text).length ↔ IsAscii text) := by
  induction text with
  | nil => exact ⟨Nat.le_refl _, by simp [utf16Length, Utf8.encode]⟩
  | cons c text ih =>
    have hbytes : (Utf8.encode (c :: text)).length
        = (String.utf8EncodeChar c).length + (Utf8.encode text).length := List.length_append
    obtain ⟨hle, heq⟩ := ih
    rw [← List.singleton_append, utf16Length_append, utf16Length_singleton, List.singleton_append,
      hbytes, length_encodeChar, isAscii_cons, ← heq]
    split_ifs <;> omega

/-! ### Quoting -/

/-- One character of a quoted string. -/
def escape (c : Char) : List Char :=
  match c with
  | '"' => ['\\', '"']
  | '\\' => ['\\', '\\']
  | '\x08' => ['\\', 'b']
  | '\x0c' => ['\\', 'f']
  | '\n' => ['\\', 'n']
  | '\r' => ['\\', 'r']
  | '\t' => ['\\', 't']
  | c =>
    if c.toNat < 0x20 then
      ['\\', 'u', '0', '0', Nat.digitChar (c.toNat / 16), Nat.digitChar (c.toNat % 16)]
    else [c]

def quote (s : String) : List Char := '"' :: (s.toList.flatMap escape ++ ['"'])

/-- A character that stands for itself in a quoted string. -/
structure Plain (c : Char) : Prop where
  mark : c ≠ '"'
  backslash : c ≠ '\\'
  visible : 0x20 ≤ c.toNat

instance : DecidablePred Plain := fun c =>
  decidable_of_iff (c ≠ '"' ∧ c ≠ '\\' ∧ 0x20 ≤ c.toNat)
    ⟨fun h => ⟨h.1, h.2.1, h.2.2⟩, fun h => ⟨h.mark, h.backslash, h.visible⟩⟩

theorem plain_of_all {text : List Char} (h : text.all (fun c => decide (Plain c)) = true) :
    ∀ c ∈ text, Plain c :=
  fun c hc => of_decide_eq_true (List.all_eq_true.mp h c hc)

theorem escape_plain {c : Char} (h : Plain c) : escape c = [c] := by
  have hlow := h.visible
  unfold escape
  split
  case h_1 => exact absurd rfl h.mark
  case h_2 => exact absurd rfl h.backslash
  case h_8 => rw [if_neg (by omega)]
  all_goals exact absurd hlow (by decide)

theorem quote_plain {s : String} (h : ∀ c ∈ s.toList, Plain c) :
    quote s = '"' :: (s.toList ++ ['"']) := by
  have hescape : s.toList.flatMap escape = s.toList := by
    rw [List.flatMap_congr fun c hc => escape_plain (h c hc)]
    exact List.flatMap_singleton' _
  rw [quote, hescape]

/-- No character of a quoted string is a NUL. -/
theorem nul_notMem_quote (s : String) : '\x00' ∉ quote s := by
  have hdigit : ∀ n < 16, Nat.digitChar n ≠ '\x00' := by decide
  have hescape : ∀ c, '\x00' ∉ escape c := by
    intro c
    unfold escape
    split
    case h_8 =>
      split_ifs with hcontrol
      · simp only [List.mem_cons, List.not_mem_nil, or_false, not_or]
        exact ⟨by decide, by decide, by decide, by decide, (hdigit _ (by omega)).symm,
          (hdigit _ (by omega)).symm⟩
      · rintro hmem
        obtain rfl := List.mem_singleton.mp hmem
        exact absurd hcontrol (by decide)
    all_goals decide
  simp only [quote, List.mem_cons, List.mem_append, List.mem_flatMap, not_or]
  refine ⟨by decide, ?_, by decide, List.not_mem_nil⟩
  rintro ⟨c, -, hmem⟩
  exact hescape c hmem

/-- Either the character is ASCII and so are the at most six that take its place, or it stands for
    itself. -/
theorem escape_cases (c : Char) :
    (c.toNat < 0x80 ∧ IsAscii (escape c) ∧ (escape c).length ≤ 6) ∨
      (0x80 ≤ c.toNat ∧ escape c = [c]) := by
  unfold escape
  split
  case h_8 =>
    split_ifs with hcontrol
    · refine Or.inl ⟨by omega, ?_, Nat.le_refl 6⟩
      have hdigit : ∀ n < 16, (Nat.digitChar n).toNat < 0x80 := by decide
      simp only [isAscii_cons, isAscii_nil, and_true]
      exact ⟨by decide, by decide, by decide, by decide, hdigit _ (by omega), hdigit _ (by omega)⟩
    · by_cases hc : c.toNat < 0x80
      · exact Or.inl ⟨hc, by simpa using hc, by simp⟩
      · exact Or.inr ⟨by omega, rfl⟩
  all_goals exact Or.inl (by decide)

theorem isAscii_escape (c : Char) : IsAscii (escape c) ↔ c.toNat < 0x80 := by
  rcases escape_cases c with ⟨hc, hascii, -⟩ | ⟨hc, h⟩
  · exact ⟨fun _ => hc, fun _ => hascii⟩
  · rw [h]; simp

theorem isAscii_quote (s : String) : IsAscii (quote s) ↔ IsAscii s.toList := by
  have hflat : ∀ text : List Char, IsAscii (text.flatMap escape) ↔ IsAscii text := by
    intro text
    induction text with
    | nil => simp
    | cons c text ih => rw [List.flatMap_cons, isAscii_append, isAscii_escape, isAscii_cons, ih]
  have hmark : '"'.toNat < 0x80 := by decide
  simp only [quote, isAscii_cons, isAscii_append, hflat, hmark, isAscii_nil, and_true, true_and]

theorem utf16Length_escape (c : Char) :
    utf16Length (String.ofList (escape c)) ≤ 6 * utf16Length (String.ofList [c]) := by
  have hone : 1 ≤ utf16Length (String.ofList [c]) := by
    rw [utf16Length_singleton]; split <;> omega
  rcases escape_cases c with ⟨-, hascii, hlen⟩ | ⟨-, h⟩
  · rw [utf16Length_of_isAscii hascii]; omega
  · rw [h]; omega

/-- A quoted string is at most six times as long, with its two marks. -/
theorem utf16Length_quote (s : String) :
    utf16Length (String.ofList (quote s)) ≤ 6 * utf16Length s + 2 := by
  have hflat : ∀ text : List Char, utf16Length (String.ofList (text.flatMap escape))
      ≤ 6 * utf16Length (String.ofList text) := by
    intro text
    induction text with
    | nil => exact Nat.zero_le _
    | cons c text ih =>
      have hc := utf16Length_escape c
      rw [List.flatMap_cons, utf16Length_append, ← List.singleton_append, utf16Length_append]
      omega
  have hquote := hflat s.toList
  have hmark : utf16Length (String.ofList ['"']) = 1 := by decide
  rw [String.ofList_toList] at hquote
  rw [quote, ← List.singleton_append, utf16Length_append, utf16Length_append]
  omega

/-! ### Values -/

/-- The number that an array index stands for: digits without a leading zero, below 2³² - 1. -/
def arrayIndex (name : String) : Option ℕ :=
  match name.toList with
  | [] => none
  | ['0'] => some 0
  | '0' :: _ => none
  | digits =>
    let n := Nat.ofDigitChars 10 digits 0
    if digits.all Char.isDigit ∧ n < 2 ^ 32 - 1 then some n else none

/-- The names of an object, from those of its members in text order. -/
def propertyNames (names : List String) : List String :=
  let distinct := names.eraseDups
  (distinct.filter fun name => (arrayIndex name).isSome).insertionSort
      (fun a b => (arrayIndex a).getD 0 ≤ (arrayIndex b).getD 0)
    ++ distinct.filter fun name => (arrayIndex name).isNone

theorem mem_propertyNames {name : String} {names : List String} :
    name ∈ propertyNames names ↔ name ∈ names := by
  unfold propertyNames
  cases h : arrayIndex name <;> simp [h]

example : propertyNames ["b", "10", "a", "9", "b"] = ["9", "10", "b", "a"] := by decide

/-- The properties of an object whose members have these texts. -/
def properties (members : List (String × List Char)) : List (List Char) :=
  (propertyNames (members.map Prod.fst)).filterMap fun name =>
    (members.reverse.lookup name).map fun text => quote name ++ ':' :: text

namespace Json

/-- A number that is not finite has the text of `null`. -/
def numberText (N : NumberText) : JsNum → List Char
  | .fin q => (N.toText (.fin q)).toList
  | _ => "null".toList

mutual

def write (N : NumberText) : Json → List Char
  | .null => "null".toList
  | .bool b => (toString b).toList
  | .num n => numberText N n
  | .str s => quote s
  | .arr elems => '[' :: ([','].intercalate (writeElems N elems) ++ [']'])
  | .obj members => '\x7b' :: ([','].intercalate (properties (writeMembers N members)) ++ ['\x7d'])

def writeElems (N : NumberText) : List Json → List (List Char)
  | [] => []
  | v :: rest => write N v :: writeElems N rest

def writeMembers (N : NumberText) : List (String × Json) → List (String × List Char)
  | [] => []
  | (name, v) :: rest => (name, write N v) :: writeMembers N rest

end

/-- `JSON.stringify v`. -/
def stringify (N : NumberText) (v : Json) : String := String.ofList (write N v)

mutual

/-- All strings, names and numbers that are written are ASCII; a member that a later one of the same
    name replaces is not written. -/
def Ascii (N : NumberText) : Json → Prop
  | .null => True
  | .bool _ => True
  | .num n => IsAscii (numberText N n)
  | .str s => IsAscii s.toList
  | .arr elems => AsciiElems N elems
  | .obj members => AsciiMembers N members

def AsciiElems (N : NumberText) : List Json → Prop
  | [] => True
  | v :: rest => Ascii N v ∧ AsciiElems N rest

def AsciiMembers (N : NumberText) : List (String × Json) → Prop
  | [] => True
  | (name, v) :: rest =>
    IsAscii name.toList ∧ (name ∈ rest.map Prod.fst ∨ Ascii N v) ∧ AsciiMembers N rest

end

end Json

/-! ### The text of a value is ASCII iff the strings in it are -/

theorem isAscii_intercalate (texts : List (List Char)) :
    IsAscii ([','].intercalate texts) ↔ ∀ text ∈ texts, IsAscii text := by
  induction texts with
  | nil => simp
  | cons text texts ih =>
    cases texts with
    | nil => simp
    | cons text' texts =>
      have hcomma : IsAscii [','] := by decide
      rw [List.intercalate_cons_cons, isAscii_append, isAscii_append, ih,
        List.forall_mem_cons (a := text)]
      simp only [hcomma, and_true]

/-- The last member of a name counts. -/
theorem lookup_reverse_cons {α : Type} (name k : String) (v : α) (rest : List (String × α)) :
    ((name, v) :: rest).reverse.lookup k
      = (rest.reverse.lookup k).or (if k = name then some v else none) := by
  rw [List.reverse_cons, List.lookup_append]
  by_cases h : k = name
  · simp [h]
  · have hbeq : (k == name) = false := by simpa using h
    simp [h, List.lookup_cons, hbeq]

theorem lookup_reverse_eq_none {α : Type} {k : String} {members : List (String × α)} :
    members.reverse.lookup k = none ↔ k ∉ members.map Prod.fst := by
  rw [List.lookup_eq_none_iff]
  constructor
  · rintro h hk
    obtain ⟨p, hp, rfl⟩ := List.mem_map.mp hk
    simpa using h p (List.mem_reverse.mpr hp)
  · rintro h p hp
    have hne : k ≠ p.1 := fun heq => h (heq ▸ List.mem_map_of_mem (List.mem_reverse.mp hp))
    simpa using hne

/-- Every name is written with its last text. -/
theorem isAscii_properties {members : List (String × List Char)} :
    (∀ t ∈ properties members, IsAscii t) ↔ ∀ name ∈ members.map Prod.fst,
      IsAscii name.toList ∧ ∀ text ∈ members.reverse.lookup name, IsAscii text := by
  have hcolon : ':'.toNat < 0x80 := by decide
  constructor
  · intro h name hname
    obtain ⟨text, htext⟩ := Option.ne_none_iff_exists'.mp
      (mt lookup_reverse_eq_none.mp (not_not.mpr hname))
    have ht := h (quote name ++ ':' :: text)
      (List.mem_filterMap.mpr ⟨name, mem_propertyNames.mpr hname, by rw [htext]; rfl⟩)
    rw [isAscii_append, isAscii_quote, isAscii_cons] at ht
    refine ⟨ht.1, fun text' htext' => ?_⟩
    obtain rfl := Option.some.inj (htext.symm.trans htext')
    exact ht.2.2
  · intro h t ht
    obtain ⟨name, hname, hwritten⟩ := List.mem_filterMap.mp ht
    obtain ⟨text, htext, rfl⟩ := Option.map_eq_some_iff.mp hwritten
    obtain ⟨hascii, hlast⟩ := h name (mem_propertyNames.mp hname)
    rw [isAscii_append, isAscii_quote, isAscii_cons]
    exact ⟨hascii, hcolon, hlast text htext⟩

/-- One member more. -/
theorem isAscii_properties_cons (name : String) (text : List Char)
    (rest : List (String × List Char)) :
    (∀ t ∈ properties ((name, text) :: rest), IsAscii t) ↔
      IsAscii name.toList ∧ (name ∈ rest.map Prod.fst ∨ IsAscii text) ∧
        ∀ t ∈ properties rest, IsAscii t := by
  have hother : ∀ k ∈ rest.map Prod.fst,
      ((name, text) :: rest).reverse.lookup k = rest.reverse.lookup k := by
    intro k hk
    obtain ⟨v, hv⟩ := Option.ne_none_iff_exists'.mp (mt lookup_reverse_eq_none.mp (not_not.mpr hk))
    rw [lookup_reverse_cons, hv, Option.some_or]
  have hself : name ∉ rest.map Prod.fst →
      ((name, text) :: rest).reverse.lookup name = some text := by
    intro hk
    rw [lookup_reverse_cons, lookup_reverse_eq_none.mpr hk, Option.none_or, if_pos rfl]
  rw [isAscii_properties, isAscii_properties, List.map_cons, List.forall_mem_cons]
  constructor
  · rintro ⟨⟨hname, htext⟩, hrest⟩
    refine ⟨hname, or_iff_not_imp_left.mpr fun hk => htext text (hself hk), fun k hk => ?_⟩
    rw [← hother k hk]
    exact hrest k hk
  · rintro ⟨hname, htext, hrest⟩
    refine ⟨⟨hname, ?_⟩, fun k hk => by rw [hother k hk]; exact hrest k hk⟩
    by_cases hk : name ∈ rest.map Prod.fst
    · rw [hother name hk]; exact (hrest name hk).2
    · rw [hself hk]
      rintro _ ⟨⟩
      exact htext.resolve_left hk

namespace Json

theorem map_fst_writeMembers (N : NumberText) :
    ∀ members : List (String × Json), (writeMembers N members).map Prod.fst = members.map Prod.fst
  | [] => rfl
  | (name, v) :: rest => by
      rw [writeMembers, List.map_cons, List.map_cons, map_fst_writeMembers N rest]

mutual

theorem isAscii_write (N : NumberText) : ∀ v : Json, IsAscii (write N v) ↔ Ascii N v
  | .null => by simp only [write, Ascii]; decide
  | .bool b => by cases b <;> (simp only [write, Ascii]; decide)
  | .num n => by rw [write, Ascii]
  | .str s => by rw [write, Ascii, isAscii_quote]
  | .arr elems => by
      have hopen : '['.toNat < 0x80 := by decide
      have hclose : IsAscii [']'] := by decide
      rw [write, Ascii, isAscii_cons, isAscii_append, isAscii_intercalate, isAscii_writeElems N elems]
      simp only [hopen, hclose, true_and, and_true]
  | .obj members => by
      have hopen : '\x7b'.toNat < 0x80 := by decide
      have hclose : IsAscii ['\x7d'] := by decide
      rw [write, Ascii, isAscii_cons, isAscii_append, isAscii_intercalate,
        isAscii_writeMembers N members]
      simp only [hopen, hclose, true_and, and_true]

theorem isAscii_writeElems (N : NumberText) : ∀ elems : List Json,
    (∀ text ∈ writeElems N elems, IsAscii text) ↔ AsciiElems N elems
  | [] => by simp [writeElems, AsciiElems]
  | v :: rest => by
      rw [writeElems, AsciiElems, List.forall_mem_cons, isAscii_write N v, isAscii_writeElems N rest]

theorem isAscii_writeMembers (N : NumberText) : ∀ members : List (String × Json),
    (∀ text ∈ properties (writeMembers N members), IsAscii text) ↔ AsciiMembers N members
  | [] => by simp [writeMembers, AsciiMembers, isAscii_properties]
  | (name, v) :: rest => by
      rw [writeMembers, AsciiMembers, isAscii_properties_cons, map_fst_writeMembers,
        isAscii_write N v, isAscii_writeMembers N rest]

end

end Json

end Elephant.Schemes
