import Elephant.Schemes.Stringify

/-! The texts of JSON, and the values they stand for.

    A text is read from the left; every reader returns what it has read and the text behind it. The
    nesting is bounded by a number that the length of the text makes large enough. Escaped surrogates
    are left out: a text that has them is not read. -/

namespace Elephant.Schemes.JsonText

def isSpace (c : Char) : Bool := c = ' ' || c = '\t' || c = '\n' || c = '\r'

def skip (text : List Char) : List Char := text.dropWhile isSpace

/-! ### Strings -/

def hexValue (c : Char) : Option ℕ :=
  if '0' ≤ c ∧ c ≤ '9' then some (c.toNat - 48)
  else if 'a' ≤ c ∧ c ≤ 'f' then some (c.toNat - 87)
  else if 'A' ≤ c ∧ c ≤ 'F' then some (c.toNat - 55)
  else none

/-- The character of four hexadecimal digits. -/
def codeUnit (a b c d : Char) : Option Char := do
  let a ← hexValue a
  let b ← hexValue b
  let c ← hexValue c
  let d ← hexValue d
  let unit := ((a * 16 + b) * 16 + c) * 16 + d
  if 0xD800 ≤ unit ∧ unit < 0xE000 then none else return Char.ofNat unit

def unescape : Char → Option Char
  | '"' => some '"'
  | '\\' => some '\\'
  | '/' => some '/'
  | 'b' => some '\x08'
  | 'f' => some '\x0c'
  | 'n' => some '\n'
  | 'r' => some '\r'
  | 't' => some '\t'
  | _ => none

/-- What is behind the opening mark of a string. -/
def literal : List Char → Option (List Char × List Char)
  | [] => none
  | '"' :: rest => some ([], rest)
  | '\\' :: 'u' :: a :: b :: c :: d :: rest =>
    (codeUnit a b c d).bind fun x => (literal rest).map fun p => (x :: p.1, p.2)
  | '\\' :: c :: rest => (unescape c).bind fun x => (literal rest).map fun p => (x :: p.1, p.2)
  | c :: rest =>
    if c = '\\' ∨ c.toNat < 0x20 then none else (literal rest).map fun p => (c :: p.1, p.2)

/-! ### Numbers -/

def digits (text : List Char) : Option (List Char × List Char) :=
  if (text.span Char.isDigit).1 = [] then none else some (text.span Char.isDigit)

def sign : List Char → List Char × List Char
  | '-' :: rest => (['-'], rest)
  | text => ([], text)

def integer : List Char → Option (List Char × List Char)
  | '0' :: rest => some (['0'], rest)
  | text => digits text

def fraction : List Char → Option (List Char × List Char)
  | '.' :: rest => (digits rest).map fun p => ('.' :: p.1, p.2)
  | text => some ([], text)

def exponentSign : List Char → List Char × List Char
  | '+' :: rest => (['+'], rest)
  | text => sign text

def exponentDigits (mark : Char) (text : List Char) : Option (List Char × List Char) :=
  (digits (exponentSign text).2).map fun p => (mark :: ((exponentSign text).1 ++ p.1), p.2)

def exponent : List Char → Option (List Char × List Char)
  | 'e' :: rest => exponentDigits 'e' rest
  | 'E' :: rest => exponentDigits 'E' rest
  | text => some ([], text)

def number (N : NumberText) (text : List Char) : Option (Json × List Char) := do
  let i ← integer (sign text).2
  let f ← fraction i.2
  let e ← exponent f.2
  return (.num (N.ofText (String.ofList ((sign text).1 ++ i.1 ++ f.1 ++ e.1))), e.2)

/-! ### Values -/

mutual

def value (N : NumberText) : ℕ → List Char → Option (Json × List Char)
  | 0, _ => none
  | fuel + 1, text =>
    match skip text with
    | 'n' :: 'u' :: 'l' :: 'l' :: rest => some (.null, rest)
    | 't' :: 'r' :: 'u' :: 'e' :: rest => some (.bool true, rest)
    | 'f' :: 'a' :: 'l' :: 's' :: 'e' :: rest => some (.bool false, rest)
    | '"' :: rest => (literal rest).map fun p => (.str (String.ofList p.1), p.2)
    | '[' :: rest =>
      match skip rest with
      | ']' :: rest => some (.arr [], rest)
      | _ => (elements N fuel rest).map fun p => (.arr p.1, p.2)
    | '\x7b' :: rest =>
      match skip rest with
      | '\x7d' :: rest => some (.obj [], rest)
      | _ => (members N fuel rest).map fun p => (.obj p.1, p.2)
    | text => number N text

def elements (N : NumberText) : ℕ → List Char → Option (List Json × List Char)
  | 0, _ => none
  | fuel + 1, text => (value N fuel text).bind fun v =>
    match skip v.2 with
    | ',' :: rest => (elements N fuel rest).map fun p => (v.1 :: p.1, p.2)
    | ']' :: rest => some ([v.1], rest)
    | _ => none

def members (N : NumberText) : ℕ → List Char → Option (List (String × Json) × List Char)
  | 0, _ => none
  | fuel + 1, text =>
    match skip text with
    | '"' :: rest => (literal rest).bind fun name =>
      match skip name.2 with
      | ':' :: rest => (value N fuel rest).bind fun v =>
        match skip v.2 with
        | ',' :: rest =>
          (members N fuel rest).map fun p => ((String.ofList name.1, v.1) :: p.1, p.2)
        | '\x7d' :: rest => some ([(String.ofList name.1, v.1)], rest)
        | _ => none
      | _ => none
    | _ => none

end

/-- The value of a whole text. -/
def parse (N : NumberText) (text : List Char) : Option Json :=
  (value N (2 * text.length + 2) text).bind fun p => if skip p.2 = [] then some p.1 else none

/-! ### Quoted strings are read back -/

theorem codeUnit_control : ∀ n < 0x20,
    codeUnit '0' '0' (Nat.digitChar (n / 16)) (Nat.digitChar (n % 16)) = some (Char.ofNat n) := by
  decide

theorem literal_plain {c : Char} (h : Plain c) (rest : List Char) :
    literal (c :: rest) = (literal rest).map fun p => (c :: p.1, p.2) := by
  obtain ⟨hmark, hback, hc⟩ := h
  rw [literal.eq_def]
  split <;> simp_all

theorem literal_escape (c : Char) (rest : List Char) :
    literal (escape c ++ rest) = (literal rest).map fun p => (c :: p.1, p.2) := by
  unfold escape
  split
  case h_8 hmark hback _ _ _ _ _ =>
    split
    next hcontrol =>
      have hunit := codeUnit_control c.toNat hcontrol
      rw [Char.ofNat_toNat] at hunit
      show literal ('\\' :: 'u' :: '0' :: '0' :: _ :: _ :: rest) = _
      rw [literal, hunit]
      rfl
    next hplain => exact literal_plain ⟨hmark, hback, by omega⟩ rest
  all_goals simp [literal, unescape]

theorem literal_quoted (s : List Char) (rest : List Char) :
    literal (s.flatMap escape ++ '"' :: rest) = some (s, rest) := by
  induction s with
  | nil => rfl
  | cons c s ih =>
    rw [List.flatMap_cons, List.append_assoc, literal_escape, ih]
    rfl

theorem skip_quote (s : String) (rest : List Char) :
    skip (quote s ++ rest) = '"' :: (s.toList.flatMap escape ++ '"' :: rest) := by
  simp [quote, skip, isSpace]

theorem value_quote (N : NumberText) (fuel : ℕ) (s : String) (rest : List Char) :
    value N (fuel + 1) (quote s ++ rest) = some (.str s, rest) := by
  rw [value, skip_quote]
  simp [literal_quoted]

section

variable (N : NumberText) (fuel : ℕ) (name s : String) (rest : List Char)

/-- A member whose value is a string, up to what is behind it. -/
theorem members_quote : members N (fuel + 2) (quote name ++ ':' :: (quote s ++ rest)) =
    match skip rest with
    | ',' :: rest => (members N (fuel + 1) rest).map fun p => ((name, .str s) :: p.1, p.2)
    | '\x7d' :: rest => some ([(name, .str s)], rest)
    | _ => none := by
  rw [members, skip_quote]
  simp only [literal_quoted, Option.bind_some, String.ofList_toList]
  have hcolon : skip (':' :: (quote s ++ rest)) = ':' :: (quote s ++ rest) := rfl
  rw [hcolon]
  simp only [value_quote, Option.bind_some]

theorem members_comma : members N (fuel + 2) (quote name ++ ':' :: (quote s ++ ',' :: rest))
    = (members N (fuel + 1) rest).map fun p => ((name, .str s) :: p.1, p.2) := by
  rw [members_quote]
  rfl

theorem members_end : members N (fuel + 2) (quote name ++ ':' :: (quote s ++ '\x7d' :: rest))
    = some ([(name, .str s)], rest) := by
  rw [members_quote]
  rfl

end

/-- The texts of members that are strings. -/
def memberTexts : List (String × String) → List Char
  | [] => []
  | [m] => quote m.1 ++ ':' :: quote m.2
  | m :: m' :: ms => quote m.1 ++ ':' :: (quote m.2 ++ ',' :: memberTexts (m' :: ms))

/-- By the members, each of which takes one of the bound. -/
theorem members_memberTexts (N : NumberText) (m : String × String) (ms : List (String × String))
    (fuel : ℕ) (h : ms.length + 1 < fuel) (rest : List Char) :
    members N fuel (memberTexts (m :: ms) ++ '\x7d' :: rest)
      = some ((m :: ms).map fun m => (m.1, .str m.2), rest) := by
  induction ms generalizing m fuel with
  | nil =>
    obtain ⟨fuel, rfl⟩ : ∃ k, fuel = k + 2 := ⟨fuel - 2, by simp at h; omega⟩
    rw [memberTexts, List.append_assoc, List.cons_append, members_end]
    rfl
  | cons m' ms ih =>
    obtain ⟨fuel, rfl⟩ : ∃ k, fuel = k + 2 := ⟨fuel - 2, by simp at h; omega⟩
    rw [memberTexts, List.append_assoc, List.cons_append, List.append_assoc, List.cons_append,
      members_comma, ih m' (fuel + 1) (by simp at h; omega)]
    rfl

theorem length_memberTexts (ms : List (String × String)) : ms.length ≤ (memberTexts ms).length := by
  induction ms using memberTexts.induct with
  | case1 => exact Nat.le_refl 0
  | case2 m => simp [memberTexts]; omega
  | case3 m m' ms ih =>
    rw [memberTexts, List.length_cons]
    simp only [List.length_append, List.length_cons] at ih ⊢
    omega

/-- An object of strings is read back. -/
theorem parse_strings (N : NumberText) (m : String × String) (ms : List (String × String)) :
    parse N ('\x7b' :: (memberTexts (m :: ms) ++ ['\x7d']))
      = some (.obj ((m :: ms).map fun m => (m.1, .str m.2))) := by
  have hfuel := length_memberTexts (m :: ms)
  rw [List.length_cons] at hfuel
  have hmembers := members_memberTexts N m ms
    (2 * ('\x7b' :: (memberTexts (m :: ms) ++ ['\x7d'])).length + 1) (by simp; omega) []
  have hopen : ∀ t, skip ('\x7b' :: t) = '\x7b' :: t := fun t => rfl
  have hquote : ∃ t, memberTexts (m :: ms) ++ ['\x7d'] = '"' :: t := by
    cases ms with
    | nil => exact ⟨_, rfl⟩
    | cons m' ms => exact ⟨_, rfl⟩
  obtain ⟨t, ht⟩ := hquote
  have hskip : skip (memberTexts (m :: ms) ++ ['\x7d']) = '"' :: t := by
    rw [ht]
    rfl
  rw [parse, value, hopen]
  simp only [hskip, hmembers, Option.map_some]
  rfl

example : (parse ⟨fun _ => "", fun _ => .nan⟩
    " [-2.5e3, \x7b\"k\\u0041\" : null\x7d, true] ".toList).isSome = true := by decide +kernel

end Elephant.Schemes.JsonText
