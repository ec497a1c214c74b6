import Mathlib.Data.List.Basic

/-! Base64, with a decoder that skips what is no digit.

    Three bytes are four digits of six bits:

        aaaaaaaa bbbbbbbb cccccccc   ◀──▶   aaaaaa aabbbb bbbbcc cccccc

    One or two bytes at the end are two or three digits and `=` up to the fourth. -/

namespace Elephant.Schemes.Base64

def digit (n : ℕ) : Char :=
  if n < 26 then Char.ofNat (n + 65)
  else if n < 52 then Char.ofNat (n - 26 + 97)
  else if n < 62 then Char.ofNat (n - 52 + 48)
  else if n = 62 then '+'
  else '/'

/-- The digits of the alphabet for URLs are read as well. -/
def value (c : Char) : Option ℕ :=
  if 'A' ≤ c ∧ c ≤ 'Z' then some (c.toNat - 65)
  else if 'a' ≤ c ∧ c ≤ 'z' then some (c.toNat - 97 + 26)
  else if '0' ≤ c ∧ c ≤ '9' then some (c.toNat - 48 + 52)
  else if c = '+' ∨ c = '-' then some 62
  else if c = '/' ∨ c = '_' then some 63
  else none

def encode : List UInt8 → List Char
  | a :: b :: c :: rest =>
    digit (a.toNat / 4) :: digit (a.toNat % 4 * 16 + b.toNat / 16) ::
      digit (b.toNat % 16 * 4 + c.toNat / 64) :: digit (c.toNat % 64) :: encode rest
  | [a, b] =>
    [digit (a.toNat / 4), digit (a.toNat % 4 * 16 + b.toNat / 16), digit (b.toNat % 16 * 4), '=']
  | [a] => [digit (a.toNat / 4), digit (a.toNat % 4 * 16), '=', '=']
  | [] => []

/-- The bytes of a sequence of digits; bits that do not fill a byte are dropped. -/
def bytes : List ℕ → List UInt8
  | p :: q :: r :: s :: rest =>
    UInt8.ofNat (p * 4 + q / 16) :: UInt8.ofNat (q % 16 * 16 + r / 4) ::
      UInt8.ofNat (r % 4 * 64 + s) :: bytes rest
  | [p, q, r] => [UInt8.ofNat (p * 4 + q / 16), UInt8.ofNat (q % 16 * 16 + r / 4)]
  | [p, q] => [UInt8.ofNat (p * 4 + q / 16)]
  | _ => []

def decode (text : List Char) : List UInt8 := bytes (text.filterMap value)

theorem value_digit : ∀ n < 64, value (digit n) = some n := by decide

theorem value_padding : value '=' = none := by decide

theorem digit_bounds : ∀ n < 64, 0x2B ≤ (digit n).toNat ∧ (digit n).toNat ≤ 0x7A := by decide

/-- The digit in front of others. -/
theorem filterMap_digit {n : ℕ} (h : n < 64) (text : List Char) :
    (digit n :: text).filterMap value = n :: text.filterMap value :=
  List.filterMap_cons_some (value_digit n h)

theorem ofNat_eq_of_toNat {n : ℕ} {a : UInt8} (h : n = a.toNat) : UInt8.ofNat n = a := by
  rw [h, UInt8.ofNat_toNat]

/-- By the groups of three bytes. -/
theorem decode_encode (bs : List UInt8) : decode (encode bs) = bs := by
  unfold decode
  induction bs using encode.induct with
  | case1 a b c rest ih =>
    have ha := a.toNat_lt
    have hb := b.toNat_lt
    have hc := c.toNat_lt
    rw [encode, filterMap_digit (by omega), filterMap_digit (by omega), filterMap_digit (by omega),
      filterMap_digit (by omega), bytes, ih, ofNat_eq_of_toNat (a := a) (by omega),
      ofNat_eq_of_toNat (a := b) (by omega), ofNat_eq_of_toNat (a := c) (by omega)]
  | case2 a b =>
    have ha := a.toNat_lt
    have hb := b.toNat_lt
    rw [encode, filterMap_digit (by omega), filterMap_digit (by omega), filterMap_digit (by omega),
      List.filterMap_cons_none value_padding, List.filterMap_nil, bytes,
      ofNat_eq_of_toNat (a := a) (by omega), ofNat_eq_of_toNat (a := b) (by omega)]
  | case3 a =>
    have ha := a.toNat_lt
    rw [encode, filterMap_digit (by omega), filterMap_digit (by omega),
      List.filterMap_cons_none value_padding, List.filterMap_cons_none value_padding,
      List.filterMap_nil, bytes, ofNat_eq_of_toNat (a := a) (by omega)]
  | case4 => rfl

/-- What holds of every digit and of the padding holds of the text. -/
theorem forall_mem_encode {P : Char → Prop} (hdigit : ∀ n < 64, P (digit n)) (hpadding : P '=')
    {bs : List UInt8} {x : Char} (hx : x ∈ encode bs) : P x := by
  induction bs using encode.induct with
  | case1 a b c rest ih =>
    have ha := a.toNat_lt
    have hb := b.toNat_lt
    have hc := c.toNat_lt
    rw [encode, List.mem_cons, List.mem_cons, List.mem_cons, List.mem_cons] at hx
    rcases hx with rfl | rfl | rfl | rfl | hx
    · exact hdigit _ (by omega)
    · exact hdigit _ (by omega)
    · exact hdigit _ (by omega)
    · exact hdigit _ (by omega)
    · exact ih hx
  | case2 a b =>
    have ha := a.toNat_lt
    have hb := b.toNat_lt
    simp only [encode, List.mem_cons, List.not_mem_nil, or_false] at hx
    rcases hx with rfl | rfl | rfl | rfl
    · exact hdigit _ (by omega)
    · exact hdigit _ (by omega)
    · exact hdigit _ (by omega)
    · exact hpadding
  | case3 a =>
    have ha := a.toNat_lt
    simp only [encode, List.mem_cons, List.not_mem_nil, or_false] at hx
    rcases hx with rfl | rfl | rfl | rfl
    · exact hdigit _ (by omega)
    · exact hdigit _ (by omega)
    · exact hpadding
    · exact hpadding
  | case4 => simp [encode] at hx

/-- The text is made of visible characters. -/
theorem bounds_of_mem_encode {bs : List UInt8} {x : Char} (hx : x ∈ encode bs) :
    0x2B ≤ x.toNat ∧ x.toNat ≤ 0x7A :=
  forall_mem_encode (P := fun x => 0x2B ≤ x.toNat ∧ x.toNat ≤ 0x7A) digit_bounds (by decide) hx

theorem length_encode (bs : List UInt8) : (encode bs).length = 4 * ((bs.length + 2) / 3) := by
  induction bs using encode.induct with
  | case1 a b c rest ih =>
    simp only [encode, List.length_cons, ih]
    omega
  | case2 a b => simp [encode]
  | case3 a => simp [encode]
  | case4 => rfl

theorem encode_ne_nil {bs : List UInt8} (h : bs ≠ []) : encode bs ≠ [] := by
  intro hnil
  have hdecode := decode_encode bs
  rw [hnil] at hdecode
  exact h hdecode.symm

/-! ### The alphabet for URLs -/

/-- `text.replace(/a/g, b)`. -/
def replace (a b : Char) (text : List Char) : List Char := text.map fun x => if x = a then b else x

def urlSafe (text : List Char) : List Char := replace '/' '_' (replace '+' '-' text)

def IsUrlSafe (c : Char) : Prop := c.isAlphanum = true ∨ c = '-' ∨ c = '_' ∨ c = '='

instance (c : Char) : Decidable (IsUrlSafe c) := inferInstanceAs (Decidable (_ ∨ _))

theorem IsUrlSafe.bounds {c : Char} (h : IsUrlSafe c) : 0x20 ≤ c.toNat ∧ c.toNat < 0x80 := by
  rcases h with h | rfl | rfl | rfl
  · -- the ranges of the capitals, the small letters and the digits
    replace h : (decide (c.val ≥ 'A'.val ∧ c.val ≤ 'Z'.val) ||
      decide (c.val ≥ 'a'.val) && decide (c.val ≤ 'z'.val) ||
        decide (c.val ≥ '0'.val) && decide (c.val ≤ '9'.val)) = true := h
    simp only [Bool.or_eq_true, Bool.and_eq_true, decide_eq_true_eq, ge_iff_le,
      UInt32.le_iff_toNat_le] at h
    have hA : 'A'.val.toNat = 65 := rfl
    have hZ : 'Z'.val.toNat = 90 := rfl
    have ha : 'a'.val.toNat = 97 := rfl
    have hz : 'z'.val.toNat = 122 := rfl
    have h0 : '0'.val.toNat = 48 := rfl
    have h9 : '9'.val.toNat = 57 := rfl
    unfold Char.toNat
    omega
  · decide
  · decide
  · decide

theorem filterMap_replace {a b : Char} (h : value b = value a) (text : List Char) :
    (replace a b text).filterMap value = text.filterMap value := by
  induction text with
  | nil => rfl
  | cons x text ih =>
    have hx : value (if x = a then b else x) = value x := by
      split
      next hxa => rw [h, hxa]
      next => rfl
    rw [replace, List.map_cons, List.filterMap_cons, List.filterMap_cons, hx, ← replace, ih]

/-- The decoder reads the digits for URLs as the others. -/
theorem decode_urlSafe (text : List Char) : decode (urlSafe text) = decode text := by
  rw [decode, urlSafe, filterMap_replace (by decide), filterMap_replace (by decide), ← decode]

theorem urlSafe_encode_injective : Function.Injective fun bs => urlSafe (encode bs) := by
  intro bs bs' h
  have hdecode := congrArg decode h
  simp only [decode_urlSafe, decode_encode] at hdecode
  exact hdecode

theorem length_urlSafe (text : List Char) : (urlSafe text).length = text.length := by
  simp [urlSafe, replace]

theorem isUrlSafe_of_mem {bs : List UInt8} {x : Char} (hx : x ∈ urlSafe (encode bs)) :
    IsUrlSafe x := by
  simp only [urlSafe, replace, List.map_map, List.mem_map] at hx
  obtain ⟨y, hy, rfl⟩ := hx
  exact forall_mem_encode (P := fun y => IsUrlSafe (if (if y = '+' then '-' else y) = '/' then '_'
    else if y = '+' then '-' else y)) (by decide) (by decide) hy

end Elephant.Schemes.Base64
