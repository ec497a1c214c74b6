import Mathlib.Data.List.Basic

/-! UTF-8, with a decoder that replaces what is not UTF-8.

    The decoder takes one byte at a time. Between two characters a first byte says how many
    continuation bytes are owed and within which bounds the next one has to be. A byte out of bounds
    ends the sequence, which becomes one U+FFFD, and is itself taken as a first byte:

        00..7F ──▶ the character
        C2..DF ──▶ 80..BF
        E0..EF ──▶ 80..BF (E0: from A0, ED: up to 9F) ──▶ 80..BF
        F0..F4 ──▶ 80..BF (F0: from 90, F4: up to 8F) ──▶ 80..BF ──▶ 80..BF
        other first bytes, and an end of input inside a sequence ──▶ U+FFFD

    Two results: decoding undoes encoding, and decoding a list of chunks one by one gives the text of
    the whole iff no chunk ends inside a sequence that the next byte would have continued. -/

namespace Elephant.Schemes.Utf8

def replacement : Char := '�'

/-- Inside a sequence: the bounds of the next byte, how many more are owed after it, and the bits so
    far. The bounds are those of continuation bytes or narrower. -/
structure Pending where
  lo : ℕ
  hi : ℕ
  more : ℕ
  bits : ℕ
  lo_ge : 0x80 ≤ lo
  hi_le : hi ≤ 0xBF

namespace Pending

def accepts (p : Pending) (b : UInt8) : Bool := decide (p.lo ≤ b.toNat ∧ b.toNat ≤ p.hi)

/-- The byte continues the sequence, and may complete it. -/
def next (p : Pending) (b : UInt8) : List Char × Option Pending :=
  let bits := p.bits * 64 + (b.toNat - 0x80)
  match p.more with
  | 0 => ([Char.ofNat bits], none)
  | more + 1 => ([], some ⟨0x80, 0xBF, more, bits, Nat.le_refl _, Nat.le_refl _⟩)

end Pending

/-- A first byte. -/
def first (b : UInt8) : List Char × Option Pending :=
  let n := b.toNat
  if n ≤ 0x7F then ([Char.ofNat n], none)
  else if 0xC2 ≤ n ∧ n ≤ 0xDF then ([], some ⟨0x80, 0xBF, 0, n - 0xC0, Nat.le_refl _, Nat.le_refl _⟩)
  else if 0xE0 ≤ n ∧ n ≤ 0xEF then
    ([], some ⟨if n = 0xE0 then 0xA0 else 0x80, if n = 0xED then 0x9F else 0xBF, 1, n - 0xE0,
      by split <;> omega, by split <;> omega⟩)
  else if 0xF0 ≤ n ∧ n ≤ 0xF4 then
    ([], some ⟨if n = 0xF0 then 0x90 else 0x80, if n = 0xF4 then 0x8F else 0xBF, 2, n - 0xF0,
      by split <;> omega, by split <;> omega⟩)
  else ([replacement], none)

def step : Option Pending → UInt8 → List Char × Option Pending
  | none, b => first b
  | some p, b => if p.accepts b then p.next b else (replacement :: (first b).1, (first b).2)

/-- What the end of the input makes of a state. -/
def flush : Option Pending → List Char
  | none => []
  | some _ => [replacement]

def decodeFrom : Option Pending → List UInt8 → List Char
  | st, [] => flush st
  | st, b :: bs => (step st b).1 ++ decodeFrom (step st b).2 bs

def decode (bytes : List UInt8) : List Char := decodeFrom none bytes

def encode (text : List Char) : List UInt8 := text.flatMap String.utf8EncodeChar

/-! ### Decoding undoes encoding -/

/-- A continuation byte is no first byte. -/
theorem first_continuation {b : UInt8} (hlo : 0x80 ≤ b.toNat) (hhi : b.toNat ≤ 0xBF) :
    first b = ([replacement], none) := by
  have h1 : ¬ b.toNat ≤ 0x7F := by omega
  have h2 : ¬ (0xC2 ≤ b.toNat ∧ b.toNat ≤ 0xDF) := by omega
  have h3 : ¬ (0xE0 ≤ b.toNat ∧ b.toNat ≤ 0xEF) := by omega
  have h4 : ¬ (0xF0 ≤ b.toNat ∧ b.toNat ≤ 0xF4) := by omega
  simp only [first, h1, h2, h3, h4, if_false]

theorem decodeFrom_accepts {p : Pending} {b : UInt8} (h : p.accepts b = true) (bs : List UInt8) :
    decodeFrom (some p) (b :: bs) = (p.next b).1 ++ decodeFrom (p.next b).2 bs := by
  simp [decodeFrom, step, h]

section

variable {b : UInt8} {p : Pending} (bs : List UInt8)

/-- A first byte that owes continuation bytes. -/
theorem decode_first (h : first b = ([], some p)) : decode (b :: bs) = decodeFrom (some p) bs := by
  rw [decode, decodeFrom, step, h]
  rfl

/-- The last continuation byte. -/
theorem decodeFrom_last (hp : p.more = 0) (hb : p.accepts b = true) :
    decodeFrom (some p) (b :: bs) = Char.ofNat (p.bits * 64 + (b.toNat - 0x80)) :: decode bs := by
  rw [decodeFrom_accepts hb, Pending.next, hp]
  rfl

/-- One that others follow. -/
theorem decodeFrom_more {n : ℕ} (hp : p.more = n + 1) (hb : p.accepts b = true) :
    decodeFrom (some p) (b :: bs) = decodeFrom (some ⟨0x80, 0xBF, n,
      p.bits * 64 + (b.toNat - 0x80), Nat.le_refl _, Nat.le_refl _⟩) bs := by
  rw [decodeFrom_accepts hb, Pending.next, hp]
  rfl

end

/-! The sequences of each length, by the bits under the marks of their bytes. -/

section

variable {b₀ b₁ b₂ b₃ : UInt8} {x y z w : ℕ} (bs : List UInt8)

theorem decode_one (h₀ : b₀.toNat = x) (hx : x < 0x80) :
    decode (b₀ :: bs) = Char.ofNat x :: decode bs := by
  have hfirst : first b₀ = ([Char.ofNat x], none) := by
    simp only [first, h₀]
    rw [if_pos (by omega)]
  rw [decode, decodeFrom, step, hfirst]
  rfl

theorem decode_two (h₀ : b₀.toNat = x + 0xC0) (h₁ : b₁.toNat = y + 0x80) (hx : 2 ≤ x ∧ x < 32)
    (hy : y < 64) : decode (b₀ :: b₁ :: bs) = Char.ofNat (x * 64 + y) :: decode bs := by
  have hfirst : first b₀ = ([], some ⟨0x80, 0xBF, 0, x, Nat.le_refl _, Nat.le_refl _⟩) := by
    simp only [first, h₀, Nat.add_sub_cancel]
    rw [if_neg (by omega), if_pos (by omega)]
  have hb₁ : 0x80 ≤ b₁.toNat ∧ b₁.toNat ≤ 0xBF := by omega
  rw [decode_first _ hfirst, decodeFrom_last _ rfl (decide_eq_true hb₁), h₁, Nat.add_sub_cancel]

/-- The second byte keeps out what fits into two bytes, and the surrogates. -/
theorem decode_three (h₀ : b₀.toNat = x + 0xE0) (h₁ : b₁.toNat = y + 0x80) (h₂ : b₂.toNat = z + 0x80)
    (hx : x < 16) (hy : y < 64) (hz : z < 64) (hshort : x = 0 → 32 ≤ y) (hsurrogate : x = 13 → y < 32) :
    decode (b₀ :: b₁ :: b₂ :: bs) = Char.ofNat ((x * 64 + y) * 64 + z) :: decode bs := by
  have hb₁ : (if x + 0xE0 = 0xE0 then 0xA0 else 0x80) ≤ b₁.toNat ∧
      b₁.toNat ≤ (if x + 0xE0 = 0xED then 0x9F else 0xBF) := by
    constructor <;> split <;> omega
  have hb₂ : 0x80 ≤ b₂.toNat ∧ b₂.toNat ≤ 0xBF := by omega
  have hfirst : first b₀ = ([], some ⟨if x + 0xE0 = 0xE0 then 0xA0 else 0x80,
      if x + 0xE0 = 0xED then 0x9F else 0xBF, 1, x, by split <;> omega, by split <;> omega⟩) := by
    simp only [first, h₀, Nat.add_sub_cancel]
    rw [if_neg (by omega), if_neg (by omega), if_pos (by omega)]
  rw [decode_first _ hfirst, decodeFrom_more _ rfl (decide_eq_true hb₁),
    decodeFrom_last _ rfl (decide_eq_true hb₂), h₁, h₂, Nat.add_sub_cancel, Nat.add_sub_cancel]

/-- The second byte keeps out what fits into three bytes, and what is too large. -/
theorem decode_four (h₀ : b₀.toNat = x + 0xF0) (h₁ : b₁.toNat = y + 0x80) (h₂ : b₂.toNat = z + 0x80)
    (h₃ : b₃.toNat = w + 0x80) (hx : x ≤ 4) (hy : y < 64) (hz : z < 64) (hw : w < 64)
    (hshort : x = 0 → 16 ≤ y) (hlarge : x = 4 → y < 16) :
    decode (b₀ :: b₁ :: b₂ :: b₃ :: bs)
      = Char.ofNat (((x * 64 + y) * 64 + z) * 64 + w) :: decode bs := by
  have hb₁ : (if x + 0xF0 = 0xF0 then 0x90 else 0x80) ≤ b₁.toNat ∧
      b₁.toNat ≤ (if x + 0xF0 = 0xF4 then 0x8F else 0xBF) := by
    constructor <;> split <;> omega
  have hb₂ : 0x80 ≤ b₂.toNat ∧ b₂.toNat ≤ 0xBF := by omega
  have hb₃ : 0x80 ≤ b₃.toNat ∧ b₃.toNat ≤ 0xBF := by omega
  have hfirst : first b₀ = ([], some ⟨if x + 0xF0 = 0xF0 then 0x90 else 0x80,
      if x + 0xF0 = 0xF4 then 0x8F else 0xBF, 2, x, by split <;> omega, by split <;> omega⟩) := by
    simp only [first, h₀, Nat.add_sub_cancel]
    rw [if_neg (by omega), if_neg (by omega), if_neg (by omega), if_pos (by omega)]
  rw [decode_first _ hfirst, decodeFrom_more _ rfl (decide_eq_true hb₁),
    decodeFrom_more _ rfl (decide_eq_true hb₂), decodeFrom_last _ rfl (decide_eq_true hb₃), h₁, h₂, h₃,
    Nat.add_sub_cancel, Nat.add_sub_cancel, Nat.add_sub_cancel]

end

theorem toNat_ofNat_of_lt {n : ℕ} (h : n < 256) : (UInt8.ofNat n).toNat = n := by
  rw [UInt8.toNat_ofNat', Nat.mod_eq_of_lt h]

theorem decode_encodeChar (c : Char) (bs : List UInt8) :
    decode (String.utf8EncodeChar c ++ bs) = c :: decode bs := by
  have hof : ∀ n, n = c.toNat → Char.ofNat n = c := by rintro n rfl; exact Char.ofNat_toNat c
  have hvalid : c.val.toNat < 0xD800 ∨ 0xDFFF < c.val.toNat ∧ c.val.toNat < 0x110000 := c.valid
  unfold String.utf8EncodeChar
  unfold Char.toNat at hof
  generalize c.val.toNat = v at *
  dsimp only
  split_ifs with h1 h2 h3 <;> simp only [List.cons_append, List.nil_append]
  · rw [decode_one _ (toNat_ofNat_of_lt (by omega)) (by omega), hof _ rfl]
  · rw [decode_two _ (toNat_ofNat_of_lt (by omega)) (toNat_ofNat_of_lt (by omega)) (by omega) (by omega),
      hof _ (by omega)]
  · rw [decode_three _ (toNat_ofNat_of_lt (by omega)) (toNat_ofNat_of_lt (by omega))
      (toNat_ofNat_of_lt (by omega)) (by omega) (by omega) (by omega) (by omega) (by omega),
      hof _ (by omega)]
  · rw [decode_four _ (toNat_ofNat_of_lt (by omega)) (toNat_ofNat_of_lt (by omega))
      (toNat_ofNat_of_lt (by omega)) (toNat_ofNat_of_lt (by omega)) (by omega) (by omega) (by omega)
      (by omega) (by omega) (by omega), hof _ (by omega)]

theorem decode_encode (text : List Char) : decode (encode text) = text := by
  induction text with
  | nil => rfl
  | cons c text ih =>
    have hcons : encode (c :: text) = String.utf8EncodeChar c ++ encode text := rfl
    rw [hcons, decode_encodeChar, ih]

/-! ### Bytes below 80 stand for themselves -/

theorem toNat_of_mem_encodeChar {c : Char} {b : UInt8} (h : b ∈ String.utf8EncodeChar c)
    (hb : b.toNat < 0x80) : c.toNat = b.toNat := by
  have hvalid : c.val.toNat < 0xD800 ∨ 0xDFFF < c.val.toNat ∧ c.val.toNat < 0x110000 := c.valid
  unfold String.utf8EncodeChar at h
  unfold Char.toNat
  generalize c.val.toNat = v at *
  dsimp only at h
  split_ifs at h with h1 h2 h3 <;> simp only [List.mem_cons, List.not_mem_nil, or_false] at h
  · rw [h, toNat_ofNat_of_lt (by omega)]
  · rcases h with rfl | rfl <;> rw [toNat_ofNat_of_lt (by omega)] at hb <;> omega
  · rcases h with rfl | rfl | rfl <;> rw [toNat_ofNat_of_lt (by omega)] at hb <;> omega
  · rcases h with rfl | rfl | rfl | rfl <;> rw [toNat_ofNat_of_lt (by omega)] at hb <;> omega

theorem exists_of_mem_encode {text : List Char} {b : UInt8} (h : b ∈ encode text)
    (hb : b.toNat < 0x80) : ∃ c ∈ text, c.toNat = b.toNat := by
  obtain ⟨c, hc, hmem⟩ := List.mem_flatMap.mp h
  exact ⟨c, hc, toNat_of_mem_encodeChar hmem hb⟩

theorem encode_append (text text' : List Char) : encode (text ++ text') = encode text ++ encode text' :=
  List.flatMap_append

/-! ### Decoding in chunks -/

/-- The state after some bytes. -/
def after (st : Option Pending) (bytes : List UInt8) : Option Pending :=
  bytes.foldl (fun st b => (step st b).2) st

/-- The first chunk ends inside a sequence, and the next byte continues it. -/
def splits (a b : List UInt8) : Bool :=
  match after none a, b with
  | some p, x :: _ => p.accepts x
  | _, _ => false

/-- No boundary is inside a sequence. -/
def aligned : List (List UInt8) → Bool
  | [] => true
  | chunk :: chunks => !splits chunk chunks.flatten && aligned chunks

/-- What was decoded before a boundary does not depend on what comes after it. -/
theorem decodeFrom_append (st : Option Pending) (a b : List UInt8) :
    ∃ out, decodeFrom st (a ++ b) = out ++ decodeFrom (after st a) b ∧
      decodeFrom st a = out ++ flush (after st a) := by
  induction a generalizing st with
  | nil => exact ⟨[], rfl, rfl⟩
  | cons x a ih =>
    obtain ⟨out, hab, ha⟩ := ih (step st x).2
    refine ⟨(step st x).1 ++ out, ?_, ?_⟩
    · rw [List.cons_append, decodeFrom, hab, List.append_assoc]; rfl
    · rw [decodeFrom, ha, List.append_assoc]; rfl

/-- A byte that does not continue the sequence starts afresh. -/
theorem decodeFrom_refuses {p : Pending} {b : UInt8} (h : p.accepts b = false) (bs : List UInt8) :
    decodeFrom (some p) (b :: bs) = flush (some p) ++ decode (b :: bs) := by
  simp [decodeFrom, decode, step, h, flush]

/-- Of a sequence one character is left, now or later. -/
theorem length_next (p : Pending) (b : UInt8) :
    (p.next b).1.length + (flush (p.next b).2).length = 1 := by
  unfold Pending.next
  split <;> rfl

/-- A byte that continues a sequence is a replacement of its own without it. -/
theorem decode_continuation {p : Pending} {b : UInt8} (h : p.accepts b = true) (bs : List UInt8) :
    decode (b :: bs) = replacement :: decode bs := by
  have hb := of_decide_eq_true h
  have hlo := p.lo_ge
  have hhi := p.hi_le
  rw [decode, decodeFrom, step, first_continuation (by omega) (by omega)]
  rfl

/-- Starting inside a sequence gives at most one character more. -/
theorem length_decodeFrom_le (st : Option Pending) (bs : List UInt8) :
    (decodeFrom st bs).length ≤ (flush st).length + (decode bs).length := by
  induction bs generalizing st with
  | nil => exact Nat.le_add_right _ _
  | cons b bs ih =>
    cases st with
    | none => exact Nat.le_add_left _ _
    | some p =>
      cases h : p.accepts b with
      | true =>
        have hnext := length_next p b
        have hrest := ih (p.next b).2
        rw [decodeFrom_accepts h, decode_continuation h, List.length_append, List.length_cons]
        omega
      | false => exact Nat.le_of_eq (by rw [decodeFrom_refuses h, List.length_append])

/-- And fewer if the first byte continues it. -/
theorem length_decodeFrom_lt {p : Pending} {b : UInt8} (h : p.accepts b = true) (bs : List UInt8) :
    (decodeFrom (some p) (b :: bs)).length
      < (flush (some p)).length + (decode (b :: bs)).length := by
  have hnext := length_next p b
  have hrest := length_decodeFrom_le (p.next b).2 bs
  have hflush : (flush (some p)).length = 1 := rfl
  rw [decodeFrom_accepts h, decode_continuation h, List.length_append, List.length_cons]
  omega

/-- One boundary. -/
theorem decode_append (a b : List UInt8) (h : splits a b = false) :
    decode (a ++ b) = decode a ++ decode b := by
  obtain ⟨out, hab, ha⟩ := decodeFrom_append none a b
  have hflush : decodeFrom (after none a) b = flush (after none a) ++ decode b := by
    cases hst : after none a with
    | none => rfl
    | some p =>
      cases b with
      | nil => rfl
      | cons x b =>
        refine decodeFrom_refuses ?_ b
        simpa only [splits, hst] using h
  rw [decode, hab, decode, ha, hflush, List.append_assoc]

theorem length_decode_append_lt {a b : List UInt8} (h : splits a b = true) :
    (decode (a ++ b)).length < (decode a).length + (decode b).length := by
  obtain ⟨out, hab, ha⟩ := decodeFrom_append none a b
  rw [decode, hab, decode, ha, List.length_append, List.length_append]
  cases hst : after none a with
  | none => simp [splits, hst] at h
  | some p =>
    cases b with
    | nil => simp [splits] at h
    | cons x b =>
      have hlt := length_decodeFrom_lt (p := p) (b := x) (by simpa only [splits, hst] using h) b
      omega

/-- Cutting a text never shortens it. -/
theorem length_decode_flatten_le (chunks : List (List UInt8)) :
    (decode chunks.flatten).length ≤ (chunks.flatMap decode).length := by
  induction chunks with
  | nil => exact Nat.le_refl _
  | cons chunk chunks ih =>
    rw [List.flatten_cons, List.flatMap_cons, List.length_append]
    cases h : splits chunk chunks.flatten with
    | false => rw [decode_append _ _ h, List.length_append]; omega
    | true =>
      have hlt := length_decode_append_lt h
      omega

/-- Chunk by chunk the text is the one of the whole iff no boundary is inside a sequence. -/
theorem flatMap_decode_iff (chunks : List (List UInt8)) :
    chunks.flatMap decode = decode chunks.flatten ↔ aligned chunks = true := by
  induction chunks with
  | nil => exact ⟨fun _ => rfl, fun _ => rfl⟩
  | cons chunk chunks ih =>
    rw [List.flatten_cons, List.flatMap_cons, aligned]
    cases h : splits chunk chunks.flatten with
    | false => rw [decode_append _ _ h, List.append_cancel_left_eq, ih]; simp
    | true =>
      have hlt := length_decode_append_lt h
      have hle := length_decode_flatten_le chunks
      refine ⟨fun heq => ?_, fun h => by simp at h⟩
      have hlen := congrArg List.length heq
      rw [List.length_append] at hlen
      omega

/-- A text that is cut between its characters. -/
theorem aligned_encode (texts : List (List Char)) : aligned (texts.map encode) = true := by
  have hflat : (texts.map encode).flatten = encode texts.flatten := by
    induction texts with
    | nil => rfl
    | cons text texts ih =>
      simp only [List.map_cons, List.flatten_cons, ih, encode, List.flatMap_append]
  rw [← flatMap_decode_iff, hflat, decode_encode, List.flatMap_map, List.flatMap_def]
  simp [decode_encode]

end Elephant.Schemes.Utf8
