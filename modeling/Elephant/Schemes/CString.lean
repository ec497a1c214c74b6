import Elephant.Schemes.Text

/-! Strings in C.

    Memory is seen from an address to the end of the object that it points into; a string ends at its
    first NUL. An array of characters has a fixed size. What C leaves undefined stops the program: a
    string without an end, a write behind the end of an array, and the use of the pointer of a search
    that found nothing.

        array of n    s ──────── 0 ? ? ? ?        strcat s'        s ──────── s' ──── 0 ?
                                                  more than n ─▶   outOfBounds -/

namespace Elephant.Schemes.C

inductive Stop where
  | exit
  | threadExit
  | nullDereference
  | outOfBounds
  deriving DecidableEq, Repr

/-- From an address to the end of its object. -/
abbrev Memory := List UInt8

/-- The bytes before the first NUL. -/
def cstr : Memory → Option (List UInt8)
  | [] => none
  | b :: rest => if b = 0 then some [] else (cstr rest).map (b :: ·)

def readString (m : Memory) : Except Stop (List UInt8) := (cstr m).elim (.error .outOfBounds) .ok

/-- Where the needle begins; `none` is `NULL`. -/
def strstr (m : Memory) (needle : List UInt8) : Except Stop (Option ℕ) :=
  (readString m).map (search needle)

/-- The use of a pointer. -/
def dereference (p : Option ℕ) : Except Stop ℕ := p.elim (.error .nullDereference) .ok

/-- The `n` bytes that `strncpy` writes. -/
def copied : ℕ → Memory → Except Stop (List UInt8)
  | 0, _ => .ok []
  | _ + 1, [] => .error .outOfBounds
  | n + 1, b :: rest =>
    if b = 0 then .ok (List.replicate (n + 1) 0) else (copied n rest).map (b :: ·)

structure CharArray (n : ℕ) where
  bytes : List UInt8
  size : bytes.length = n

namespace CharArray

variable {n : ℕ}

/-- `memset(a, 0, sizeof(a))`. -/
def zero (n : ℕ) : CharArray n := ⟨List.replicate n 0, List.length_replicate⟩

theorem length_stored (a : CharArray n) {i : ℕ} {bs : List UInt8} (h : i + bs.length ≤ n) :
    (a.bytes.take i ++ bs ++ a.bytes.drop (i + bs.length)).length = n := by
  have hsize := a.size
  simp only [List.length_append, List.length_take, List.length_drop]
  omega

def store (a : CharArray n) (i : ℕ) (bs : List UInt8) : Except Stop (CharArray n) :=
  if h : i + bs.length ≤ n then
    .ok ⟨a.bytes.take i ++ bs ++ a.bytes.drop (i + bs.length), a.length_stored h⟩
  else .error .outOfBounds

def str (a : CharArray n) : Except Stop (List UInt8) := readString a.bytes

/-- `strcpy(a + i, s)` and `sprintf(a + i, ..)`. -/
def strcpy (a : CharArray n) (i : ℕ) (s : List UInt8) : Except Stop (CharArray n) :=
  a.store i (s ++ [0])

/-- `snprintf(a, size, "%s", s)`. -/
def snprintf (a : CharArray n) (size : ℕ) (s : List UInt8) : Except Stop (CharArray n) :=
  if size = 0 then .ok a else a.strcpy 0 (s.take (size - 1))

def strcat (a : CharArray n) (s : List UInt8) : Except Stop (CharArray n) :=
  a.str.bind fun t => a.strcpy t.length s

def strncpy (a : CharArray n) (src : Memory) (len : ℕ) : Except Stop (CharArray n) :=
  (copied len src).bind fun bs => a.store 0 bs

/-- The array has the string `s`. -/
def Holds (a : CharArray n) (s : List UInt8) : Prop := cstr a.bytes = some s

instance (a : CharArray n) (s : List UInt8) : Decidable (a.Holds s) :=
  inferInstanceAs (Decidable (_ = _))

end CharArray

/-! ### Strings -/

section

variable {m : Memory} {s t : List UInt8}

theorem cstr_append (h : 0 ∉ s) (rest : List UInt8) : cstr (s ++ 0 :: rest) = some s := by
  induction s with
  | nil => rfl
  | cons b s ih =>
    have hb : b ≠ 0 := fun hb => h (hb ▸ List.mem_cons_self)
    rw [List.cons_append, cstr, if_neg hb, ih fun hmem => h (List.mem_cons_of_mem _ hmem)]
    rfl

theorem cstr_eq_some : cstr m = some s ↔ 0 ∉ s ∧ ∃ rest, m = s ++ 0 :: rest := by
  constructor
  · intro h
    induction m generalizing s with
    | nil => simp [cstr] at h
    | cons b m ih =>
      rw [cstr] at h
      split at h
      next hb =>
        obtain rfl := Option.some.inj h
        exact ⟨List.not_mem_nil, m, by rw [hb]; rfl⟩
      next hb =>
        obtain ⟨s', hs', rfl⟩ := Option.map_eq_some_iff.mp h
        obtain ⟨hnot, rest, rfl⟩ := ih hs'
        refine ⟨fun hmem => ?_, rest, rfl⟩
        rcases List.mem_cons.mp hmem with heq | hmem
        · exact hb heq.symm
        · exact hnot hmem
  · rintro ⟨hnot, rest, rfl⟩
    exact cstr_append hnot rest

theorem cstr_eq_none (h : 0 ∉ m) : cstr m = none := by
  cases hm : cstr m with
  | none => rfl
  | some s =>
    obtain ⟨-, rest, rfl⟩ := cstr_eq_some.mp hm
    exact absurd (by simp) h

theorem readString_eq (h : cstr m = some s) : readString m = .ok s := by
  rw [readString, h]
  rfl

theorem copied_append (h : 0 ∉ s) (rest : List UInt8) : copied s.length (s ++ rest) = .ok s := by
  induction s with
  | nil => rfl
  | cons b s ih =>
    have hb : b ≠ 0 := fun hb => h (hb ▸ List.mem_cons_self)
    rw [List.cons_append, List.length_cons, copied, if_neg hb,
      ih fun hmem => h (List.mem_cons_of_mem _ hmem)]
    rfl

end

/-! ### Arrays -/

namespace CharArray

variable {n : ℕ} {a : CharArray n} {s t : List UInt8}

theorem holds_zero (h : 0 < n) : (zero n).Holds [] := by
  obtain ⟨k, rfl⟩ : ∃ k, n = k + 1 := ⟨n - 1, by omega⟩
  rfl

theorem Holds.str_eq (h : a.Holds s) : a.str = .ok s := readString_eq h

theorem Holds.notMem (h : a.Holds s) : 0 ∉ s := (cstr_eq_some.mp h).1

theorem holds_of_str (h : a.str = .ok s) : a.Holds s := by
  rw [str, readString] at h
  cases hs : cstr a.bytes with
  | none => rw [hs] at h; simp at h
  | some s' => rw [hs] at h; rw [Holds, hs, Except.ok.inj h]

theorem str_unterminated (h : ∀ s, ¬ a.Holds s) : a.str = .error .outOfBounds := by
  rw [str, readString]
  cases hs : cstr a.bytes with
  | none => rfl
  | some s => exact absurd hs (h s)

theorem Holds.inj (h : a.Holds s) (h' : a.Holds t) : s = t := Option.some.inj (h.symm.trans h')

/-- A string is put behind the first `i` bytes. -/
theorem strcpy_ok {i : ℕ} (ht : a.bytes.take i = t) (hnot : 0 ∉ t ++ s)
    (hfit : i + s.length < n) : ∃ a', a.strcpy i s = .ok a' ∧ a'.Holds (t ++ s) := by
  have hsize : i + (s ++ [0]).length ≤ n := by simp; omega
  refine ⟨_, dif_pos hsize, ?_⟩
  show cstr (a.bytes.take i ++ (s ++ [0]) ++ a.bytes.drop (i + (s ++ [0]).length)) = some (t ++ s)
  rw [ht, ← List.append_assoc, List.append_assoc (t ++ s)]
  exact cstr_append hnot _

theorem strcpy_overflow {i : ℕ} (hfit : n ≤ i + s.length) : a.strcpy i s = .error .outOfBounds :=
  dif_neg (by simp; omega)

theorem snprintf_ok {j : ℕ} (hnot : 0 ∉ s) (hj : j ≤ s.length) (hfit : j < n) :
    ∃ a', a.snprintf (j + 1) s = .ok a' ∧ a'.Holds (s.take j) := by
  have hlen : (s.take j).length = j := by rw [List.length_take]; omega
  obtain ⟨a', ha', hholds⟩ := strcpy_ok (a := a) (s := s.take j) (t := []) (i := 0) rfl
    (fun hmem => hnot (List.mem_of_mem_take hmem)) (by rw [hlen]; simpa using hfit)
  exact ⟨a', ha', hholds⟩

theorem snprintf_overflow {j : ℕ} (hj : j ≤ s.length) (hfit : n ≤ j) :
    a.snprintf (j + 1) s = .error .outOfBounds := by
  have hlen : (s.take j).length = j := by rw [List.length_take]; omega
  exact strcpy_overflow (by rw [Nat.zero_add, Nat.add_sub_cancel, hlen]; exact hfit)

theorem Holds.take (h : a.Holds t) : a.bytes.take t.length = t := by
  obtain ⟨-, rest, hrest⟩ := cstr_eq_some.mp h
  rw [hrest, List.take_left]

theorem strcat_ok (h : a.Holds t) (hs : 0 ∉ s) (hfit : t.length + s.length < n) :
    ∃ a', a.strcat s = .ok a' ∧ a'.Holds (t ++ s) := by
  rw [strcat, h.str_eq]
  refine strcpy_ok h.take (fun hmem => ?_) hfit
  exact (List.mem_append.mp hmem).elim h.notMem hs

theorem strcat_overflow (h : a.Holds t) (hfit : n ≤ t.length + s.length) :
    a.strcat s = .error .outOfBounds := by
  rw [strcat, h.str_eq]
  exact strcpy_overflow hfit

/-- A copy into an array of zeros has an end iff it is shorter than the array. -/
theorem strncpy_zero (hs : 0 ∉ s) (rest : List UInt8) :
    ((zero n).strncpy (s ++ rest) s.length).bind str
      = if s.length < n then .ok s else .error .outOfBounds := by
  have hcopied : (zero n).strncpy (s ++ rest) s.length = (zero n).store 0 s := by
    rw [strncpy, copied_append hs]
    rfl
  rw [hcopied, store]
  split
  next hfit =>
    rw [Nat.zero_add] at hfit
    have hbytes : (zero n).bytes.take 0 ++ s ++ (zero n).bytes.drop (0 + s.length)
        = s ++ List.replicate (n - s.length) 0 := by
      simp [zero]
    show readString ((zero n).bytes.take 0 ++ s ++ (zero n).bytes.drop (0 + s.length)) = _
    rw [hbytes]
    split
    next hlt =>
      obtain ⟨k, hk⟩ : ∃ k, n - s.length = k + 1 := ⟨n - s.length - 1, by omega⟩
      rw [hk, List.replicate_succ]
      exact readString_eq (cstr_append hs _)
    next hge =>
      have hzero : n - s.length = 0 := by omega
      rw [hzero, List.replicate_zero, List.append_nil, readString, cstr_eq_none hs]
      rfl
  next hfit => rw [if_neg (by omega)]; rfl

theorem strncpy_ok (hs : 0 ∉ s) (rest : List UInt8) (hfit : s.length < n) :
    ∃ a', (zero n).strncpy (s ++ rest) s.length = .ok a' ∧ a'.Holds s := by
  have h := strncpy_zero (n := n) hs rest
  rw [if_pos hfit] at h
  cases hcopy : (zero n).strncpy (s ++ rest) s.length with
  | error e =>
    rw [hcopy] at h
    simp [Except.bind] at h
  | ok a' =>
    rw [hcopy] at h
    exact ⟨a', rfl, holds_of_str h⟩

/-- The copy is too long for the array, or it has no end. -/
theorem strncpy_long (hs : 0 ∉ s) (rest : List UInt8) (hfit : n ≤ s.length) :
    (zero n).strncpy (s ++ rest) s.length = .error .outOfBounds ∨
      ∃ a', (zero n).strncpy (s ++ rest) s.length = .ok a' ∧ a'.str = .error .outOfBounds := by
  have h := strncpy_zero (n := n) hs rest
  rw [if_neg (Nat.not_lt.mpr hfit)] at h
  cases hcopy : (zero n).strncpy (s ++ rest) s.length with
  | error e =>
    rw [hcopy] at h
    exact .inl (congrArg Except.error (Except.error.inj h))
  | ok a' =>
    rw [hcopy] at h
    exact .inr ⟨a', rfl, h⟩

end CharArray

end Elephant.Schemes.C
