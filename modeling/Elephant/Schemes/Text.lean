import Mathlib.Data.List.Infix
import Mathlib.Data.Nat.Digits.Defs

/-! Texts with a separator, the search for a text in another, and numbers as texts.

    When the part behind the last separator has none of its own, an occurrence of one such text in
    another either lines the two separators up or lies before the last separator of the other. -/

namespace Elephant.Schemes

variable {α : Type*} {a a' b b' r t : List α} {c : α}

/-- What starts with a text without `c` and has a `c` later starts with it before that `c`. -/
theorem prefix_of_append_eq (hb : c ∉ b) (h : b ++ t = a ++ c :: b') : b <+: a := by
  rcases List.append_eq_append_iff.mp h with ⟨m, rfl, -⟩ | ⟨m, rfl, hm⟩
  · exact List.prefix_append b m
  · cases m with
    | nil => simp
    | cons x m =>
      simp only [List.cons_append, List.cons.injEq] at hm
      exact absurd (hm.1 ▸ List.mem_append_right a (List.mem_cons_self ..)) hb

/-- Two texts with a separator of which the first begins the second have it at the same place. -/
theorem sep_prefix_iff (ha : c ∉ a) (ht : c ∉ t) :
    a ++ c :: b <+: t ++ c :: r ↔ a = t ∧ b <+: r := by
  constructor
  · rintro ⟨m, hm⟩
    rw [List.append_assoc, List.cons_append] at hm
    have hat := prefix_of_append_eq ha hm
    have hta := prefix_of_append_eq ht hm.symm
    obtain rfl : a = t := hat.eq_of_length (Nat.le_antisymm hat.length_le hta.length_le)
    exact ⟨rfl, m, by simpa using hm⟩
  · rintro ⟨rfl, m, rfl⟩
    exact ⟨m, by simp⟩

theorem infix_sep_iff (hb : c ∉ b) (hb' : c ∉ b') :
    a ++ c :: b <:+: a' ++ c :: b' ↔ (a <:+ a' ∧ b <+: b') ∨ a ++ c :: b <:+: a' := by
  constructor
  · rintro ⟨s, t, h⟩
    have heq : (s ++ a) ++ c :: (b ++ t) = a' ++ c :: b' := by simpa using h
    rcases List.append_eq_append_iff.mp heq with ⟨l, hl, htail⟩ | ⟨l, hl, htail⟩
    · cases l with
      | nil =>
        simp only [List.nil_append, List.cons.injEq, true_and] at htail
        exact Or.inl ⟨⟨s, by simpa using hl.symm⟩, ⟨t, htail⟩⟩
      | cons x l =>
        -- the last separator of the first text falls on an earlier one of the second
        simp only [List.cons_append, List.cons.injEq] at htail
        obtain ⟨m, rfl⟩ := prefix_of_append_eq hb htail.2
        refine Or.inr ⟨s, m, ?_⟩
        rw [hl, ← htail.1]; simp
    · cases l with
      | nil =>
        simp only [List.nil_append, List.cons.injEq, true_and] at htail
        exact Or.inl ⟨⟨s, by simpa using hl⟩, ⟨t, htail.symm⟩⟩
      | cons x l =>
        simp only [List.cons_append, List.cons.injEq] at htail
        rw [htail.2] at hb'
        simp at hb'
  · rintro (⟨⟨s, rfl⟩, ⟨t, rfl⟩⟩ | h)
    · exact ⟨s, t, by simp⟩
    · exact h.trans (List.prefix_append a' _).isInfix

/-! ### The first occurrence -/

section Search

variable [DecidableEq α]

/-- Where `needle` occurs first. -/
def search (needle : List α) : List α → Option ℕ
  | [] => if needle = [] then some 0 else none
  | x :: rest => if needle.isPrefixOf (x :: rest) then some 0 else (search needle rest).map (· + 1)

variable {needle : List α} {x : α}

theorem search_of_first (h : needle <+: x :: r) : search needle (x :: r) = some 0 :=
  if_pos (List.isPrefixOf_iff_prefix.mpr h)

theorem search_of_later (h : ¬ needle <+: x :: r) :
    search needle (x :: r) = (search needle r).map (· + 1) :=
  if_neg fun hpre => h (List.isPrefixOf_iff_prefix.mp hpre)

theorem search_eq_none : search needle t = none ↔ ¬ needle <:+: t := by
  induction t with
  | nil =>
    rw [search, List.infix_nil]
    split
    next h => exact iff_of_false (by simp) fun hne => hne h
    next h => exact iff_of_true rfl h
  | cons x t ih =>
    rw [List.infix_cons_iff]
    by_cases h : needle <+: x :: t
    · rw [search_of_first h]
      exact iff_of_false (by simp) fun hne => hne (.inl h)
    · rw [search_of_later h, Option.map_eq_none_iff, ih, not_or, and_iff_right h]

/-- The needle does not lie across the first separator, so it is searched for behind it. -/
theorem search_segment (ha : c ∉ a) (ht : c ∉ t) (h : ¬ (a <:+ t ∧ b <+: r)) :
    search (a ++ c :: b) (t ++ c :: r) = (search (a ++ c :: b) r).map (· + (t.length + 1)) := by
  induction t with
  | nil =>
    refine search_of_later fun hpre => h ?_
    obtain ⟨rfl, hb⟩ := (sep_prefix_iff ha (List.not_mem_nil : c ∉ [])).mp hpre
    exact ⟨List.suffix_refl _, hb⟩
  | cons x t ih =>
    have hstep : ¬ a ++ c :: b <+: x :: (t ++ c :: r) := fun hpre => by
      obtain ⟨rfl, hb⟩ := (sep_prefix_iff ha ht).mp (List.cons_append ▸ hpre)
      exact h ⟨List.suffix_refl _, hb⟩
    have hrest := ih (fun hmem => ht (List.mem_cons_of_mem _ hmem)) fun hpre =>
      h ⟨hpre.1.trans (List.suffix_cons x t), hpre.2⟩
    rw [List.cons_append, search_of_later hstep, hrest, Option.map_map]
    rfl

/-- The needle lies across the first separator. -/
theorem search_found (ha : c ∉ a) (ht : c ∉ t) (hb : b <+: r) :
    search (a ++ c :: b) (t ++ (a ++ c :: r)) = some t.length := by
  induction t with
  | nil =>
    obtain ⟨m, rfl⟩ := hb
    have hpre : a ++ c :: b <+: a ++ c :: (b ++ m) := ⟨m, by simp⟩
    cases a with
    | nil => exact search_of_first hpre
    | cons y a => exact search_of_first hpre
  | cons x t ih =>
    have hnot : c ∉ (x :: t) ++ a := fun hmem => (List.mem_append.mp hmem).elim ht ha
    have hstep : ¬ a ++ c :: b <+: x :: (t ++ (a ++ c :: r)) := fun hpre => by
      rw [← List.cons_append, ← List.append_assoc] at hpre
      have hlen := congrArg List.length ((sep_prefix_iff ha hnot).mp hpre).1
      simp at hlen
      omega
    rw [List.cons_append, search_of_later hstep,
      ih fun hmem => ht (List.mem_cons_of_mem _ hmem)]
    rfl

end Search

/-! ### Numbers as texts -/

theorem toList_toString (n : ℕ) : (toString n).toList = Nat.toDigits 10 n := String.toList_ofList

theorem isDigit_of_mem_toString {n : ℕ} {c : Char} (h : c ∈ (toString n).toList) :
    c.isDigit = true := by
  rw [toList_toString] at h
  exact Nat.isDigit_of_mem_toDigits (by decide) (by decide) h

theorem toString_inj {n₁ n₂ : ℕ} (h : (toString n₁).toList = (toString n₂).toList) : n₁ = n₂ := by
  rw [toList_toString, toList_toString] at h
  have hvalue := congrArg (Nat.ofDigitChars 10 · 0) h
  simpa only [Nat.ofDigitChars_toDigits (by decide : 1 < 10) (by decide : 10 ≤ 10)] using hvalue

theorem toString_negSucc (n : ℕ) :
    (toString (Int.negSucc n)).toList = '-' :: (toString (n + 1)).toList := by
  show ("-" ++ toString (n + 1)).toList = _
  rw [String.toList_append]
  rfl

theorem mem_toString_int {i : ℤ} {x : Char} (h : x ∈ (toString i).toList) :
    x.isDigit = true ∨ x = '-' := by
  cases i with
  | ofNat n => exact .inl (isDigit_of_mem_toString h)
  | negSucc n =>
    rw [toString_negSucc] at h
    rcases List.mem_cons.mp h with h | h
    · exact .inr h
    · exact .inl (isDigit_of_mem_toString h)

theorem length_toString_nat {n : ℕ} (h : n ≤ 2 ^ 31) : (toString n).toList.length ≤ 10 := by
  rw [toList_toString]
  exact Nat.toDigits_length 10 n 10 (by decide) (by omega)

theorem length_toString_int32 (i : Int32) : (toString i.toInt).toList.length ≤ 11 := by
  have hlow := i.le_toInt
  have hhigh := i.toInt_lt
  cases hi : i.toInt with
  | ofNat n =>
    have hn := length_toString_nat (n := n) (by rw [hi] at hhigh; simp at hhigh; omega)
    exact hn.trans (by decide)
  | negSucc n =>
    have hn := length_toString_nat (n := n + 1) (by rw [hi] at hlow; omega)
    rw [toString_negSucc, List.length_cons]
    omega

end Elephant.Schemes
