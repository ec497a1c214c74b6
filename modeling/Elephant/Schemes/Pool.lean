import Mathlib.Data.List.Basic

/-! Pools of pending tasks.

    An event loop keeps a pool of tasks; one turn takes the task at some position out and puts what
    it leaves to be done in its place. The lemmas follow one kind of task (a filter of the pool)
    through a turn, in particular a token: a kind of which there is exactly one. -/

namespace Elephant.Schemes

variable {τ : Type*}

/-- The pool after the task at position `n` has run and left `next` behind. -/
def replaceAt (l : List τ) (n : ℕ) (next : List τ) : List τ := l.take n ++ next ++ l.drop (n + 1)

variable {l next : List τ} {n : ℕ} {t x : τ} {p : τ → Bool}

theorem split_at (h : l[n]? = some t) : l = l.take n ++ t :: l.drop (n + 1) := by
  obtain ⟨hn, rfl⟩ := List.getElem?_eq_some_iff.mp h
  rw [← List.drop_eq_getElem_cons hn, List.take_append_drop]

/-- What is found after something was put at the end. -/
theorem getElem?_concat_some (h : (l ++ [t])[n]? = some x) :
    l[n]? = some x ∨ n = l.length ∧ x = t := by
  rcases Nat.lt_trichotomy n l.length with hn | rfl | hn
  · rw [List.getElem?_append_left hn] at h
    exact .inl h
  · rw [List.getElem?_concat_length, Option.some.injEq] at h
    exact .inr ⟨rfl, h.symm⟩
  · rw [List.getElem?_eq_none (by rw [List.length_append, List.length_singleton]; omega)] at h
    simp at h

theorem getElem?_concat_of_some (h : l[n]? = some x) : (l ++ [t])[n]? = some x := by
  rw [List.getElem?_append_left (List.getElem?_eq_some_iff.mp h).1]
  exact h

/-- What is found after the value at position `n` was replaced. -/
theorem getElem?_set_some {j : ℕ} :
    (l.set n t)[j]? = some x ↔ (n = j ∧ n < l.length ∧ x = t) ∨ (n ≠ j ∧ l[j]? = some x) := by
  rw [List.getElem?_set]
  by_cases hj : n = j
  · by_cases hn : n < l.length
    · simp [hj, hj ▸ hn, eq_comm]
    · simp [hj, hj ▸ hn]
  · simp [hj]

/-- Any other value is found where it was. -/
theorem getElem?_concat_ne (h : x ≠ t) : (l ++ [t])[n]? = some x ↔ l[n]? = some x :=
  ⟨fun hx => (getElem?_concat_some hx).resolve_right fun hnew => h hnew.2, getElem?_concat_of_some⟩

theorem getElem?_set_other {j : ℕ} {y : τ} (hy : l[n]? = some y) (hold : x ≠ y) (hnew : x ≠ t) :
    (l.set n t)[j]? = some x ↔ l[j]? = some x := by
  rw [getElem?_set_some]
  constructor
  · rintro (⟨-, -, rfl⟩ | ⟨-, h⟩)
    · exact absurd rfl hnew
    · exact h
  · intro h
    refine .inr ⟨?_, h⟩
    rintro rfl
    exact hold (Option.some.inj (h.symm.trans hy))

theorem mem_replaceAt (hx : x ∈ replaceAt l n next) : x ∈ l ∨ x ∈ next := by
  rw [replaceAt, List.mem_append, List.mem_append] at hx
  rcases hx with (hx | hx) | hx
  · exact Or.inl (List.mem_of_mem_take hx)
  · exact Or.inr hx
  · exact Or.inl (List.mem_of_mem_drop hx)

theorem mem_replaceAt_of_eraseIdx (hx : x ∈ l.eraseIdx n) : x ∈ replaceAt l n next := by
  rw [List.eraseIdx_eq_take_drop_succ, List.mem_append] at hx
  rw [replaceAt, List.mem_append, List.mem_append]
  exact hx.imp Or.inl id

theorem mem_replaceAt_next (hx : x ∈ next) : x ∈ replaceAt l n next :=
  List.mem_append_left _ (List.mem_append_right _ hx)

/-- A task other than the one that ran stays. -/
theorem mem_replaceAt_ne (h : l[n]? = some t) (hx : x ∈ l) (hne : x ≠ t) : x ∈ replaceAt l n next := by
  rw [split_at h, List.mem_append, List.mem_cons] at hx
  rw [replaceAt, List.mem_append, List.mem_append]
  rcases hx with hx | rfl | hx
  · exact Or.inl (Or.inl hx)
  · exact absurd rfl hne
  · exact Or.inr hx

theorem filter_replaceAt (p : τ → Bool) : (replaceAt l n next).filter p
    = (l.take n).filter p ++ next.filter p ++ (l.drop (n + 1)).filter p := by
  rw [replaceAt, List.filter_append, List.filter_append]

theorem filter_split (h : l[n]? = some t) : l.filter p
    = (l.take n).filter p ++ (if p t then [t] else []) ++ (l.drop (n + 1)).filter p := by
  conv_lhs => rw [split_at h, List.filter_append, List.filter_cons]
  by_cases ht : p t = true <;> simp [ht]

/-- A turn of a task of another kind that leaves none of this kind. -/
theorem filter_replaceAt_of_not (h : l[n]? = some t) (ht : p t = false)
    (hnext : next.filter p = []) : (replaceAt l n next).filter p = l.filter p := by
  rw [filter_replaceAt, filter_split h, hnext, ht]; simp

/-- A turn of the only task of its kind: what it leaves is all there is of that kind. -/
theorem filter_replaceAt_single (next : List τ) (h : l[n]? = some t) (ht : p t = true)
    (hx : l.filter p = [x]) : x = t ∧ (replaceAt l n next).filter p = next.filter p := by
  rw [filter_split h, ht, if_pos rfl] at hx
  have hlen := congrArg List.length hx
  simp only [List.length_append, List.length_cons, List.length_nil] at hlen
  have htake : (l.take n).filter p = [] := List.eq_nil_of_length_eq_zero (by omega)
  have hdrop : (l.drop (n + 1)).filter p = [] := List.eq_nil_of_length_eq_zero (by omega)
  rw [htake, hdrop] at hx
  refine ⟨by simpa using hx.symm, ?_⟩
  rw [filter_replaceAt, htake, hdrop]; simp

/-- A turn of a task of another kind that cancels the only task `x` of this kind and leaves `y`. -/
theorem filter_replaceAt_cancel {y : τ} {q : τ → Bool} (h : l[n]? = some t) (ht : p t = false)
    (hx : l.filter p = [x]) (hy : p y = true) (hqx : q x = false) (hqy : q y = true) :
    ((replaceAt l n [y]).filter q).filter p = [y] := by
  rw [filter_split h, ht, if_neg Bool.false_ne_true, List.append_nil] at hx
  have hgone : ∀ l' : List τ, (∀ z ∈ l', z ∈ [x]) → l'.filter q = [] := by
    intro l' hl'
    rw [List.filter_eq_nil_iff]
    intro z hz
    obtain rfl := List.mem_singleton.mp (hl' z hz)
    simp [hqx]
  rw [List.filter_comm, filter_replaceAt, List.filter_append, List.filter_append,
    hgone _ fun z hz => hx ▸ List.mem_append_left _ hz,
    hgone _ fun z hz => hx ▸ List.mem_append_right _ hz]
  simp [hy, hqy]

/-- The number of tasks of a kind changes by what the turn takes and leaves. -/
theorem countP_replaceAt (h : l[n]? = some t) :
    (replaceAt l n next).countP p + (if p t then 1 else 0) = l.countP p + next.countP p := by
  have hl := congrArg (List.countP p) (split_at h)
  rw [List.countP_append, List.countP_cons] at hl
  rw [replaceAt, List.countP_append, List.countP_append, hl]
  omega

/-- There is one task of a kind at most. -/
theorem eq_of_countP_le_one (h : l.countP p ≤ 1) (ht : t ∈ l) (hx : x ∈ l) (hpt : p t = true)
    (hpx : p x = true) : t = x := by
  rw [List.countP_eq_length_filter] at h
  obtain ⟨n, hn, rfl⟩ := List.getElem_of_mem (List.mem_filter.mpr ⟨ht, hpt⟩)
  obtain ⟨m, hm, rfl⟩ := List.getElem_of_mem (List.mem_filter.mpr ⟨hx, hpx⟩)
  obtain rfl : n = m := by omega
  rfl

end Elephant.Schemes
