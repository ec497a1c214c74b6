import Mathlib.Data.List.Basic
import Mathlib.Data.List.Induction

/-! Queues of keyed messages that are applied to a keyed store.

    Every message is about one key, and applying it touches the store at that key only. What the store
    holds at `k` once a queue has been applied is then decided by the last message about `k`. Likewise a
    fact that some messages make and others unmake holds in the end iff it was made since it was last
    unmade. -/

namespace Elephant.Schemes

variable {μ κ σ τ : Type*} [DecidableEq κ] (key : μ → κ)

/-- The last message about `k` in a queue, oldest message first. -/
def lastAbout (k : κ) (q : List μ) : Option μ := (q.filter fun m => key m = k).getLast?

variable {key} {k : κ} {q : List μ} {m : μ}

theorem lastAbout_append (k : κ) (q q' : List μ) :
    lastAbout key k (q ++ q') = (lastAbout key k q').or (lastAbout key k q) := by
  rw [lastAbout, List.filter_append, List.getLast?_append]; rfl

theorem lastAbout_singleton (k : κ) (m : μ) :
    lastAbout key k [m] = if key m = k then some m else none := by
  by_cases h : key m = k <;> simp [lastAbout, h]

/-- Taking the oldest message off changes the last one about `k` only if it was that one. -/
theorem lastAbout_cons (k : κ) (m : μ) (q : List μ) :
    lastAbout key k (m :: q) = (lastAbout key k q).or (if key m = k then some m else none) := by
  rw [← lastAbout_singleton, ← lastAbout_append]; rfl

theorem lastAbout_eq_none : lastAbout key k q = none ↔ ∀ m ∈ q, key m ≠ k := by
  simp [lastAbout]

theorem mem_of_lastAbout (h : lastAbout key k q = some m) : m ∈ q ∧ key m = k := by
  simpa using List.mem_of_getLast? h

/-- A message at the end of the queue is the last one about its own key, and changes no other. -/
theorem lastAbout_concat_self (q : List μ) (h : key m = k) :
    lastAbout key k (q ++ [m]) = some m := by
  rw [lastAbout_append, lastAbout_singleton, if_pos h]; rfl

theorem lastAbout_concat_ne (q : List μ) (h : key m ≠ k) :
    lastAbout key k (q ++ [m]) = lastAbout key k q := by
  rw [lastAbout_append, lastAbout_singleton, if_neg h]; rfl

/-- The view at `k` after a whole queue is the one that its last message about `k` leaves. -/
theorem view_foldl {apply : σ → μ → σ} (view : σ → τ) (t : σ) (h : lastAbout key k q = some m)
    (hne : ∀ t m, key m ≠ k → view (apply t m) = view t) :
    ∃ t', view (q.foldl apply t) = view (apply t' m) := by
  induction q using List.reverseRecOn with
  | nil => simp [lastAbout] at h
  | append_singleton q x ih =>
    rw [List.foldl_concat]
    by_cases hx : key x = k
    · rw [lastAbout_concat_self q hx, Option.some.injEq] at h; subst h
      exact ⟨_, rfl⟩
    · rw [lastAbout_concat_ne q hx] at h
      rw [hne _ x hx]; exact ih h

/-! ### Since the last one -/

section Since

variable {ε : Type*} {p q : ε → Prop} {es : List ε} {e : ε}

/-- There is a `p` in the list, and no `q` behind it. -/
def SinceLast (p q : ε → Prop) (es : List ε) : Prop :=
  ∃ before e after, es = before ++ e :: after ∧ p e ∧ ∀ x ∈ after, ¬ q x

theorem not_sinceLast_nil : ¬ SinceLast p q [] := by
  rintro ⟨before, e, after, h, -⟩
  simp at h

theorem sinceLast_concat : SinceLast p q (es ++ [e]) ↔ p e ∨ ¬ q e ∧ SinceLast p q es := by
  constructor
  · rintro ⟨before, x, after, heq, hx, hnone⟩
    rcases List.eq_nil_or_concat after with rfl | ⟨after, y, rfl⟩
    · obtain ⟨-, ⟨⟩⟩ := List.append_inj' heq rfl
      exact .inl hx
    · rw [List.concat_eq_append] at heq hnone
      rw [← List.cons_append, ← List.append_assoc] at heq
      obtain ⟨rfl, ⟨⟩⟩ := List.append_inj' heq rfl
      have hlast : ¬ q e := hnone e (List.mem_append_right _ (List.mem_singleton_self e))
      exact .inr ⟨hlast, before, x, after, rfl, hx, fun y hy => hnone y (List.mem_append_left _ hy)⟩
  · rintro (h | ⟨hq, before, x, after, rfl, hx, hnone⟩)
    · exact ⟨es, e, [], rfl, h, fun x hx => absurd hx List.not_mem_nil⟩
    · refine ⟨before, x, after ++ [e], by simp, hx, fun y hy => ?_⟩
      rcases List.mem_append.mp hy with hy | hy
      · exact hnone y hy
      · rw [List.mem_singleton.mp hy]
        exact hq

/-- A fact that `p` makes, `q` unmakes and nothing else touches. -/
theorem foldl_iff_sinceLast {apply : σ → ε → σ} {P : σ → Prop} {t : σ} (ht : ¬ P t) (es : List ε)
    (hstep : ∀ t, ∀ e ∈ es, P (apply t e) ↔ p e ∨ ¬ q e ∧ P t) :
    P (es.foldl apply t) ↔ SinceLast p q es := by
  induction es using List.reverseRecOn with
  | nil => exact iff_of_false ht not_sinceLast_nil
  | append_singleton es e ih =>
    have hes := ih fun t e' he' => hstep t e' (List.mem_append_left _ he')
    rw [List.foldl_concat, hstep _ e List.mem_concat_self, sinceLast_concat, hes]

end Since

end Elephant.Schemes
