import Mathlib.Data.ENat.Lattice
import Mathlib.Data.List.Range

/-! Attempts with a bounded number of retries.

    An operation is attempted, and attempted again as long as it fails and there are retries left:

        attempt n ──▶ outcomes n ──fails, left + 1──▶ attempt (n + 1), left
                                 ╰─otherwise──▶ over

    The outcomes are a stream, so any number of failures can come first. What is observed of an
    attempt may depend on its number, its outcome and whether it is followed by another one. -/

namespace Elephant.Schemes.Retry

/-- `retry.operation(options)`: the retries it is given, or the default ones. -/
def operation (retries : Option ℕ) : ℕ := retries.getD 10

/-- `operation.retry(err)` with `left` retries to go: how many are left after the one it schedules;
    `none` is the answer `false`. -/
def retry : ℕ → Bool → Option ℕ
  | left + 1, true => some left
  | _, _ => none

open Classical in
/-- The length of the longest initial run of `p`: where `p` fails first. -/
noncomputable def initialRun (p : ℕ → Prop) : ℕ∞ :=
  if h : ∃ k, ¬ p k then (Nat.find h : ℕ∞) else ⊤

section

variable {α ε : Type*} (fails : α → Bool) (observe : ℕ → α → Bool → List ε) (outcomes : ℕ → α)

/-- `operation.attempt(fn)` from attempt `n` on. -/
def attempt : ℕ → ℕ → List ε
  | 0, n => observe n (outcomes n) false
  | left + 1, n =>
    if fails (outcomes n) then observe n (outcomes n) true ++ attempt left (n + 1)
    else observe n (outcomes n) false

/-- How many retries are made. -/
def made : ℕ → ℕ → ℕ
  | 0, _ => 0
  | left + 1, n => if fails (outcomes n) then made left (n + 1) + 1 else 0

end

section

variable {α ε : Type*} {fails : α → Bool} {observe : ℕ → α → Bool → List ε} {outcomes : ℕ → α}

theorem eq_succ_of_retry {left left' : ℕ} {err : Bool} (h : retry left err = some left') :
    left = left' + 1 := by
  cases left with
  | zero => simp [retry] at h
  | succ left =>
    cases err with
    | false => simp [retry] at h
    | true => rw [retry, Option.some.injEq] at h; rw [h]

/-- The loop follows the decisions of `retry`. -/
theorem attempt_retry (left n : ℕ) : attempt fails observe outcomes left n =
    (retry left (fails (outcomes n))).elim (observe n (outcomes n) false)
      fun left' => observe n (outcomes n) true ++ attempt fails observe outcomes left' (n + 1) := by
  cases left with
  | zero => rfl
  | succ left =>
    rw [attempt]
    cases fails (outcomes n) with
    | false => rfl
    | true => rfl

theorem made_le (left n : ℕ) : made fails outcomes left n ≤ left := by
  induction left generalizing n with
  | zero => exact Nat.le_refl 0
  | succ left ih =>
    rw [made]
    split
    · exact Nat.succ_le_succ (ih (n + 1))
    · exact Nat.zero_le _

theorem fails_of_lt_made {left n i : ℕ} (hi : i < made fails outcomes left n) :
    fails (outcomes (n + i)) = true := by
  induction left generalizing n i with
  | zero => exact absurd hi (Nat.not_lt_zero i)
  | succ left ih =>
    rw [made] at hi
    split at hi
    next hfails =>
      cases i with
      | zero => exact hfails
      | succ i =>
        have h := ih (Nat.lt_of_succ_lt_succ hi)
        rwa [Nat.add_right_comm, Nat.add_assoc] at h
    next => exact absurd hi (Nat.not_lt_zero i)

/-- The attempts are over when the retries are used up or one does not fail. -/
theorem made_stop (fails : α → Bool) (outcomes : ℕ → α) (left n : ℕ) :
    made fails outcomes left n = left ∨
      fails (outcomes (n + made fails outcomes left n)) = false := by
  induction left generalizing n with
  | zero => exact .inl rfl
  | succ left ih =>
    rw [made]
    split
    next =>
      rcases ih (n + 1) with h | h
      · exact .inl (by rw [h])
      · rw [Nat.add_right_comm, Nat.add_assoc] at h
        exact .inr h
    next hfails => exact .inr (Bool.eq_false_iff.mpr hfails)

theorem made_eq {left k : ℕ} (hk : k ≤ left) (hfails : ∀ i < k, fails (outcomes i) = true)
    (hstop : k = left ∨ fails (outcomes k) = false) : made fails outcomes left 0 = k := by
  rcases Nat.lt_trichotomy (made fails outcomes left 0) k with hlt | heq | hgt
  · rcases made_stop fails outcomes left 0 with h | h
    · omega
    · rw [Nat.zero_add, hfails _ hlt] at h
      exact absurd h (by decide)
  · exact heq
  · have h := fails_of_lt_made hgt
    rw [Nat.zero_add] at h
    rcases hstop with rfl | hstop
    · exact absurd hgt (Nat.not_lt.mpr (made_le _ _))
    · rw [hstop] at h
      exact absurd h (by decide)

/-- Up to any attempt all fail, or there is a first one that does not. -/
theorem fails_or_first (fails : α → Bool) (outcomes : ℕ → α) (n : ℕ) :
    (∀ i ≤ n, fails (outcomes i) = true) ∨
      ∃ k ≤ n, fails (outcomes k) = false ∧ ∀ i < k, fails (outcomes i) = true := by
  induction n with
  | zero =>
    cases h : fails (outcomes 0) with
    | true => exact .inl fun i hi => by rw [Nat.le_zero.mp hi, h]
    | false => exact .inr ⟨0, Nat.le_refl 0, h, fun i hi => absurd hi (Nat.not_lt_zero i)⟩
  | succ n ih =>
    rcases ih with hall | ⟨k, hk, hstop, hfails⟩
    · cases h : fails (outcomes (n + 1)) with
      | true =>
        refine .inl fun i hi => ?_
        rcases Nat.le_succ_iff.mp hi with hi | rfl
        · exact hall i hi
        · exact h
      | false => exact .inr ⟨n + 1, Nat.le_refl _, h, fun i hi => hall i (Nat.lt_succ_iff.mp hi)⟩
    · exact .inr ⟨k, Nat.le_succ_of_le hk, hstop, hfails⟩

/-- All attempts but the last are followed by another one. -/
theorem attempt_eq (left n : ℕ) : attempt fails observe outcomes left n =
    (List.range' n (made fails outcomes left n)).flatMap (fun i => observe i (outcomes i) true) ++
      observe (n + made fails outcomes left n) (outcomes (n + made fails outcomes left n)) false := by
  induction left generalizing n with
  | zero => rfl
  | succ left ih =>
    rw [attempt, made]
    split
    · rw [ih, List.range'_succ, List.flatMap_cons, List.append_assoc, Nat.add_right_comm,
        Nat.add_assoc n]
    · rfl

theorem le_initialRun {p : ℕ → Prop} {k : ℕ} (hp : ∀ i < k, p i) : (k : ℕ∞) ≤ initialRun p := by
  classical
  unfold initialRun
  split
  next h =>
    have hk : k ≤ Nat.find h := Nat.not_lt.mp fun hlt => Nat.find_spec h (hp _ hlt)
    exact_mod_cast hk
  next => exact le_top

theorem initialRun_le {p : ℕ → Prop} {k : ℕ} (hk : ¬ p k) : initialRun p ≤ k := by
  classical
  have h : ∃ k, ¬ p k := ⟨k, hk⟩
  have hfind : Nat.find h ≤ k := Nat.find_min' h hk
  rw [initialRun, dif_pos h]
  exact_mod_cast hfind

theorem min_initialRun {p : ℕ → Prop} {left k : ℕ} (hk : k ≤ left) (hp : ∀ i < k, p i)
    (hstop : k = left ∨ ¬ p k) : min (left : ℕ∞) (initialRun p) = k := by
  refine le_antisymm ?_ (le_min (by exact_mod_cast hk) (le_initialRun hp))
  rcases hstop with rfl | hstop
  · exact min_le_left _ _
  · exact (min_le_right _ _).trans (initialRun_le hstop)

/-- As many retries as are allowed and asked for. -/
theorem made_eq_min (fails : α → Bool) (outcomes : ℕ → α) (left : ℕ) :
    (made fails outcomes left 0 : ℕ∞) =
      min (left : ℕ∞) (initialRun fun i => fails (outcomes i) = true) := by
  refine (min_initialRun (made_le left 0) (fun i hi => ?_) ?_).symm
  · have h := fails_of_lt_made hi
    rwa [Nat.zero_add] at h
  · rcases made_stop fails outcomes left 0 with h | h
    · exact .inl h
    · rw [Nat.zero_add] at h
      exact .inr (by rw [h]; decide)

end

end Elephant.Schemes.Retry
