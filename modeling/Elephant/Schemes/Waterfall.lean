import Mathlib.Logic.Basic

/-! Tasks in sequence, after `async.waterfall`.

    A task works on a state and calls back, with an error or with a value, or it throws, which ends
    the process. Nothing keeps a task from calling back several times. A waterfall hands the value of
    each callback to the tasks that follow; an error goes to the final callback, and whatever is
    called after the first error is ignored. So a waterfall is a composition of tasks, and `bind` says
    what it does with the callbacks of one task:

        ok a, …      ──▶ the rest runs with a, then the next callback is looked at
        error e, …   ──▶ final callback with e, the others are ignored
        throws       ──▶ nothing further runs -/

namespace Elephant.Schemes

/-- How a task ends: its callbacks in order, or a throw. -/
inductive Reply (ε α : Type) where
  | calls (results : List (Except ε α))
  | throws

def Async (σ ε α : Type) := σ → σ × Reply ε α

variable {σ ε α β : Type}

def Reply.failed : List (Except ε α) → Bool
  | [] => false
  | .error _ :: _ => true
  | .ok _ :: rest => failed rest

namespace Async

/-- Callbacks of one task, in order, with what follows it. -/
def proceed (f : α → Async σ ε β) : List (Except ε α) → Async σ ε β
  | [], s => (s, .calls [])
  | .error e :: _, s => (s, .calls [.error e])
  | .ok a :: rest, s =>
    match f a s with
    | (s', .throws) => (s', .throws)
    | (s', .calls out) =>
      if Reply.failed out then (s', .calls out)
      else match proceed f rest s' with
        | (s'', .throws) => (s'', .throws)
        | (s'', .calls out') => (s'', .calls (out ++ out'))

def bind (x : Async σ ε α) (f : α → Async σ ε β) : Async σ ε β := fun s =>
  match x s with
  | (s', .throws) => (s', .throws)
  | (s', .calls results) => proceed f results s'

instance : Monad (Async σ ε) where
  pure a := fun s => (s, .calls [.ok a])
  bind := bind

/-- A task that calls back once and leaves the state alone. -/
def lift (x : Except ε α) : Async σ ε α := fun s => (s, .calls [x])

/-- The same for one that may throw. -/
def liftThrow {τ : Type} : Except τ (Except ε α) → Async σ ε α
  | .error _ => fun s => (s, .throws)
  | .ok x => lift x

/-- A task that changes the state and calls back with a value. -/
def update (f : σ → σ × α) : Async σ ε α := fun s => ((f s).1, .calls [.ok (f s).2])

/-! ### Equations -/

theorem bind_apply (x : Async σ ε α) (f : α → Async σ ε β) (s : σ) : (x >>= f) s = bind x f s := rfl

/-- After one good callback the rest runs, and nothing else. -/
theorem proceed_one (f : α → Async σ ε β) (a : α) (s : σ) : proceed f [.ok a] s = f a s := by
  unfold proceed
  cases h : f a s with
  | mk s' r =>
    cases r with
    | throws => rfl
    | calls out => simp [proceed]

@[simp] theorem lift_ok_bind (a : α) (f : α → Async σ ε β) (s : σ) :
    (lift (.ok a) >>= f) s = f a s := proceed_one f a s

@[simp] theorem lift_error_bind (e : ε) (f : α → Async σ ε β) (s : σ) :
    (lift (.error e) >>= f) s = (s, .calls [.error e]) := rfl

@[simp] theorem update_bind (g : σ → σ × α) (f : α → Async σ ε β) (s : σ) :
    (update g >>= f) s = f (g s).2 (g s).1 := proceed_one f _ _

@[simp] theorem pure_apply (a : α) (s : σ) : (pure a : Async σ ε α) s = (s, .calls [.ok a]) := rfl

/-! ### How many times a waterfall calls back -/

variable {P : ε → Prop}

/-- A throw, a single value, or an error first, whatever is called after it. -/
inductive Settled (P : ε → Prop) : Reply ε α → Prop
  | throws : Settled P .throws
  | ok (a : α) : Settled P (.calls [.ok a])
  | error {e : ε} (rest : List (Except ε α)) (he : P e) : Settled P (.calls (.error e :: rest))

/-- A throw or exactly one callback. -/
inductive Final (P : ε → Prop) : Reply ε α → Prop
  | throws : Final P .throws
  | ok (a : α) : Final P (.calls [.ok a])
  | error {e : ε} (he : P e) : Final P (.calls [.error e])

theorem Final.settled {r : Reply ε α} (h : Final P r) : Settled P r := by
  cases h with
  | throws => exact .throws
  | ok a => exact .ok a
  | error he => exact .error [] he

/-- A waterfall whose last task calls back once calls back once, though earlier tasks may repeat an
    error. -/
theorem final_bind {x : Async σ ε α} {f : α → Async σ ε β} (hx : ∀ s, Settled P (x s).2)
    (hf : ∀ a s, Final P (f a s).2) (s : σ) : Final P ((x >>= f) s).2 := by
  rw [bind_apply, bind]
  have h := hx s
  cases hr : x s with
  | mk s' r =>
    rw [hr] at h
    cases h with
    | throws => exact .throws
    | ok a => simp only [proceed_one]; exact hf a s'
    | error rest he => exact .error he

theorem final_lift {x : Except ε α} (h : ∀ e, x = .error e → P e) (s : σ) :
    Final P (lift x s).2 := by
  cases x with
  | ok a => exact .ok a
  | error e => exact .error (h e rfl)

theorem final_liftThrow {τ : Type} {x : Except τ (Except ε α)}
    (h : ∀ e, x = .ok (.error e) → P e) (s : σ) : Final P (liftThrow x s).2 := by
  cases x with
  | error t => exact .throws
  | ok y => exact final_lift (fun e he => h e (he ▸ rfl)) s

/-! ### When a waterfall throws -/

def Throws (x : Async σ ε α) (s : σ) : Prop := (x s).2 = .throws

/-- The task calls back once, with a value. -/
def Gives (x : Async σ ε α) (s s' : σ) (a : α) : Prop := x s = (s', .calls [.ok a])

section Throws

variable {τ : Type} {f : α → Async σ ε β} {s s' : σ} {b : β}

/-- One of the tasks throws, after the earlier ones have called back with a value. -/
theorem throws_bind {x : Async σ ε α} (hx : Settled P (x s).2) :
    Throws (x >>= f) s ↔ Throws x s ∨ ∃ a s', Gives x s s' a ∧ Throws (f a) s' := by
  rw [Throws, bind_apply, bind, Throws]
  cases hr : x s with
  | mk s' r =>
    rw [hr] at hx
    cases hx with
    | throws => simp
    | ok a =>
      simp only [proceed_one, reduceCtorEq, false_or, Gives, hr, Throws]
      constructor
      · intro h; exact ⟨a, s', rfl, h⟩
      · rintro ⟨_, _, ⟨⟩, h⟩; exact h
    | error rest he => simp [Gives, hr, proceed]

theorem throws_lift_bind {x : Except ε α} :
    Throws (lift x >>= f) s ↔ ∃ a, x = .ok a ∧ Throws (f a) s := by
  cases x <;> simp [Throws]

theorem throws_liftThrow {x : Except τ (Except ε α)} :
    Throws (liftThrow x : Async σ ε α) s ↔ x.isOk = false := by
  cases x <;> simp [Throws, liftThrow, lift, Except.isOk, Except.toBool]

theorem throws_liftThrow_bind {x : Except τ (Except ε α)} :
    Throws (liftThrow x >>= f) s ↔ x.isOk = false ∨ ∃ a, x = .ok (.ok a) ∧ Throws (f a) s := by
  cases x with
  | error t => exact iff_of_true rfl (.inl rfl)
  | ok y => rw [liftThrow, throws_lift_bind]; simp [Except.isOk, Except.toBool]

theorem not_throws_lift {x : Except ε α} : ¬ Throws (lift x : Async σ ε α) s := by simp [Throws, lift]

theorem not_throws_pure {a : α} : ¬ Throws (pure a : Async σ ε α) s := by simp [Throws]

theorem gives_lift_bind {x : Except ε α} :
    Gives (lift x >>= f) s s' b ↔ ∃ a, x = .ok a ∧ Gives (f a) s s' b := by
  cases x <;> simp [Gives]

theorem gives_liftThrow {x : Except τ (Except ε α)} {a : α} :
    Gives (liftThrow x) s s' a ↔ x = .ok (.ok a) ∧ s' = s := by
  cases x <;> simp [Gives, liftThrow, lift, and_comm, eq_comm]

theorem gives_liftThrow_bind {x : Except τ (Except ε α)} :
    Gives (liftThrow x >>= f) s s' b ↔ ∃ a, x = .ok (.ok a) ∧ Gives (f a) s s' b := by
  cases x with
  | error t =>
    refine iff_of_false (fun h => ?_) (by simp)
    simpa using congrArg Prod.snd (show (s, Reply.throws) = (s', .calls [.ok b]) from h)
  | ok y => rw [liftThrow, gives_lift_bind]; simp

theorem gives_pure {a b : α} : Gives (pure a : Async σ ε α) s s' b ↔ b = a ∧ s' = s := by
  simp [Gives, and_comm, eq_comm]

end Throws

/-! ### Tasks that only check -/

/-- The task leaves the state alone and calls back once if it does not throw; the value it passes on
    has `Q`. -/
def Checks (Q : α → Prop) (x : Async σ ε α) : Prop :=
  ∀ s, x s = (s, .throws) ∨ (∃ e, x s = (s, .calls [.error e])) ∨
    ∃ a, Q a ∧ x s = (s, .calls [.ok a])

theorem checks_lift (x : Except ε α) : Checks (fun a => x = .ok a) (lift x : Async σ ε α) := by
  intro s
  cases x with
  | error e => exact .inr (.inl ⟨e, rfl⟩)
  | ok a => exact .inr (.inr ⟨a, rfl, rfl⟩)

theorem checks_liftThrow {τ : Type} (x : Except τ (Except ε α)) :
    Checks (fun a => x = .ok (.ok a)) (liftThrow x : Async σ ε α) := by
  intro s
  rcases x with t | (e | a)
  · exact .inl rfl
  · exact .inr (.inl ⟨e, rfl⟩)
  · exact .inr (.inr ⟨a, rfl, rfl⟩)

theorem Checks.mono {Q R : α → Prop} {x : Async σ ε α} (hx : Checks Q x) (h : ∀ a, Q a → R a) :
    Checks R x := by
  intro s
  rcases hx s with hs | hs | ⟨a, ha, hs⟩
  · exact .inl hs
  · exact .inr (.inl hs)
  · exact .inr (.inr ⟨a, h a ha, hs⟩)

/-- What follows a check may use what the check has passed on. -/
theorem Checks.bind {Q : α → Prop} {R : β → Prop} {x : Async σ ε α} {f : α → Async σ ε β}
    (hx : Checks Q x) (hf : ∀ a, Q a → Checks R (f a)) : Checks R (x >>= f) := by
  intro s
  rw [bind_apply, Async.bind]
  rcases hx s with h | ⟨e, h⟩ | ⟨a, ha, h⟩ <;> rw [h]
  · exact .inl rfl
  · exact .inr (.inl ⟨e, rfl⟩)
  · simp only [proceed_one]; exact hf a ha s

end Async

end Elephant.Schemes
