import Elephant.Schemes.Retry

/-! Database operations with retries (`persistence/sequelizewrapper.coffee`).

    The retry policy is declared in the body of the class, where an assignment makes a variable of the
    body and not a property of the class. `executeWithRetry` reads the property:

        class body:  logger, retryOptions          (variables)
        class:       create, executeWithRetry      (properties) ◀── SequelizeWrapper.retryOptions

    The retry library gets no options. -/

namespace Elephant.Persistence
open Elephant.Schemes.Retry

structure RetryOptions where
  retries : ℕ
  deriving DecidableEq, Repr

inductive Member where
  | logger
  | options (o : RetryOptions)
  | function
  deriving DecidableEq, Repr

/-- `name = value` in a class body, and `@name: value`. -/
inductive Declaration where
  | variable (name : String) (value : Member)
  | static (name : String) (value : Member)
  deriving DecidableEq, Repr

/-- What is called in `executeWithRetry`, by the number of the attempt. -/
inductive DbEvent (ρ ε : Type*) where
  | attempt (n : ℕ)
  | onSuccess (n : ℕ) (result : ρ)
  | onError (n : ℕ) (err : ε)
  deriving DecidableEq, Repr

namespace SequelizeWrapper

def retryOptions : RetryOptions := ⟨60⟩

def classBody : List Declaration :=
  [.variable "logger" .logger, .variable "retryOptions" (.options retryOptions),
    .static "create" .function, .static "executeWithRetry" .function]

/-- A property of the class. -/
def property (name : String) : List Declaration → Option Member
  | [] => none
  | .static name' value :: rest => if name' = name then some value else property name rest
  | .variable _ _ :: rest => property name rest

def optionsOf : Option Member → Option RetryOptions
  | some (.options o) => some o
  | _ => none

section

variable {ρ ε : Type*}

def isError : Except ε ρ → Bool
  | .error _ => true
  | .ok _ => false

/-- `onSuccess`, or `onAttemptError`: the latter calls `onError` when there is no other attempt. -/
def answer (n : ℕ) (outcome : Except ε ρ) (retried : Bool) : List (DbEvent ρ ε) :=
  match outcome with
  | .ok result => [.onSuccess n result]
  | .error err => if retried then [] else [.onError n err]

/-- `attemptFunction`. -/
def attemptFunction (n : ℕ) (outcome : Except ε ρ) (retried : Bool) : List (DbEvent ρ ε) :=
  .attempt n :: answer n outcome retried

/-- The attempts of an operation that may make `retries` retries. -/
def executed (retries : ℕ) (outcomes : ℕ → Except ε ρ) : List (DbEvent ρ ε) :=
  attempt isError attemptFunction outcomes retries 0

def executeWithRetry (outcomes : ℕ → Except ε ρ) : List (DbEvent ρ ε) :=
  executed (operation ((optionsOf (property "retryOptions" classBody)).map RetryOptions.retries))
    outcomes

end

end SequelizeWrapper

open SequelizeWrapper

section

variable {ρ ε : Type*}

def DbEvent.isSuccess : DbEvent ρ ε → Bool
  | .onSuccess _ _ => true
  | _ => false

def DbEvent.isFailure : DbEvent ρ ε → Bool
  | .onError _ _ => true
  | _ => false

/-- The first success among the attempts is answered once, and nothing else is; when all of them fail,
    the failure is answered once, after the last one. -/
structure AppliesPolicy (retries : ℕ) (outcomes : ℕ → Except ε ρ) (events : List (DbEvent ρ ε)) :
    Prop where
  succeeds : ∀ k ≤ retries, ∀ result, outcomes k = .ok result →
    (∀ i < k, isError (outcomes i) = true) →
      events.filter DbEvent.isSuccess = [.onSuccess k result] ∧ ∀ n err, .onError n err ∉ events
  fails : (∀ i ≤ retries, isError (outcomes i) = true) →
    (∃ err, outcomes retries = .error err ∧
      events.filter DbEvent.isFailure = [.onError retries err]) ∧
    ∀ n, retries < n → .attempt n ∉ events

/-! ### The attempts -/

theorem isError_eq_true {outcome : Except ε ρ} (h : isError outcome = true) :
    ∃ err, outcome = .error err := by
  cases outcome with
  | error err => exact ⟨err, rfl⟩
  | ok result => exact Bool.noConfusion h

theorem isError_eq_false {outcome : Except ε ρ} (h : isError outcome = false) :
    ∃ result, outcome = .ok result := by
  cases outcome with
  | error err => exact Bool.noConfusion h
  | ok result => exact ⟨result, rfl⟩

theorem executed_eq {retries k : ℕ} {outcomes : ℕ → Except ε ρ} (hk : k ≤ retries)
    (hfails : ∀ i < k, isError (outcomes i) = true)
    (hstop : k = retries ∨ isError (outcomes k) = false) :
    executed retries outcomes
      = (List.range (k + 1)).map DbEvent.attempt ++ answer k (outcomes k) false := by
  have hretried : (List.range k).flatMap (fun i => attemptFunction i (outcomes i) true)
      = (List.range k).map DbEvent.attempt := by
    rw [List.map_eq_flatMap]
    refine List.flatMap_congr fun i hi => ?_
    obtain ⟨err, herr⟩ := isError_eq_true (hfails i (List.mem_range.mp hi))
    rw [herr]
    rfl
  rw [executed, attempt_eq, made_eq hk hfails hstop, ← List.range_eq_range', hretried, Nat.zero_add,
    List.range_succ, List.map_append, List.append_assoc]
  rfl

theorem filter_attempts (p : DbEvent ρ ε → Bool) (hp : ∀ n, p (.attempt n) = false) (k : ℕ) :
    ((List.range k).map DbEvent.attempt).filter p = [] := by
  rw [List.filter_eq_nil_iff]
  intro e he
  obtain ⟨n, -, rfl⟩ := List.mem_map.mp he
  rw [hp]
  decide

/-- An operation with its own number of retries applies that policy. -/
theorem appliesPolicy_executed (retries : ℕ) (outcomes : ℕ → Except ε ρ) :
    AppliesPolicy retries outcomes (executed retries outcomes) := by
  constructor
  · intro k hk result hok hfails
    have hstop : isError (outcomes k) = false := by rw [hok]; rfl
    rw [executed_eq hk hfails (.inr hstop), List.filter_append, filter_attempts _ fun _ => rfl, hok]
    refine ⟨rfl, fun n err => ?_⟩
    simp [answer]
  · intro hfails
    obtain ⟨err, herr⟩ := isError_eq_true (hfails retries le_rfl)
    rw [executed_eq le_rfl (fun i hi => hfails i hi.le) (.inl rfl), List.filter_append,
      filter_attempts _ fun _ => rfl, herr]
    refine ⟨⟨err, rfl, rfl⟩, fun n hn => ?_⟩
    simp [answer]
    omega

/-- The declared policy does not reach the library. -/
theorem executeWithRetry_eq (outcomes : ℕ → Except ε ρ) :
    executeWithRetry outcomes = executed 10 outcomes := rfl

/-- With fewer retries than the policy has, an error is answered too early. -/
theorem not_appliesPolicy_of_fails {retries declared : ℕ} (h : retries < declared)
    {outcomes : ℕ → Except ε ρ} (hfails : ∀ i ≤ retries, isError (outcomes i) = true) :
    ¬ AppliesPolicy declared outcomes (executed retries outcomes) := by
  intro hpolicy
  obtain ⟨⟨err, -, herr⟩, -⟩ := (appliesPolicy_executed retries outcomes).fails hfails
  rcases fails_or_first isError outcomes declared with hall | ⟨k, hk, hok, hbefore⟩
  · obtain ⟨⟨err', -, herr'⟩, -⟩ := hpolicy.fails hall
    rw [herr, List.singleton_inj, DbEvent.onError.injEq] at herr'
    omega
  · -- the first success comes after the error was already answered
    obtain ⟨result, hresult⟩ := isError_eq_false hok
    have hmem : .onError retries err ∈ (executed retries outcomes).filter DbEvent.isFailure := by
      rw [herr]
      exact List.mem_singleton_self _
    exact (hpolicy.succeeds k hk result hresult hbefore).2 _ _ (List.mem_of_mem_filter hmem)

/-- It is then applied only where the retries are enough. -/
theorem appliesPolicy_executed_iff {retries declared : ℕ} (h : retries < declared)
    (outcomes : ℕ → Except ε ρ) : AppliesPolicy declared outcomes (executed retries outcomes) ↔
      ∃ k ≤ retries, isError (outcomes k) = false := by
  have hown := appliesPolicy_executed retries outcomes
  constructor
  · intro hpolicy
    rcases fails_or_first isError outcomes retries with hall | ⟨k, hk, hok, -⟩
    · exact absurd hpolicy (not_appliesPolicy_of_fails h hall)
    · exact ⟨k, hk, hok⟩
  · rintro ⟨k, hk, hok⟩
    refine ⟨fun j hj result hres hbefore => ?_, fun hfails => ?_⟩
    · refine hown.succeeds j (Nat.not_lt.mp fun hlt => ?_) result hres hbefore
      rw [hbefore k (hk.trans_lt hlt)] at hok
      exact absurd hok (by decide)
    · rw [hfails k (hk.trans h.le)] at hok
      exact absurd hok (by decide)

/-- For every sequence of outcomes: the declared policy is applied iff one of the first 11 attempts
    succeeds. -/
theorem appliesPolicy_executeWithRetry_iff (outcomes : ℕ → Except ε ρ) :
    AppliesPolicy retryOptions.retries outcomes (executeWithRetry outcomes) ↔
      ∃ k ≤ 10, isError (outcomes k) = false := by
  rw [executeWithRetry_eq]
  exact appliesPolicy_executed_iff (by decide) outcomes

end

/-- The database is down for 11 attempts. -/
def elevenFailures (n : ℕ) : Except String ℕ := if n ≤ 10 then .error "ECONNREFUSED" else .ok n

/-- The twelfth attempt would succeed, and the error is answered after the eleventh. -/
theorem not_appliesPolicy_elevenFailures :
    elevenFailures 11 = .ok 11 ∧ .onError 10 "ECONNREFUSED" ∈ executeWithRetry elevenFailures ∧
      .attempt 11 ∉ executeWithRetry elevenFailures ∧
      ¬ AppliesPolicy retryOptions.retries elevenFailures (executeWithRetry elevenFailures) := by
  refine ⟨rfl, by decide, by decide, fun h => ?_⟩
  have hanswered := (h.succeeds 11 (by decide) 11 rfl (by decide)).2 10 "ECONNREFUSED"
  exact hanswered (by decide)

end Elephant.Persistence
