import Mathlib.Data.List.Infix

/-! Runs of a labelled system.

    A system is a partial step function `step : σ → ε → Option σ`; `none` says that the event is not
    enabled in the state. A run is the left-to-right composition of steps over a list of events. Three
    predicates follow a run: `AllStates P` (every state reached satisfies `P`), `AllSteps C` (every
    step taken meets the condition `C` on the state before it) and `SomeStep C`. The rules at the end are
    what the models use: an invariant carried by the good steps, the unwinding rule, which compares a
    run with the part of it that matters, and the exactness rule, which says when a step condition is
    not only enough but also needed. -/

namespace Elephant.Schemes

variable {σ ε : Type*} (step : σ → ε → Option σ)

/-- The state after the events `es`, `none` as soon as one of them is not enabled. -/
def run : σ → List ε → Option σ
  | s, [] => some s
  | s, e :: es => (step s e).bind fun s' => run s' es

/-- Every state reached along the run, the first one included, satisfies `P`. -/
def AllStates (P : σ → Prop) (s : σ) (es : List ε) : Prop :=
  ∀ pre s', pre <+: es → run step s pre = some s' → P s'

/-- Every step taken along the run meets `C`. -/
def AllSteps (C : σ → ε → Prop) : σ → List ε → Prop
  | _, [] => True
  | s, e :: es => C s e ∧ ∀ s', step s e = some s' → AllSteps C s' es

/-- Some step taken along the run meets `C`. -/
def SomeStep (C : σ → ε → Prop) : σ → List ε → Prop
  | _, [] => False
  | s, e :: es => C s e ∨ ∃ s', step s e = some s' ∧ SomeStep C s' es

variable {step}

@[simp] theorem run_nil (s : σ) : run step s [] = some s := rfl

theorem run_cons (s : σ) (e : ε) (es : List ε) :
    run step s (e :: es) = (step s e).bind fun s' => run step s' es := rfl

/-- A run over a nonempty list of events is a first step followed by a run. -/
theorem run_cons_some {s s' : σ} {e : ε} {es : List ε} :
    run step s (e :: es) = some s' ↔ ∃ t, step s e = some t ∧ run step t es = some s' := by
  rw [run_cons, Option.bind_eq_some_iff]

theorem run_append_some {s s' : σ} {es fs : List ε} :
    run step s (es ++ fs) = some s' ↔ ∃ t, run step s es = some t ∧ run step t fs = some s' := by
  induction es generalizing s with
  | nil => simp
  | cons e es ih =>
    simp only [List.cons_append, run_cons_some, ih]
    constructor
    · rintro ⟨t, ht, u, hu, hfs⟩; exact ⟨u, ⟨t, ht, hu⟩, hfs⟩
    · rintro ⟨u, ⟨t, ht, hu⟩, hfs⟩; exact ⟨t, ht, u, hu, hfs⟩

theorem allStates_nil {P : σ → Prop} {s : σ} : AllStates step P s ([] : List ε) ↔ P s := by
  constructor
  · intro h; exact h [] s (List.prefix_refl _) rfl
  · intro h pre s' hpre hrun
    rw [List.prefix_nil] at hpre; subst hpre
    rw [run_nil, Option.some.injEq] at hrun; subst hrun; exact h

theorem allStates_cons {P : σ → Prop} {s : σ} {e : ε} {es : List ε} :
    AllStates step P s (e :: es) ↔ P s ∧ ∀ s', step s e = some s' → AllStates step P s' es := by
  constructor
  · intro h
    refine ⟨h [] s List.nil_prefix rfl, fun t ht pre s' hpre hrun => ?_⟩
    exact h (e :: pre) s' ((List.prefix_cons_inj e).mpr hpre) (run_cons_some.mpr ⟨t, ht, hrun⟩)
  · rintro ⟨h0, h⟩ pre s' hpre hrun
    rcases List.prefix_cons_iff.mp hpre with rfl | ⟨pre', rfl, hpre'⟩
    · rw [run_nil, Option.some.injEq] at hrun; subst hrun; exact h0
    · obtain ⟨t, ht, hrun'⟩ := run_cons_some.mp hrun
      exact h t ht pre' s' hpre' hrun'

/-- Invariant rule: what every step meeting `C` preserves holds at the end of a run of such steps. -/
theorem inv_run {I : σ → Prop} {C : σ → ε → Prop}
    (hstep : ∀ s e s', I s → C s e → step s e = some s' → I s') :
    ∀ {es : List ε} {s s' : σ}, I s → AllSteps step C s es → run step s es = some s' → I s'
  | [], s, s', hs, _, hrun => by
      rw [run_nil, Option.some.injEq] at hrun; subst hrun; exact hs
  | e :: es, s, s', hs, hC, hrun => by
      obtain ⟨t, ht, hrun'⟩ := run_cons_some.mp hrun
      exact inv_run hstep (hstep s e t hs hC.1 ht) (hC.2 t ht) hrun'

theorem allSteps_initial {C : σ → ε → Prop} :
    ∀ {pre es : List ε} {s : σ}, pre <+: es → AllSteps step C s es → AllSteps step C s pre
  | [], _, _, _, _ => trivial
  | e :: pre, es, s, hpre, hC => by
      obtain ⟨es', rfl, hpre'⟩ := List.cons_prefix_iff.mp hpre
      exact ⟨hC.1, fun t ht => allSteps_initial hpre' (hC.2 t ht)⟩

theorem allSteps_of_forall {C : σ → ε → Prop} :
    ∀ {es : List ε} {s : σ}, (∀ e ∈ es, ∀ s, C s e) → AllSteps step C s es
  | [], _, _ => trivial
  | e :: _, s, h => ⟨h e (List.mem_cons_self ..) s, fun _ _ =>
      allSteps_of_forall fun e' he' => h e' (List.mem_cons_of_mem _ he')⟩

theorem allSteps_true (s : σ) (es : List ε) : AllSteps step (fun _ _ => True) s es :=
  allSteps_of_forall fun _ _ _ => trivial

/-- A step that does not meet `C` leaves it to the others. -/
theorem someStep_cons_of_not {C : σ → ε → Prop} {s s' : σ} {e : ε} {es : List ε} (h : ¬ C s e)
    (hstep : step s e = some s') : SomeStep step C s (e :: es) ↔ SomeStep step C s' es := by
  constructor
  · rintro (hC | ⟨t, ht, hsome⟩)
    · exact absurd hC h
    · obtain rfl := Option.some.inj (hstep.symm.trans ht)
      exact hsome
  · exact fun hsome => .inr ⟨s', hstep, hsome⟩

theorem AllSteps.mono {C D : σ → ε → Prop} (h : ∀ s e, C s e → D s e) :
    ∀ {es : List ε} {s : σ}, AllSteps step C s es → AllSteps step D s es
  | [], _, _ => trivial
  | _ :: _, _, hC => ⟨h _ _ hC.1, fun t ht => AllSteps.mono h (hC.2 t ht)⟩

instance decidableAllSteps {C : σ → ε → Prop} [∀ s e, Decidable (C s e)] :
    ∀ (s : σ) (es : List ε), Decidable (AllSteps step C s es)
  | _, [] => isTrue trivial
  | s, e :: es =>
    match h : step s e with
    | none => decidable_of_iff (C s e) ⟨fun hC => ⟨hC, fun t ht => by simp [h] at ht⟩, And.left⟩
    | some t =>
      have := decidableAllSteps (C := C) t es
      decidable_of_iff (C s e ∧ AllSteps step C t es)
        ⟨fun hC => ⟨hC.1, fun u hu => by rw [h, Option.some.injEq] at hu; exact hu ▸ hC.2⟩,
          fun hC => ⟨hC.1, hC.2 t h⟩⟩

/-- The events of a run that are kept, each judged in the state it happens in. -/
def purge (step : σ → ε → Option σ) (keep : σ → ε → Bool) : σ → List ε → List ε
  | _, [] => []
  | s, e :: es =>
    (if keep s e then [e] else []) ++ ((step s e).elim [] fun s' => purge step keep s' es)

/-- Unwinding rule: when kept events keep two states alike and the others are not seen in the second,
    a run and the run of its kept events end alike. -/
theorem run_purge {R : σ → σ → Prop} {keep : σ → ε → Bool}
    (hkept : ∀ s t e s', R s t → keep s e = true → step s e = some s' →
      ∃ t', step t e = some t' ∧ R s' t')
    (hpurged : ∀ s t e s', R s t → keep s e = false → step s e = some s' → R s' t) :
    ∀ {es : List ε} {s t s' : σ}, R s t → run step s es = some s' →
      ∃ t', run step t (purge step keep s es) = some t' ∧ R s' t'
  | [], s, t, s', hR, hrun => by
      rw [run_nil, Option.some.injEq] at hrun; subst hrun
      exact ⟨t, rfl, hR⟩
  | e :: es, s, t, s', hR, hrun => by
      obtain ⟨u, hu, hrun'⟩ := run_cons_some.mp hrun
      rw [purge, hu, Option.elim_some]
      cases hkeep : keep s e with
      | true =>
        obtain ⟨v, hv, hR'⟩ := hkept s t e u hR hkeep hu
        obtain ⟨t', ht', hend⟩ := run_purge hkept hpurged hR' hrun'
        exact ⟨t', run_cons_some.mpr ⟨v, hv, ht'⟩, hend⟩
      | false =>
        obtain ⟨t', ht', hend⟩ := run_purge hkept hpurged (hpurged s t e u hR hkeep hu) hrun'
        exact ⟨t', ht', hend⟩

/-- Exactness rule: when good steps keep `I`, `I` gives `P`, and a bad step out of an `I` state
    reaches a state without `P`, then a run keeps `P` throughout iff all its steps are good. -/
theorem allStates_iff_allSteps {I P : σ → Prop} {C : σ → ε → Prop}
    (hgood : ∀ s e s', I s → C s e → step s e = some s' → I s')
    (hP : ∀ s, I s → P s)
    (hbad : ∀ s e s', I s → ¬ C s e → step s e = some s' → ¬ P s') :
    ∀ {es : List ε} {s : σ}, I s → (∃ s', run step s es = some s') →
      (AllStates step P s es ↔ AllSteps step C s es)
  | [], s, hs, _ => by
      rw [allStates_nil]; exact ⟨fun _ => trivial, fun _ => hP s hs⟩
  | e :: es, s, hs, ⟨s', hrun⟩ => by
      obtain ⟨t, ht, hrun'⟩ := run_cons_some.mp hrun
      rw [allStates_cons]
      constructor
      · rintro ⟨_, h⟩
        have hC : C s e := by
          by_contra hn
          exact hbad s e t hs hn ht (h t ht [] t List.nil_prefix rfl)
        refine ⟨hC, fun u hu => ?_⟩
        rw [ht, Option.some.injEq] at hu; subst hu
        exact (allStates_iff_allSteps hgood hP hbad (hgood s e t hs hC ht) ⟨s', hrun'⟩).mp (h t ht)
      · rintro ⟨hC, h⟩
        refine ⟨hP s hs, fun u hu => ?_⟩
        rw [ht, Option.some.injEq] at hu; subst hu
        exact (allStates_iff_allSteps hgood hP hbad (hgood s e t hs hC ht) ⟨s', hrun'⟩).mpr (h t ht)

end Elephant.Schemes
