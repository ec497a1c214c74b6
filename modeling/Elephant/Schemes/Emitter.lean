import Mathlib.Data.List.Basic

/-! Event emitters, after Node's `EventEmitter`.

    A listener waits for the events of one name and acts on a state. An event runs the listeners of
    its name in the order of their registration. One registered with `once` is taken off the list
    before it runs, one registered with `on` stays:

        on a f, once b g   ──a──▶  f runs, both stay
                           ──b──▶  g runs, f stays -/

namespace Elephant.Schemes

/-- A listener for the events named `name`. -/
structure Listener (ν ε σ : Type) where
  name : ν
  once : Bool
  run : ε → σ → σ

structure Emitter (ν ε σ : Type) where
  listeners : List (Listener ν ε σ)
  state : σ

namespace Emitter

variable {ν ε σ : Type} [DecidableEq ν]

def create (s : σ) : Emitter ν ε σ := ⟨[], s⟩

/-- `emitter.on name, run`. -/
def on (em : Emitter ν ε σ) (name : ν) (run : ε → σ → σ) : Emitter ν ε σ :=
  { em with listeners := em.listeners ++ [⟨name, false, run⟩] }

/-- `emitter.once name, run`. -/
def once (em : Emitter ν ε σ) (name : ν) (run : ε → σ → σ) : Emitter ν ε σ :=
  { em with listeners := em.listeners ++ [⟨name, true, run⟩] }

variable (nameOf : ε → ν)

def emit (em : Emitter ν ε σ) (e : ε) : Emitter ν ε σ where
  listeners := em.listeners.filter fun l => !(l.once && decide (l.name = nameOf e))
  state := (em.listeners.filter fun l => l.name = nameOf e).foldl (fun s l => l.run e s) em.state

def emitAll (em : Emitter ν ε σ) (es : List ε) : Emitter ν ε σ := es.foldl (emit nameOf) em

variable {nameOf}

@[simp] theorem emitAll_nil (em : Emitter ν ε σ) : em.emitAll nameOf [] = em := rfl

@[simp] theorem emitAll_cons (em : Emitter ν ε σ) (e : ε) (es : List ε) :
    em.emitAll nameOf (e :: es) = (em.emit nameOf e).emitAll nameOf es := rfl

theorem emitAll_append (em : Emitter ν ε σ) (es fs : List ε) :
    em.emitAll nameOf (es ++ fs) = (em.emitAll nameOf es).emitAll nameOf fs := List.foldl_append

/-! ### A lasting listener, alone or with one that is spent by its first event -/

section

variable {a b : ν} {f g : ε → σ → σ} {s : σ} {e : ε}

/-- The lasting listener alone. -/
theorem emit_on (he : nameOf e = a) :
    emit nameOf ⟨[⟨a, false, f⟩], s⟩ e = ⟨[⟨a, false, f⟩], f e s⟩ := by
  simp [emit, he]

theorem emit_on_other (he : nameOf e ≠ a) :
    emit nameOf ⟨[⟨a, false, f⟩], s⟩ e = ⟨[⟨a, false, f⟩], s⟩ := by
  simp [emit, Ne.symm he]

/-- Both are waiting, and the event is for the lasting one. -/
theorem emit_on_once (hab : a ≠ b) (he : nameOf e = a) :
    emit nameOf ⟨[⟨a, false, f⟩, ⟨b, true, g⟩], s⟩ e = ⟨[⟨a, false, f⟩, ⟨b, true, g⟩], f e s⟩ := by
  simp [emit, he, Ne.symm hab]

/-- The event is for the other one, which is then gone. -/
theorem emit_once (hab : a ≠ b) (he : nameOf e = b) :
    emit nameOf ⟨[⟨a, false, f⟩, ⟨b, true, g⟩], s⟩ e = ⟨[⟨a, false, f⟩], g e s⟩ := by
  simp [emit, he, hab]

end

end Emitter

end Elephant.Schemes
