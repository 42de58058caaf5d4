import Statechart.Proofs.Actor.System
import Statechart.Proofs.Actor.Turn
import Statechart.Actor.Interpreter
/-!
# The building blocks of an interpreter

An interpreter does three kinds of work: work on its system (`sys`), a
macrostep of its root in a fresh scope (`onRoot`), and showing its observers
a snapshot (`notify`). Each gets one rule here, so that what is proved of the
system and of a macrostep carries over to the interpreter without unfolding
the monads again.

A call refused for the root's status is no macrostep: the interpreter and
the journal are handed back as they were, with the error the call gives.
-/
namespace Statechart

namespace MachineActor

variable {ν β C E σ : Type}

/-- A running actor refuses to start again, as it is and in the scope it was given. -/
theorem run_start_of_running (spawn : Spawner ν β E σ) (rt : MachineActor C E σ)
    (h : rt.status = .running) (sc : Scope β E) (l : Ledger ν) :
    ((rt.start spawn).run sc).run l = (((rt, .error (.alreadyStarted sc.actor.name)), sc), l) := by
  simp only [MachineActor.start, h]
  rfl

theorem run_start_of_stopped (spawn : Spawner ν β E σ) (rt : MachineActor C E σ)
    (h : rt.status = .stopped) (sc : Scope β E) (l : Ledger ν) :
    ((rt.start spawn).run sc).run l = (((rt, .error (.notRunning sc.actor.name .stopped)), sc), l) := by
  simp only [MachineActor.start, h]
  rfl

end MachineActor

namespace Interpreter

variable {C E σ β α : Type}

/-- Work on the system keeps of the interpreter what it keeps of the system. -/
theorem sys_spec {x : Sys (Snapshot C) β E α} {P : System β E → Prop} {Q : α → System β E → Prop}
    (hx : Spec P x Q) {P' : Interpreter C E σ β → Prop} {Q' : α → Interpreter C E σ β → Prop}
    (hpre : ∀ i, P' i → P i.system) (hpost : ∀ i a s, P' i → Q a s → Q' a { i with system := s }) :
    Spec P' (sys x) Q' :=
  fun i l hi => hpost i _ _ hi (hx i.system l (hpre i hi))

/-- A macrostep of the root runs in the scope of the root, and hands back the
commands its scope recorded when it succeeds. -/
theorem onRoot_run
    (step : MachineActor C E σ → Turn (Snapshot C) β E (MachineActor C E σ × Except RuntimeError Unit))
    (i : Interpreter C E σ β) (l : Ledger (Snapshot C)) :
    ((onRoot step).run i).run l =
      (((((step i.root).run (i.system.scopeFor i.system.root)).run l).1.1.2.map
          (fun _ => (((step i.root).run (i.system.scopeFor i.system.root)).run l).1.2.commands.toList),
        { i with root := (((step i.root).run (i.system.scopeFor i.system.root)).run l).1.1.1 }),
        (((step i.root).run (i.system.scopeFor i.system.root)).run l).2) := rfl

/-- What a macrostep of the root gives, the interpreter gives with the root replaced. -/
theorem onRoot_spec
    {step : MachineActor C E σ → Turn (Snapshot C) β E (MachineActor C E σ × Except RuntimeError Unit)}
    {P : Interpreter C E σ β → Prop} {Q : Except RuntimeError (List (Command β E)) → Interpreter C E σ β → Prop}
    (h : ∀ i, P i → Turn.Returns (step i.root) fun p =>
      ∀ res : Except RuntimeError (List (Command β E)), res.map (fun _ => ()) = p.2 →
        Q res { i with root := p.1 }) :
    Spec P (onRoot step) Q := by
  intro i l hi
  rw [onRoot_run]
  refine h i hi (i.system.scopeFor i.system.root) l _ ?_
  cases (((step i.root).run (i.system.scopeFor i.system.root)).run l).1.1.2 <;> rfl

theorem notify_keeps (Q : Interpreter C E σ β → Prop) : Spec Q (notify : Run C E σ β Unit) fun _ => Q :=
  Spec.bind Spec.get fun _ => Spec.bind (Spec.forIn fun _ _ =>
    Spec.bind (Spec.liftM fun _ _ h => h) fun _ => Spec.pure fun _ h => h) fun _ => Spec.pure fun _ h => h.2

theorem takeRootStop_state (i : Interpreter C E σ β) (l : Ledger (Snapshot C)) :
    ((takeRootStop.run i).run l).1.2 = { i with system := { i.system with rootStopRequested := false } } :=
  rfl

/-! ## Refused calls -/

theorem stop_of_stopped (i : Interpreter C E σ β) (h : i.root.status = .stopped) (l : Ledger (Snapshot C)) :
    (stop.run i).run l = ((.ok (), i), l) := by
  rw [stop, run_bind, run_get]
  dsimp only
  rw [h]
  rfl

theorem stop_of_notStarted (i : Interpreter C E σ β) (h : i.root.status = .notStarted)
    (l : Ledger (Snapshot C)) : (stop.run i).run l = ((.error i.notRunning, i), l) := by
  rw [stop, run_bind, run_get]
  dsimp only
  rw [h]
  rfl

variable [Event E]

theorem start_of_running (n : Nursery C E σ β) (i : Interpreter C E σ β) (h : i.root.status = .running)
    (l : Ledger (Snapshot C)) :
    ((start n).run i).run l = ((.error (.alreadyStarted i.system.root.name), i), l) := by
  rw [start, run_bind, onRoot_run, MachineActor.run_start_of_running _ _ h]
  rfl

theorem start_of_stopped (n : Nursery C E σ β) (i : Interpreter C E σ β) (h : i.root.status = .stopped)
    (l : Ledger (Snapshot C)) : ((start n).run i).run l = ((.error i.notRunning, i), l) := by
  rw [start, run_bind, onRoot_run, MachineActor.run_start_of_stopped _ _ h]
  simp only [notRunning, h]
  rfl

/-- A root that does not run takes no event: an empty event type is refused
first, any other for the status. -/
theorem send_of_not_running (n : Nursery C E σ β) (i : Interpreter C E σ β) (h : i.root.status ≠ .running)
    (event : E) (l : Ledger (Snapshot C)) :
    ((send n event).run i).run l =
      ((if Event.eventType event = "" then .error .reservedEventType else .error i.notRunning, i), l) := by
  unfold send
  split <;> simp_all <;> rfl

end Interpreter

end Statechart
