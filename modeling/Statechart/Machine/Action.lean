import Statechart.Actor.Scope
/-!
# Guards and actions

A guard decides, from the context and the triggering event (none while
entering the initial configuration or taking eventless transitions), whether a
candidate may fire; it may also fail with a message.

An action runs against the context: an assignment replaces the context at
once, so later actions of the same macrostep see it; sends, spawns and stops
are recorded on the scope and reach other actors only when the macrostep is
committed; an effect writes lines to the journal, which are kept even if the
macrostep later fails.

`σ` is what a spawn asks for: the description of a child, which whoever runs
the machine turns into a started actor.
-/
namespace Statechart

/-- A guard over a context `C` and an optional event `E`. -/
def Guard (C E : Type) := C → Option E → Except String Bool

instance : Inhabited (Guard C E) := ⟨fun _ _ => .ok true⟩

/-- A guard that cannot fail. -/
def Guard.ofPredicate (p : C → Option E → Bool) : Guard C E := fun c e => .ok (p c e)

/-- An action of a machine with context `C`, events `E` and child descriptions `σ`. -/
inductive Action (C E σ : Type) where
  /-- Replaces the context. -/
  | assign (reducer : C → Option E → C)
  /-- Sends the payload, if any, to a target, through a timer when delayed. -/
  | send (target : Target) (payload : C → Option E → Option E) (delay : Option Duration)
  /-- Spawns a named child; `store` keeps its reference in the context. -/
  | spawn (name : String) (factory : C → Option E → σ) (store : Option (C → ActorRef → C))
  | stop (target : Target)
  /-- Writes lines; the context is untouched. -/
  | effect (callback : C → Option E → List String)

instance : Inhabited (Action C E σ) := ⟨.assign fun c _ => c⟩

namespace Action

/-- An action sending an event computed from the context and event. -/
def sendTo (target : Target) (event : C → Option E → E) : Action C E σ :=
  .send target (fun c e => some (event c e)) none

/-- Sends an event to the actor itself, behind the current macrostep. -/
def raise (event : C → Option E → E) : Action C E σ := sendTo .itself event

def sendParent (event : C → Option E → E) : Action C E σ := sendTo .parent event

/-- Sends an event to a live child, found by name on delivery. -/
def sendToChild (name : String) (event : C → Option E → E) : Action C E σ :=
  sendTo (.child name) event

/-- The action as a debugging aid prints it. -/
def debug (label : ActorId → String) : Action C E σ → String
  | .assign _ => "Assign"
  | .send target _ delay =>
    let d := match delay with
      | some d => "Some(" ++ d.debug ++ ")"
      | none => "None"
    "Send \x7b to: " ++ target.debug label ++ ", delay: " ++ d ++ " \x7d"
  | .spawn name _ _ => "Spawn \x7b name: " ++ Text.debugQuote name ++ " \x7d"
  | .stop target => "Stop(" ++ target.render label ++ ")"
  | .effect _ => "Effect"

/-- Runs the action; `spawnChild` makes and starts a child from its description. -/
def execute (spawnChild : String → σ → TurnE ν β E ActorRef) (context : C) (event : Option E) :
    Action C E σ → TurnE ν β E C
  | .assign reducer => pure (reducer context event)
  | .send target payload delay => do
    match payload context event with
    | some e => (Scope.sendAfter target e delay : Turn ν β E Unit)
    | none => pure ()
    pure context
  | .spawn name factory store => do
    let ref ← spawnChild name (factory context event)
    pure (match store with
      | some keep => keep context ref
      | none => context)
  | .stop target => do
    (Scope.stop target : Turn ν β E Unit)
    pure context
  | .effect callback => do
    for line in callback context event do
      (Journal.report (.effect line) : Journal ν Unit)
    pure context

end Action

end Statechart
