import Statechart.Machine.Basic
import Statechart.History
/-!
# Machine actors

A running machine keeps its context, its active configuration, its status
and its history. It handles one message at a time in a macrostep: the trigger
is resolved and the winning transition taken, then eventless transitions are
taken until none is enabled (at most `maxEventlessSteps` of them).

A macrostep either succeeds as a whole or leaves the actor as it was, except
that it then reports no change: context, configuration and the done flag are
restored and its scope, with every command recorded on it, is dropped by the
caller. Transitions are reported and added to the history only once the
macrostep has succeeded; guard evaluations and effects are reported as they
happen.
-/
namespace Statechart

/-- A machine actor. -/
structure MachineActor (C E σ : Type) where
  machine : Machine C E σ
  context : C
  configuration : List Nat := []
  status : ActorStatus := .notStarted
  history : History := {}
  /-- The actor reached a final child of the root. -/
  done : Bool := false
  /-- The last macrostep took a transition. -/
  changed : Bool := false

/-- Makes a child from its description and starts it under a name, inside
the current macrostep. -/
abbrev Spawner (ν β E σ : Type) := String → σ → TurnE ν β E ActorRef

namespace MachineActor

variable {ν β C E σ : Type} [Event E]

/-- A fresh actor for a machine, with the given context. -/
def new (m : Machine C E σ) (context : C) : MachineActor C E σ := { machine := m, context }

def tree (rt : MachineActor C E σ) : StateTree := rt.machine.tree

/-- The state value of the active configuration. -/
def value (rt : MachineActor C E σ) : StateValue := rt.tree.value rt.configuration

/-- Resolves a trigger, reporting every guard evaluated. -/
def resolve (rt : MachineActor C E σ) (trigger : Trigger) (event : Option E) :
    TurnE ν β E (Option Plan) := do
  let (checks, result) :=
    rt.tree.select (lookup rt.machine.guards) rt.configuration rt.context event trigger
  let s ← get
  for c in checks do
    (Scope.emit (.guardEvaluated s.actor c.state c.guard c.result) : Turn ν β E Unit)
  match result with
  | .ok plan => pure plan
  | .error e => throw e

/-- Whether a configuration ends in a final child of the root. -/
def finishes (t : StateTree) (configuration : List Nat) : Bool :=
  match configuration.getLast? with
  | some leaf => (t.node leaf).kind == .final && (t.node leaf).parent == some StateTree.root
  | none => false

/-- Runs the registered actions of a plan in order (an unregistered id is
skipped) and adopts its configuration. -/
def execute (spawn : Spawner ν β E σ) (rt : MachineActor C E σ) (plan : Plan) (event : Option E) :
    TurnE ν β E (MachineActor C E σ) := do
  let mut context := rt.context
  for id in plan.actions do
    match lookup rt.machine.actions id with
    | some a => context ← a.execute spawn context event
    | none => pure ()
  return { rt with context, configuration := plan.configuration, changed := true,
                   done := rt.done || finishes rt.tree plan.configuration }

/-- Takes a plan, recording the transition unless it is targetless. -/
def take (spawn : Spawner ν β E σ) (rt : MachineActor C E σ) (records : List Record) (plan : Plan)
    (event : Option E) : TurnE ν β E (MachineActor C E σ × List Record) := do
  let source := rt.value
  let rt ← rt.execute spawn plan event
  let records := if plan.isTargetless then records
    else records ++ [{ source, target := plan.value, trigger := plan.trigger }]
  return (rt, records)

/-- Takes eventless transitions until none is enabled or the actor is done;
`remaining` more may be taken, and one enabled beyond them is an error that
names `limit`. -/
def settle (spawn : Spawner ν β E σ) (limit : Nat) (event : Option E) :
    Nat → MachineActor C E σ → List Record → TurnE ν β E (MachineActor C E σ × List Record)
  | remaining, rt, records => do
    if rt.done then return (rt, records)
    match ← rt.resolve .always event with
    | none => return (rt, records)
    | some plan =>
      match remaining with
      | 0 => throw (.eventlessLoop plan.source limit)
      | r + 1 =>
        let (rt, records) ← rt.take spawn records plan event
        settle spawn limit event r rt records

/-- Eventless transitions after a step, at most `maxEventlessSteps` of them. -/
def settleAll (spawn : Spawner ν β E σ) (event : Option E) (rt : MachineActor C E σ)
    (records : List Record) : TurnE ν β E (MachineActor C E σ × List Record) := do
  let limit := (← get).options.maxEventlessSteps
  settle spawn limit event limit rt records

/-- Runs a macrostep: on success its transitions are reported and recorded;
on failure the actor is restored and reports no change. -/
def transact (rt : MachineActor C E σ)
    (step : MachineActor C E σ → TurnE ν β E (MachineActor C E σ × List Record)) :
    Turn ν β E (MachineActor C E σ × Except RuntimeError Unit) := do
  match ← (step rt).run with
  | .error e => return ({ rt with changed := false }, .error e)
  | .ok (next, records) =>
    let s ← get
    let mut history := next.history
    for r in records do
      Scope.emit (.transitioned s.actor r.source r.target r.trigger)
      history := history.record r
    return ({ next with history }, .ok ())

/-- Enters the initial configuration and settles; only a fresh actor starts. -/
def start (spawn : Spawner ν β E σ) (rt : MachineActor C E σ) :
    Turn ν β E (MachineActor C E σ × Except RuntimeError Unit) := do
  let s ← get
  match rt.status with
  | .running => return (rt, .error (.alreadyStarted s.actor.name))
  | .stopped => return (rt, .error (.notRunning s.actor.name rt.status))
  | .notStarted =>
    let rt := { rt with history := rt.history.setLimit s.options.historyLimit }
    let (rt, outcome) ← rt.transact fun rt => do
      let rt ← rt.execute spawn rt.tree.initialPlan none
      settleAll spawn none rt []
    match outcome with
    | .ok () => return ({ rt with status := .running }, .ok ())
    | .error e => return (rt, .error e)

/-- Handles one event to completion; an event nothing handles is reported and dropped. -/
def receive (spawn : Spawner ν β E σ) (rt : MachineActor C E σ) (event : E) :
    Turn ν β E (MachineActor C E σ × Except RuntimeError Unit) := do
  let s ← get
  if rt.status != .running then
    return (rt, .error (.notRunning s.actor.name rt.status))
  let rt := { rt with changed := false }
  let trigger := Trigger.ofEvent event
  rt.transact fun rt => do
    match ← rt.resolve trigger (some event) with
    | some plan =>
      let (rt, records) ← rt.take spawn [] plan (some event)
      settleAll spawn (some event) rt records
    | none =>
      (Scope.emit (.unhandledEvent s.actor (Event.eventType event) rt.value) : Turn ν β E Unit)
      return (rt, [])

/-- Marks the actor stopped; no action runs. -/
def stop (rt : MachineActor C E σ) : MachineActor C E σ := { rt with status := .stopped }

end MachineActor

end Statechart
