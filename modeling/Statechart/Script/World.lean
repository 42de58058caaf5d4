import Statechart.Script.Echo
import Statechart.Actor.Interpreter
/-!
# Scripted interpreters

The actors of a scripted interpreter are scripted machines and echo actors.
A machine child is made from a named machine of a library, with the context
its spawn computed or else the machine's default one.

Starting an actor may spawn children, whose start may spawn more: the depth
of such nesting within one macrostep is bounded by `spawnDepthBound`.
-/
namespace Statechart.Script

/-- An actor below the root of a scripted interpreter. -/
inductive Cell where
  | machine (rt : MachineActor Context Signal ChildSpec)
  | echo (e : Echo)
  deriving Inhabited

/-- Built machines by name. -/
abbrev Library := List (String × ScriptMachine)

/-- What an observer of a scripted interpreter is shown. -/
abbrev View := Snapshot Context

/-- A scripted interpreter. -/
abbrev Session := Interpreter Context Signal ChildSpec Cell

/-- Nested spawns followed within one macrostep. -/
def spawnDepthBound : Nat := 1000

namespace Cell

/-- A fresh actor for a child description. -/
def ofSpec (lib : Library) : ChildSpec → Except RuntimeError Cell
  | .machine name context =>
    match lookup lib name with
    | some m => .ok (.machine (.new m (context.getD m.context)))
    | none => .error (.unknownMachine name)
  | .echo => .ok (.echo {})

/-- Starts an actor; `depth` bounds the spawns nested below it. -/
def start (lib : Library) : Nat → Cell → Turn View Cell Signal (Cell × Except RuntimeError Unit)
  | 0, c => do
    let s ← get
    return (c, .error (.spawnDepth s.actor.name spawnDepthBound))
  | depth + 1, .machine rt => do
    let spawn : Spawner View Cell Signal ChildSpec := fun name spec => do
      let cell ← liftExcept (ofSpec lib spec)
      Scope.spawn (start lib depth) name cell
    let (rt, outcome) ← rt.start spawn
    return (.machine rt, outcome)
  | _ + 1, .echo e => do
    let (e, outcome) ← e.start
    return (.echo e, outcome)
where
  /-- A failure of the current step. -/
  liftExcept {α : Type} : Except RuntimeError α → TurnE View Cell Signal α
    | .ok a => pure a
    | .error e => throw e

/-- Makes and starts a child from its description. -/
def spawner (lib : Library) : Spawner View Cell Signal ChildSpec := fun name spec => do
  let cell ← start.liftExcept (ofSpec lib spec)
  Scope.spawn (start lib spawnDepthBound) name cell

def receive (lib : Library) : Cell → Signal → Turn View Cell Signal (Cell × Except RuntimeError Unit)
  | .machine rt, event => do
    let (rt, outcome) ← rt.receive (spawner lib) event
    return (.machine rt, outcome)
  | .echo e, event => do
    let (e, outcome) ← e.receive (fun name => Scope.spawn (start lib spawnDepthBound) name (.echo {})) event
    return (.echo e, outcome)

def status : Cell → ActorStatus
  | .machine rt => rt.status
  | .echo e => e.status

def state : Cell → StateValue
  | .machine rt => rt.value
  | .echo e => e.state

def isDone : Cell → Bool
  | .machine rt => rt.done
  | .echo e => e.done

end Cell

/-- How a scripted interpreter makes and runs its actors. -/
def nursery (lib : Library) : Nursery Context Signal ChildSpec Cell :=
  { spawn := Cell.spawner lib
    behaviour := { receive := Cell.receive lib, status := Cell.status, state := Cell.state,
                   isDone := Cell.isDone } }

/-- One request to a scripted interpreter. -/
inductive Request where
  | start
  | send (event : Signal)
  | stop
  /-- Moves the clock by some milliseconds, then by some nanoseconds. -/
  | advance (ms ns : Option Nat)
  | runTimers
  | processTimers
  | subscribe
  | unsubscribe (subscription : Nat)
  /-- Only looks. -/
  | inspect
  deriving Repr, Inhabited

/-- What a request gives back besides the state it leaves. -/
inductive Reply where
  | done
  | fired (count : Nat)
  | subscribed (subscription : Nat)
  | removed (was : Bool)
  deriving DecidableEq, Repr, Inhabited

/-- Performs a request. -/
def perform (lib : Library) : Request → Run Context Signal ChildSpec Cell (Except RuntimeError Reply)
  | .start => return (← Interpreter.start (nursery lib)).map fun () => .done
  | .send e => return (← Interpreter.send (nursery lib) e).map fun () => .done
  | .stop => return (← Interpreter.stop).map fun () => .done
  | .advance ms ns => do
    if let some ms := ms then Interpreter.advance (Duration.ofMillis ms)
    if let some ns := ns then Interpreter.advance ⟨ns⟩
    return .ok .done
  | .runTimers => return (← Interpreter.runTimers (nursery lib)).map fun () => .done
  | .processTimers => return (← Interpreter.processTimers (nursery lib)).map .fired
  | .subscribe => return .ok (.subscribed (← Interpreter.subscribe))
  | .unsubscribe id => return .ok (.removed (← Interpreter.unsubscribe id))
  | .inspect => return .ok .done

/-- The live children of the root with their states and statuses, in name order. -/
def Session.childViews (s : Session) : List (String × StateValue × ActorStatus) :=
  s.children.filterMap fun r =>
    (s.system.cell? r.id).map fun c => (r.name, c.state, c.status)

/-- Builds every definition of a library, in order; the first failure is
returned with the name of its definition. -/
def buildLibrary (refOf : String → ActorRef) (defs : List (String × Definition)) :
    Except (String × BuildError) Library :=
  defs.mapM fun (name, d) => match d.build refOf with
    | .ok m => .ok (name, m)
    | .error e => .error (name, e)

/-- Opens an interpreter on a machine, with the given variables when there are some. -/
def Session.open (m : ScriptMachine) (vars : Option (List (String × Int64))) (clock : Clock)
    (hook : Bool) (options : Options) : Journal View Session :=
  let context := match vars with
    | some vs => { vars := sortedOf vs }
    | none => m.context
  Interpreter.new m context clock hook options

end Statechart.Script
