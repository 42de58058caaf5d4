import Statechart.Actor.Step
import Statechart.Actor.Error
import Statechart.Actor.Time
/-!
# Scopes and commands

An actor never touches another actor while it handles a message. It records
commands on its scope (sends, spawns and stops), and the system commits them
once the whole macrostep has succeeded; a failed macrostep drops its scope.

A spawn is the exception that is felt at once: the child is made and started
inside the parent's macrostep (a child that fails to start fails the parent),
and its reference can be used right away. It joins the tree when the command
is committed.
-/
namespace Statechart

/-- Tunables shared by every actor of an interpreter. -/
structure Options where
  /-- Eventless transitions allowed in one macrostep. -/
  maxEventlessSteps : Nat := 1000
  /-- Transition records kept per actor. -/
  historyLimit : Nat := 100
  deriving DecidableEq, Repr, Inhabited

/-- Work an actor hands to the system; `β` is the type of actor instances. -/
inductive Command (β E : Type) where
  | send (target : Target) (event : E) (delay : Option Duration)
  /-- A started child, with the commands its start produced. -/
  | spawn (actor : ActorRef) (cell : β) (commands : List (Command β E))
  | stop (target : Target)
  deriving Inhabited

/-- What an actor sees of the system while it handles one message. -/
structure Scope (β E : Type) where
  actor : ActorRef
  parent : Option ActorRef
  /-- Names of live children, as far as this macrostep knows. -/
  children : List String
  commands : Array (Command β E) := #[]
  /-- Whether diagnostics are reported. -/
  hook : Bool
  options : Options

/-- An actor at work on one message: it changes its scope and writes to the journal. -/
abbrev Turn (ν β E : Type) := StateT (Scope β E) (Journal ν)

/-- Work that may fail; the scope and the journal keep what was done. -/
abbrev TurnE (ν β E : Type) := ExceptT RuntimeError (Turn ν β E)

namespace Scope

/-- Queues a send, through a timer when `delay` is given. -/
def sendAfter (target : Target) (event : E) (delay : Option Duration) : Turn ν β E Unit :=
  modify fun s => { s with commands := s.commands.push (.send target event delay) }

def send (target : Target) (event : E) : Turn ν β E Unit := sendAfter target event none

/-- Queues a stop; a child stopped by name is no longer counted as live. -/
def stop (target : Target) : Turn ν β E Unit :=
  modify fun s =>
    let children := match target with
      | .child name => s.children.filter (· != name)
      | _ => s.children
    { s with children, commands := s.commands.push (.stop target) }

/-- Reports a diagnostic if the scope has a hook. -/
def emit (d : Diagnostic) : Turn ν β E Unit := do
  let s ← get
  (Journal.emit s.hook d : Journal ν Unit)

/-- Makes and starts a named child: refused when a live child has the name;
`start` runs the new instance in its own scope, and a failure there fails the
spawn. -/
def spawn (start : β → Turn ν β E (β × Except RuntimeError Unit)) (name : String)
    (cell : β) : TurnE ν β E ActorRef := do
  let s ← get
  if s.children.contains name then
    throw (.duplicateChild s.actor.name name)
  let actor ← (Journal.fresh name : Journal ν ActorRef)
  let childScope : Scope β E :=
    { actor, parent := some s.actor, children := [], hook := s.hook, options := s.options }
  let ((started, outcome), childScope) ← ((start cell).run childScope : Journal ν _)
  match outcome with
  | .error e => throw e
  | .ok () =>
    modify fun s => { s with
      children := s.children ++ [name]
      commands := s.commands.push (.spawn actor started childScope.commands.toList) }
    return actor

end Scope

end Statechart
