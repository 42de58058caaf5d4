import Statechart.State
import Statechart.Trigger
import Statechart.Actor.Address
/-!
# Diagnostics

Noteworthy things that happen inside an interpreter, reported in the order
they happen when a hook is installed.
-/
namespace Statechart

/-- Where a dropped send was going: a target that named no actor (the parent
of the root), or an address with no live actor behind it. -/
inductive Destination where
  | target (t : Target)
  | address (a : Address)
  deriving DecidableEq, Repr, Inhabited

/-- The destination in words. -/
def Destination.render (label : ActorId → String) : Destination → String
  | .target t => t.render label
  | .address a => a.render label

/-- Something that happened inside an interpreter. -/
inductive Diagnostic where
  /-- A guard was evaluated while resolving a trigger. -/
  | guardEvaluated (actor : ActorRef) (state guard : String) (result : Bool)
  /-- A transition was committed. -/
  | transitioned (actor : ActorRef) (source target : StateValue) (trigger : Trigger)
  /-- Nothing on the active path handled an event; it was dropped. -/
  | unhandledEvent (actor : ActorRef) (eventType : String) (state : StateValue)
  /-- A send found no live recipient. -/
  | droppedSend (sender : ActorRef) (destination : Destination) (eventType : String)
  | spawned (parent child : ActorRef)
  | stopped (actor : ActorRef)
  deriving DecidableEq, Repr, Inhabited

/-- Whether diagnostics are reported, written as a debugging aid prints it. -/
def hookDebug (hook : Bool) : String :=
  s!"Diagnostics \x7b hook: {hook} \x7d"

end Statechart
