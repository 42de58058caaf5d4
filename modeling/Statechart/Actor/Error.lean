import Statechart.State
import Statechart.Actor.Address
/-!
# Errors of running machines

None of these stop an actor: a macrostep that fails is undone and the actor
keeps the configuration it had before.
-/
namespace Statechart

/-- Why a call on a running machine failed. -/
inductive RuntimeError where
  /-- A guard could not be evaluated. -/
  | guard (state guard message : String)
  /-- A spawn reused the name of a live child. -/
  | duplicateChild (parent name : String)
  /-- The actor is not running. -/
  | notRunning (actor : String) (status : ActorStatus)
  /-- A child was committed under a parent that is no longer registered. -/
  | parentGone (parent : ActorId)
  | alreadyStarted (actor : String)
  /-- The empty event type belongs to eventless transitions. -/
  | reservedEventType
  /-- Eventless transitions kept enabling each other. -/
  | eventlessLoop (state : String) (limit : Nat)
  /-- A state value names no state of the machine. -/
  | unknownState (machine value : String)
  /-- Spawns nested deeper than the interpreter follows. -/
  | spawnDepth (actor : String) (limit : Nat)
  /-- A spawn named a machine that is not known. -/
  | unknownMachine (name : String)
  /-- One call delivered its limit of messages and the mailbox is still not empty. -/
  | deliveryLimit (limit : Nat)
  /-- One call slept its limit of times and timers are still pending. -/
  | sleepLimit (limit : Nat)
  deriving DecidableEq, Repr, Inhabited

namespace RuntimeError

def name : RuntimeError → String
  | .guard .. => "Guard"
  | .duplicateChild .. => "DuplicateChild"
  | .notRunning .. | .parentGone .. => "NotRunning"
  | .alreadyStarted .. => "AlreadyStarted"
  | .reservedEventType => "ReservedEventType"
  | .eventlessLoop .. => "EventlessLoop"
  | .unknownState .. => "UnknownState"
  | .spawnDepth .. => "SpawnDepth"
  | .unknownMachine .. => "UnknownMachine"
  | .deliveryLimit .. => "DeliveryLimit"
  | .sleepLimit .. => "SleepLimit"

/-- The error in words; actor ids are written by `label`. -/
def message (label : ActorId → String) : RuntimeError → String
  | .guard s g m => s!"Guard '{g}' in state '{s}' failed: {m}"
  | .duplicateChild p n => s!"Actor '{p}' already has a live child named '{n}'"
  | .notRunning a st => s!"Actor '{a}' is not running ({st.describe})"
  | .parentGone p => s!"Actor '{label p}' is not running ({ActorStatus.stopped.describe})"
  | .alreadyStarted a => s!"Actor '{a}' has already been started"
  | .reservedEventType => "The empty event type is reserved for eventless transitions"
  | .eventlessLoop s l => s!"Eventless transitions from '{s}' did not settle within {l} steps"
  | .unknownState m v => s!"'{v}' is not a state of machine '{m}'"
  | .spawnDepth a l => s!"Actor '{a}' spawned children nested deeper than {l} levels"
  | .unknownMachine n => s!"No machine named '{n}' can be spawned"
  | .deliveryLimit l => s!"Messages were still queued after {l} deliveries in one call"
  | .sleepLimit l => s!"Timers were still pending after {l} sleeps in one call"

end RuntimeError

end Statechart
