/-!
# Triggers

A transition fires on a named event type or eventlessly. The empty event type
is reserved: as a key of a configuration it means the eventless trigger.
-/
namespace Statechart

/-- What a candidate transition waits for. -/
inductive Trigger where
  | event (type : String)
  | always
  deriving DecidableEq, Repr, Inhabited

namespace Trigger

/-- The trigger a configuration key stands for: the empty key is eventless. -/
def ofKey (key : String) : Trigger :=
  if key.isEmpty then .always else .event key

/-- Whether the trigger is the eventless one. -/
def isAlways : Trigger → Bool
  | .always => true
  | .event _ => false

/-- The event type of the trigger; empty for the eventless trigger. -/
def eventType : Trigger → String
  | .event t => t
  | .always => ""

/-- The trigger as messages write it. -/
def describe : Trigger → String
  | .event t => t
  | .always => "(always)"

end Trigger

/-- Events are told apart by their type, which selects the candidates declared
under it. The empty type is reserved for eventless transitions. -/
class Event (E : Type) where
  eventType : E → String

/-- The trigger an event selects. -/
def Trigger.ofEvent [Event E] (e : E) : Trigger := .event (Event.eventType e)

end Statechart
