import Statechart.Json.Scalar
/-!
# Actor identity and addressing

Actors are numbered in the order they are made; a number is never reused. A
reference pairs the number with the actor's name, which is unique among its
live siblings. Numbers are written through a labelling function chosen by
whoever prints them, since they carry no meaning of their own.

A send names a target relative to the sender (itself, its parent, a child by
name, or a given actor). On commit a target becomes an address; a child
address is looked up by name only when the message is delivered.
-/
namespace Statechart

/-- The identity of an actor. -/
abbrev ActorId := Nat

/-- A handle to an actor. Holding one does not keep the actor alive. -/
structure ActorRef where
  id : ActorId
  name : String
  deriving DecidableEq, Repr, Inhabited

/-- Written `name#id`, the id as `label` writes it. -/
def ActorRef.render (label : ActorId → String) (r : ActorRef) : String :=
  r.name ++ "#" ++ label r.id

/-- The destination of a send or a stop, relative to the actor that issues it. -/
inductive Target where
  | itself
  | parent
  /-- A live child, looked up by name when the message is delivered. -/
  | child (name : String)
  | actor (ref : ActorRef)
  deriving DecidableEq, Repr, Inhabited

namespace Target

/-- The target in words: `self`, `parent`, `child 'name'`, `actor name#id`. -/
def render (label : ActorId → String) : Target → String
  | .itself => "self"
  | .parent => "parent"
  | .child name => s!"child '{name}'"
  | .actor ref => "actor " ++ ref.render label

/-- The target as a constructor expression, as a debugging aid prints it. -/
def debug (label : ActorId → String) : Target → String
  | .itself => "Itself"
  | .parent => "Parent"
  | .child name => "Child(" ++ Text.debugQuote name ++ ")"
  | .actor ref =>
    "Actor(ActorRef \x7b id: ActorId(" ++ label ref.id ++ "), name: " ++
      Text.debugQuote ref.name ++ " \x7d)"

end Target

/-- Where a queued message goes. -/
inductive Address where
  | actor (id : ActorId)
  | child (parent : ActorId) (name : String)
  deriving DecidableEq, Repr, Inhabited

/-- The address in words: `actor id` or `child 'name'`. -/
def Address.render (label : ActorId → String) : Address → String
  | .actor id => "actor " ++ label id
  | .child _ name => s!"child '{name}'"

end Statechart
