/-!
# Active states

A state value names the active leaf of a machine by the keys on the way down
from the root, outermost first; the root itself has no key. Written as text the
keys are joined with dots, and reading text back drops empty segments.

`matchesPath p` asks whether the dotted path `p` names an active state. It
walks the non-empty segments of `p` with their positions, counting those that
equal the active key at the same position, and gives up at the first that does
not; a path with no segment matches nothing.
-/
namespace Statechart

/-- The pieces of a text between its dots, empty pieces kept: `"a..b"` has three. -/
def splitDots (s : String) : List String :=
  (s.split '.').toList.map String.Slice.copy

/-- The three kinds of state node. -/
inductive StateKind where
  | atomic
  | compound
  | final
  deriving DecidableEq, Repr, Inhabited

namespace StateKind

/-- A leaf is a node that is not compound. -/
def isLeaf : StateKind → Bool
  | .compound => false
  | _ => true

/-- The lower-case name of a kind, as configurations spell it. -/
def name : StateKind → String
  | .atomic => "atomic"
  | .compound => "compound"
  | .final => "final"

/-- Every kind, in declaration order. -/
def all : List StateKind := [.atomic, .compound, .final]

/-- The kind a lower-case name spells. -/
def ofName? (s : String) : Option StateKind :=
  all.find? (fun k => k.name == s)

end StateKind

/-- Where an actor is in its life. -/
inductive ActorStatus where
  | notStarted
  | running
  | stopped
  deriving DecidableEq, Repr, Inhabited

namespace ActorStatus

/-- The status in words, as messages write it. -/
def describe : ActorStatus → String
  | .notStarted => "not started"
  | .running => "running"
  | .stopped => "stopped"

/-- The status as its variant name. -/
def name : ActorStatus → String
  | .notStarted => "NotStarted"
  | .running => "Running"
  | .stopped => "Stopped"

/-- Every status, in declaration order. -/
def all : List ActorStatus := [.notStarted, .running, .stopped]

end ActorStatus

/-- The active state: keys from the root down to the active leaf. -/
structure StateValue where
  path : List String
  deriving DecidableEq, Repr, Inhabited

namespace StateValue

/-- The segments of a dotted path, empty segments dropped. -/
def segments (s : String) : List String :=
  (splitDots s).filter (fun seg => !seg.isEmpty)

/-- Reads a dotted path, dropping empty segments. -/
def ofPath (s : String) : StateValue :=
  ⟨segments s⟩

/-- The dotted text of a value. -/
def render (v : StateValue) : String :=
  ".".intercalate v.path

def leaf? (v : StateValue) : Option String :=
  v.path.getLast?

def isEmpty (v : StateValue) : Bool :=
  v.path.isEmpty

/-- One round of the matching loop, on a segment and its position: it must be
the active key at that position, and is counted; the first that is not ends the
loop. -/
def matchStep (path : List String) (len : Nat) (seg : String × Nat) : Option Nat :=
  if path[seg.2]? == some seg.1 then some (len + 1) else none

/-- Whether the dotted path names an active state: every segment matches the
active key at its position, and there is at least one. -/
def matchesPath (v : StateValue) (p : String) : Bool :=
  match (segments p).zipIdx.foldlM (matchStep v.path) 0 with
  | some len => 0 < len
  | none => false

end StateValue

end Statechart
