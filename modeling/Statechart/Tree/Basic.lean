import Statechart.State
import Statechart.Trigger
import Statechart.Config.Error
/-!
# State trees

A built machine keeps its states as a flat array of nodes, the root at index
0, each node holding its parent, its children in declaration order and its
path of keys from the root. Ids index the nodes for `#id` targets.

An active configuration is a list of nodes from the root down to a leaf. The
queries here navigate the tree: resolving a target text from a source node,
the domain of a transition (the nearest ancestor of the source that also
contains the target), the nodes entered on the way down, and the
configuration that a state value names.

Walks along parent links take at most as many steps as there are nodes.
-/
namespace Statechart

/-- A resolved transition target. -/
structure Resolved where
  node : Nat
  /-- Given relative to the source itself (`.child`): the source is not exited. -/
  internal : Bool
  deriving DecidableEq, Repr, Inhabited

/-- A candidate transition of a built node. -/
structure Candidate where
  guard : Option String
  actions : List String
  target : Option Resolved
  deriving DecidableEq, Repr, Inhabited

/-- One state of a built tree. -/
structure Node where
  key : String
  id : String
  path : List String
  parent : Option Nat
  kind : StateKind
  initial : Option Nat := none
  children : List Nat := []
  entry : List String
  exit : List String
  /-- Candidates by event type, each type once, in order of first declaration. -/
  on : List (String × List Candidate) := []
  always : List Candidate := []
  deriving Repr, Inhabited

namespace Node

/-- The candidates a trigger selects from. -/
def candidates (n : Node) : Trigger → List Candidate
  | .always => n.always
  | .event t => ((n.on.find? fun (k, _) => k == t).map Prod.snd).getD []

def addCandidate (n : Node) (trigger : Trigger) (c : Candidate) : Node :=
  match trigger with
  | .always => { n with always := n.always ++ [c] }
  | .event t =>
    if n.on.any fun (k, _) => k == t then
      { n with on := n.on.map fun (k, cs) => if k == t then (k, cs ++ [c]) else (k, cs) }
    else { n with on := n.on ++ [(t, [c])] }

/-- The warning for a node whose eventless candidates end with a guarded one. -/
def lint (n : Node) : Option LintWarning :=
  match n.always.getLast? with
  | some last => if last.guard.isSome then some (.eventless n.id n.always.length) else none
  | none => none

end Node

/-- The states of a machine. -/
structure StateTree where
  nodes : Array Node
  /-- Node ids with their nodes; an id given twice names its last node. -/
  ids : List (String × Nat)
  deriving Repr, Inhabited

namespace StateTree

def root : Nat := 0

/-- The node at an index. -/
def node (t : StateTree) (i : Nat) : Node := t.nodes[i]?.getD default

/-- The machine's id: the root's id. -/
def machineId (t : StateTree) : String := (t.node root).id

/-- The node an id names. -/
def byId (t : StateTree) (id : String) : Option Nat :=
  (t.ids.find? fun (k, _) => k == id).map Prod.snd

/-- The first child of a node with the given key. -/
def childByKey (t : StateTree) (parent : Nat) (key : String) : Option Nat :=
  (t.node parent).children.find? fun c => (t.node c).key == key

/-- Follows keys down from a node. -/
def descend (t : StateTree) (start : Nat) (keys : List String) : Option Nat :=
  keys.foldlM (t.childByKey) start

/-- Resolves a target text as seen from `source`. `#id.rest` names a node by
id and then descends (ids may contain dots: the longest id that works wins);
`.rest` descends from the source itself; anything else descends from the
source's parent, or from the root for the root. -/
def resolve (t : StateTree) (source : Nat) (target : String) : Option Resolved :=
  match target.toList with
  | '#' :: absolute =>
    let segments := splitDots (String.ofList absolute)
    ((List.range segments.length).reverse.findSome? fun i =>
      let split := i + 1
      (t.byId (".".intercalate (segments.take split))).bind fun base =>
        t.descend base (segments.drop split)).map fun n => ⟨n, false⟩
  | '.' :: relative =>
    match t.descend source (splitDots (String.ofList relative)) with
    | some n => if n == source then none else some ⟨n, true⟩
    | none => none
  | _ =>
    let base := ((t.node source).parent).getD source
    (t.descend base (splitDots target)).map fun n => ⟨n, false⟩

/-- The ancestors of a node, nearest first. -/
def ancestors (t : StateTree) (n : Nat) : List Nat :=
  go (t.node n).parent t.nodes.size
where
  go : Option Nat → Nat → List Nat
    | none, _ => []
    | some _, 0 => []
    | some p, fuel + 1 => p :: go (t.node p).parent fuel

/-- Whether `a` is a proper ancestor of `n`. -/
def isAncestor (t : StateTree) (a n : Nat) : Bool :=
  (t.ancestors n).contains a

/-- The nodes entered below a node by following initial children to a leaf. -/
def initialDescent (t : StateTree) (n : Nat) : List Nat :=
  go (t.node n).initial t.nodes.size
where
  go : Option Nat → Nat → List Nat
    | none, _ => []
    | some _, 0 => []
    | some c, fuel + 1 => c :: go (t.node c).initial fuel

/-- The configuration a freshly started machine enters. -/
def initialConfiguration (t : StateTree) : List Nat :=
  root :: t.initialDescent root

/-- The nodes strictly below `a` down to and including `n`, outermost first. -/
def pathBetween (t : StateTree) (a n : Nat) : List Nat :=
  (go (some n) (t.nodes.size + 1)).reverse
where
  go : Option Nat → Nat → List Nat
    | none, _ => []
    | some _, 0 => []
    | some i, fuel + 1 => if i == a then [] else i :: go (t.node i).parent fuel

/-- The domain of a transition: the nearest proper ancestor of the source that
is also a proper ancestor of the target, else the root. -/
def domain (t : StateTree) (source target : Nat) : Nat :=
  ((t.ancestors source).find? fun a => t.isAncestor a target).getD root

/-- The state value of a configuration: the path of its last node. -/
def value (t : StateTree) (config : List Nat) : StateValue :=
  ⟨(config.getLast?.map fun n => (t.node n).path).getD []⟩

/-- The configuration a state value names, completed by initial children
below the node it stops at. -/
def configurationFor (t : StateTree) (v : StateValue) : Option (List Nat) :=
  go root v.path
where
  go (current : Nat) : List String → Option (List Nat)
    | [] => some (current :: t.initialDescent current)
    | k :: ks => (t.childByKey current k).bind fun c => (go c ks).map (current :: ·)

/-- Eventless candidate lists that end with a guarded candidate: when every
guard fails the actor rests in a state it was meant to leave. -/
def lint (t : StateTree) : List LintWarning := t.nodes.toList.filterMap Node.lint

end StateTree

end Statechart
