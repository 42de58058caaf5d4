import Statechart.Tree.Basic
import Statechart.Machine.Action
/-!
# Choosing and planning a transition

Resolution walks the active configuration from the leaf to the root; in each
state the candidates for the trigger are tried in declaration order, and the
first whose guard holds wins (a candidate without a guard always holds). A
guard that fails, or that has no implementation, stops the search with an
error.

The plan of a winning candidate:
* without a target, runs its actions and keeps the configuration;
* with one, leaves every active state below the transition's domain (the
  source itself for an internal target, else the nearest ancestor of the
  source that also contains the target), innermost first, then enters the
  states from the domain down to the target and on through initial children.
  Its actions are the exit actions of the states left, the candidate's own,
  then the entry actions of the states entered.
-/
namespace Statechart

/-- The outcome of resolving a trigger. -/
structure Plan where
  /-- Id of the state that declared the winning candidate. -/
  source : String
  trigger : Trigger
  /-- Ids of the states left, innermost first. -/
  exit : List String
  /-- Ids of the states entered, outermost first. -/
  enter : List String
  /-- Action ids in the order they run. -/
  actions : List String
  /-- The target's state value; none for a targetless candidate. -/
  target : Option StateValue
  /-- The state value afterwards. -/
  value : StateValue
  /-- The configuration afterwards. -/
  configuration : List Nat
  deriving DecidableEq, Repr, Inhabited

def Plan.isTargetless (p : Plan) : Bool := p.target.isNone

/-- A guard evaluated while resolving. -/
structure GuardCheck where
  state : String
  guard : String
  result : Bool
  deriving DecidableEq, Repr, Inhabited

namespace StateTree

def idsOf (t : StateTree) (ns : List Nat) : List String := ns.map fun n => (t.node n).id

/-- The plan of a candidate declared by `source`, from a configuration. -/
def plan (t : StateTree) (configuration : List Nat) (source : Nat) (trigger : Trigger)
    (c : Candidate) : Plan :=
  let sourceId := (t.node source).id
  match c.target with
  | none =>
    { source := sourceId, trigger, exit := [], enter := [], actions := c.actions, target := none,
      value := t.value configuration, configuration }
  | some target =>
    let domain := if target.internal then source else t.domain source target.node
    let kept := match configuration.idxOf? domain with
      | some i => i + 1
      | none => configuration.length
    let exited := (configuration.drop kept).reverse
    let entered := t.pathBetween domain target.node ++ t.initialDescent target.node
    let actions := (exited.map fun n => (t.node n).exit).flatten ++ c.actions ++
      (entered.map fun n => (t.node n).entry).flatten
    let next := configuration.take kept ++ entered
    { source := sourceId, trigger, exit := t.idsOf exited, enter := t.idsOf entered, actions,
      target := some ⟨(t.node target.node).path⟩, value := t.value next, configuration := next }

/-- The plan entering the initial configuration from nothing: every entry
action from the root down. -/
def initialPlan (t : StateTree) : Plan :=
  let configuration := t.initialConfiguration
  let value := t.value configuration
  { source := t.machineId, trigger := .always, exit := [], enter := t.idsOf configuration,
    actions := (configuration.map fun n => (t.node n).entry).flatten,
    target := some value, value, configuration }

/-- Tries the candidates of one state in order: the first enabled one, with
the guards evaluated on the way. -/
def firstEnabled (guards : String → Option (Guard C E)) (context : C) (event : Option E)
    (state : String) :
    List Candidate → List GuardCheck → List GuardCheck × Except RuntimeError (Option Candidate)
  | [], checks => (checks, .ok none)
  | c :: cs, checks =>
    match c.guard with
    | none => (checks, .ok (some c))
    | some g =>
      let result := match guards g with
        | some guard => guard context event
        | none => .error s!"no implementation for guard '{g}'"
      match result with
      | .error message => (checks, .error (.guard state g message))
      | .ok holds =>
        let checks := checks ++ [⟨state, g, holds⟩]
        if holds then (checks, .ok (some c)) else firstEnabled guards context event state cs checks

/-- Resolves a trigger against a configuration, from the leaf to the root;
also returns every guard evaluated, in order. -/
def select (t : StateTree) (guards : String → Option (Guard C E)) (configuration : List Nat)
    (context : C) (event : Option E) (trigger : Trigger) :
    List GuardCheck × Except RuntimeError (Option Plan) :=
  go configuration.reverse []
where
  /-- The states still to try, innermost first. -/
  go : List Nat → List GuardCheck → List GuardCheck × Except RuntimeError (Option Plan)
    | [], checks => (checks, .ok none)
    | n :: ns, checks =>
      let node := t.node n
      match firstEnabled guards context event node.id (node.candidates trigger) checks with
      | (checks, .error e) => (checks, .error e)
      | (checks, .ok (some c)) => (checks, .ok (some (t.plan configuration n trigger c)))
      | (checks, .ok none) => go ns checks

end StateTree

end Statechart
