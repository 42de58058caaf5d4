import Statechart.Tree.Basic
/-!
# Building and validating a state tree

A configuration is checked in three passes, and every problem found is
reported, in this order:

1. the states, depth first: a final state with children; then each child key
   (empty or holding `.` or `#` is refused, as is a key used twice; a refused
   child is left out with its subtree); then the initial child of the state;
2. the ids: an id used by two states;
3. the transitions, state by state: every target must resolve.

A state's id is its own id, or the machine's id for the root, or the machine's
id followed by the path of keys, all joined with dots. A state is final when
configured so, compound when it has children in its configuration, and atomic
otherwise.
-/
namespace Statechart

/-- The default id of a machine whose root has none. -/
def defaultMachineId : String := "machine"

/-- The id of the machine a configuration describes. -/
def MachineConfig.machineId (m : MachineConfig) : String :=
  m.root.id.getD defaultMachineId

/-- Whether a child key may be used: non-empty, without `.` or `#`. -/
def validKey (key : String) : Bool :=
  !key.isEmpty && !key.contains '.' && !key.contains '#'

/-- The id of a state: its own, else the machine's id with its path. -/
def stateId (machineId : String) (own : Option String) (path : List String) : String :=
  match own, path with
  | some id, _ => id
  | none, [] => machineId
  | none, _ => machineId ++ "." ++ ".".intercalate path

namespace TreeBuilder

/-- Nodes built so far, problems found so far, and the configuration of each node. -/
structure State where
  nodes : Array Node := #[]
  errors : List ConfigError := []
  sources : List (Nat × StateConfig) := []

/-- Records a problem. -/
def State.fail (s : State) (e : ConfigError) : State := { s with errors := s.errors ++ [e] }

/-- Changes the node at an index. -/
def State.modifyNode (s : State) (i : Nat) (f : Node → Node) : State :=
  { s with nodes := s.nodes.modify i f }

mutual
/-- Adds a state and its valid children, depth first, and checks its initial child. -/
def addNode (machineId : String) (parent : Option Nat) (path : List String) (key : String) :
    StateConfig → State → State × Nat
  | config@⟨_, _, _, _, _, _, _, states⟩, s =>
  let index := s.nodes.size
  let id := stateId machineId config.id path
  let isFinal := config.kind == some .final
  let kind : StateKind :=
    if isFinal then .final else if config.states.isEmpty then .atomic else .compound
  let s := if isFinal && !config.states.isEmpty then s.fail (.finalWithChildren id) else s
  let s := { s with
    nodes := s.nodes.push { key, id, path, parent, kind, entry := config.entry, exit := config.exit }
    sources := s.sources ++ [(index, config)] }
  let s := addChildren machineId index path id [] states s
  let s :=
    match config.initial, kind == .compound with
    | some initial, true =>
      match (s.nodes[index]?.map Node.children).getD [] |>.find? (fun c =>
          ((s.nodes[c]?.map Node.key).getD "") == initial) with
      | some child => s.modifyNode index fun n => { n with initial := some child }
      | none => s.fail (.unknownInitial id initial)
    | none, true => s.fail (.missingInitial id)
    | some initial, false => s.fail (.initialOnLeaf id initial)
    | none, false => s
  (s, index)

/-- Adds the children of the node at `index`, refusing bad and repeated keys. -/
def addChildren (machineId : String) (index : Nat) (path : List String) (id : String)
    (seen : List String) : List (String × StateConfig) → State → State
  | [], s => s
  | (key, child) :: rest, s =>
    if !validKey key then addChildren machineId index path id seen rest (s.fail (.invalidKey id key))
    else if seen.contains key then
      addChildren machineId index path id seen rest (s.fail (.duplicateKey id key))
    else
      let (s, c) := addNode machineId (some index) (path ++ [key]) key child s
      let s := s.modifyNode index fun n => { n with children := n.children ++ [c] }
      addChildren machineId index path id (seen ++ [key]) rest s
end

/-- Registers ids in node order; an id already taken is a problem. -/
def indexIds (nodes : List Node) : List (String × Nat) × List ConfigError :=
  go nodes 0 [] []
where
  go : List Node → Nat → List (String × Nat) → List ConfigError → List (String × Nat) × List ConfigError
    | [], _, ids, errs => (ids, errs)
    | n :: ns, i, ids, errs =>
      if ids.any (fun (k, _) => k == n.id) then
        go ns (i + 1) ((n.id, i) :: ids) (errs ++ [.duplicateId n.id])
      else go ns (i + 1) ((n.id, i) :: ids) errs

/-- Resolves one candidate of a node, or reports its target. -/
def resolveCandidate (t : StateTree) (source : Nat) (trigger : Trigger) (c : CandidateConfig) :
    Except ConfigError Candidate :=
  match c.target with
  | none => .ok ⟨c.guard, c.actions, none⟩
  | some target =>
    match t.resolve source target with
    | some r => .ok ⟨c.guard, c.actions, some r⟩
    | none => .error (.unknownTarget (t.node source).id trigger.describe target)

/-- Adds the candidates of a list to a node; unresolved targets are problems. -/
def addCandidates (source : Nat) (trigger : Trigger) :
    List CandidateConfig → StateTree × List ConfigError → StateTree × List ConfigError
  | [], acc => acc
  | c :: cs, (t, errs) =>
    match resolveCandidate t source trigger c with
    | .ok cand =>
      addCandidates source trigger cs
        ({ t with nodes := t.nodes.modify source fun n => n.addCandidate trigger cand }, errs)
    | .error e => addCandidates source trigger cs (t, errs ++ [e])

/-- Adds every candidate of a node's configuration: the `on` lists in order
(the empty event type is eventless), then the eventless list. -/
def addTransitions (acc : StateTree × List ConfigError) (source : Nat × StateConfig) :
    StateTree × List ConfigError :=
  let (index, config) := source
  let acc := config.on.foldl
    (fun acc (event, cs) => addCandidates index (Trigger.ofKey event) cs acc) acc
  addCandidates index .always config.always acc

end TreeBuilder

/-- The tree of a configuration and every structural problem found. -/
def StateTree.check (m : MachineConfig) : StateTree × List ConfigError :=
  let machineId := m.machineId
  let (s, _) := TreeBuilder.addNode machineId none [] "" m.root {}
  let (ids, idErrors) := TreeBuilder.indexIds s.nodes.toList
  let t : StateTree := ⟨s.nodes, ids⟩
  let (t, targetErrors) := s.sources.foldl TreeBuilder.addTransitions (t, [])
  (t, s.errors ++ idErrors ++ targetErrors)

/-! ## References to guards and actions -/

mutual
/-- Checks that every guard and action a state and its subtree name is
registered, walking the configuration itself, refused children included: for
each state, first the guards of its candidates, then its entry, exit and
candidate actions. -/
def referenceErrors (hasGuard hasAction : String → Bool) (machineId : String) :
    List String → StateConfig → List ConfigError
  | path, config@⟨_, _, _, _, _, _, _, states⟩ =>
    let id := stateId machineId config.id path
    let cands := (config.on.map Prod.snd).flatten ++ config.always
    let guardErrors := cands.filterMap fun c =>
      c.guard.bind fun g => if hasGuard g then none else some (ConfigError.unknownGuard id g)
    let actionIds := config.entry ++ config.exit ++ (cands.map CandidateConfig.actions).flatten
    let actionErrors := actionIds.filterMap fun a =>
      if hasAction a then none else some (ConfigError.unknownAction id a)
    guardErrors ++ actionErrors ++ referenceErrorsBelow hasGuard hasAction machineId path states

/-- The reference errors of child states, in order. -/
def referenceErrorsBelow (hasGuard hasAction : String → Bool) (machineId : String)
    (path : List String) : List (String × StateConfig) → List ConfigError
  | [] => []
  | (key, child) :: rest =>
    referenceErrors hasGuard hasAction machineId (path ++ [key]) child ++
      referenceErrorsBelow hasGuard hasAction machineId path rest
end

end Statechart
