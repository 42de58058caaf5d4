import Statechart.State
/-!
# Machine configurations

A configuration is plain data: the root state and its subtree. Guards and
actions are named by id; their implementations are registered when a machine
is built. Maps of the configuration are kept as ordered lists of entries, so
declaration order survives and duplicate keys reach validation instead of
overwriting each other.

The fluent builders below extend lists rather than replace them: two calls of
`addEntry` keep both lists of actions, and `on` with an event type already
present adds a second entry for it.
-/
namespace Statechart

/-- One transition candidate: where it goes, what guards it, what it runs. -/
structure CandidateConfig where
  target : Option String := none
  guard : Option String := none
  actions : List String := []
  deriving DecidableEq, Repr, Inhabited

/-- Configuration of one state node and its subtree. -/
structure StateConfig where
  id : Option String := none
  kind : Option StateKind := none
  initial : Option String := none
  entry : List String := []
  exit : List String := []
  /-- Candidate lists by event type, in declaration order; the empty type is eventless. -/
  on : List (String × List CandidateConfig) := []
  always : List CandidateConfig := []
  /-- Child states by key, in declaration order. -/
  states : List (String × StateConfig) := []
  deriving Repr, Inhabited

/-- Configuration of a whole machine: its root state. -/
structure MachineConfig where
  root : StateConfig := {}
  deriving Repr, Inhabited

namespace CandidateConfig

/-- A candidate moving to `target`. -/
def toward (target : String) : CandidateConfig := { target := some target }

/-- A candidate without a target: its actions run, the active states stay. -/
def targetless : CandidateConfig := {}

def withGuard (c : CandidateConfig) (guard : String) : CandidateConfig :=
  { c with guard := some guard }

def addActions (c : CandidateConfig) (actions : List String) : CandidateConfig :=
  { c with actions := c.actions ++ actions }

end CandidateConfig

namespace StateConfig

/-- Decides equality of state configurations, subtree by subtree. -/
def decEq : (a b : StateConfig) → Decidable (a = b)
  | ⟨i1, k1, n1, e1, x1, o1, a1, s1⟩, ⟨i2, k2, n2, e2, x2, o2, a2, s2⟩ =>
    match decEqStates s1 s2 with
    | isTrue hs =>
      if h : i1 = i2 ∧ k1 = k2 ∧ n1 = n2 ∧ e1 = e2 ∧ x1 = x2 ∧ o1 = o2 ∧ a1 = a2 then
        isTrue (by obtain ⟨rfl, rfl, rfl, rfl, rfl, rfl, rfl⟩ := h; subst hs; rfl)
      else isFalse (by intro heq; cases heq; exact h ⟨rfl, rfl, rfl, rfl, rfl, rfl, rfl⟩)
    | isFalse hs => isFalse (by intro heq; cases heq; exact hs rfl)
where
  /-- Decides equality of child lists. -/
  decEqStates : (a b : List (String × StateConfig)) → Decidable (a = b)
    | [], [] => isTrue rfl
    | [], _ :: _ => isFalse (by intro h; cases h)
    | _ :: _, [] => isFalse (by intro h; cases h)
    | (k1, c1) :: r1, (k2, c2) :: r2 =>
      if hk : k1 = k2 then
        match decEq c1 c2, decEqStates r1 r2 with
        | isTrue hc, isTrue hr => isTrue (by subst hk; subst hc; subst hr; rfl)
        | isFalse hc, _ => isFalse (by intro h; cases h; exact hc rfl)
        | _, isFalse hr => isFalse (by intro h; cases h; exact hr rfl)
      else isFalse (by intro h; cases h; exact hk rfl)

instance : DecidableEq StateConfig := decEq

/-- An empty state. -/
def new : StateConfig := {}

def final : StateConfig := { kind := some .final }

/-- Sets the id that `#id` targets use. -/
def withId (s : StateConfig) (id : String) : StateConfig := { s with id := some id }

def withKind (s : StateConfig) (kind : StateKind) : StateConfig := { s with kind := some kind }

def withInitial (s : StateConfig) (key : String) : StateConfig := { s with initial := some key }

def addEntry (s : StateConfig) (actions : List String) : StateConfig :=
  { s with entry := s.entry ++ actions }

def addExit (s : StateConfig) (actions : List String) : StateConfig :=
  { s with exit := s.exit ++ actions }

/-- Declares candidates for an event type; the empty type is eventless. -/
def addOn (s : StateConfig) (eventType : String) (candidates : List CandidateConfig) :
    StateConfig :=
  { s with on := s.on ++ [(eventType, candidates)] }

def addAlways (s : StateConfig) (candidates : List CandidateConfig) : StateConfig :=
  { s with always := s.always ++ candidates }

def addState (s : StateConfig) (key : String) (child : StateConfig) : StateConfig :=
  { s with states := s.states ++ [(key, child)] }

end StateConfig

instance : DecidableEq MachineConfig := fun a b =>
  if h : a.root = b.root then isTrue (by cases a; cases b; cases h; rfl)
  else isFalse (by intro heq; cases heq; exact h rfl)

namespace MachineConfig

/-- A machine whose root has the given id. -/
def new (id : String) : MachineConfig := ⟨StateConfig.new.withId id⟩

end MachineConfig

end Statechart
