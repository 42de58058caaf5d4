import Mathlib
import Statechart.Proofs.Tree.Values
import Statechart.Proofs.Actor.Configuration
/-!
# Resolving against a state value

A machine can resolve a trigger against a state value without an actor
(`Machine.transition`): it reads the value back into a configuration and
resolves on it. Every configuration an actor holds is a chain from the root to
a leaf, which is exactly what its own value reads back to, so the pure
resolution makes the very call the actor makes and gets the same plan or error.
-/
namespace Statechart

/-- The trigger an optional event selects: its type, or the eventless trigger. -/
def Trigger.ofOption [Event E] (event : Option E) : Trigger :=
  (event.map Trigger.ofEvent).getD .always

namespace Machine

variable {C E σ : Type} [Event E]

/-- On a state value that names a configuration, the pure resolution is
resolution on that configuration. -/
theorem transition_of_configurationFor {m : Machine C E σ} {v : StateValue} {c : List Nat}
    (hv : m.tree.configurationFor v = some c) (context : C) (event : Option E) :
    m.transition v context event =
      (m.tree.select (lookup m.guards) c context event (Trigger.ofOption event)).2 := by
  simp only [transition, hv]
  rfl

/-- On the value of a chain from the root to a leaf, the pure resolution is
resolution on the chain itself. -/
theorem transition_value {m : Machine C E σ} (hw : m.tree.WellShaped) {c : List Nat}
    (hc : m.tree.RootToLeaf c) (context : C) (event : Option E) :
    m.transition (m.tree.value c) context event =
      (m.tree.select (lookup m.guards) c context event (Trigger.ofOption event)).2 :=
  transition_of_configurationFor (hw.configurationFor_value hc) context event

end Machine

namespace MachineBuilder

variable {C E σ : Type}

open StateTree

/-- Resolving against a state value agrees with an actor: the value of a running
actor names its configuration, and the pure resolution on it is the actor's own
resolution call. -/
theorem transition_agrees_with_actor [Event E] {b : MachineBuilder C E σ} {mach : Machine C E σ}
    (h : b.build = .ok mach) :
    (∀ c, mach.tree.RootToLeaf c → mach.tree.configurationFor (mach.tree.value c) = some c) ∧
      (∀ v c, mach.tree.configurationFor v = some c ↔
        ∃ l n, mach.tree.Descends root l n ∧ mach.tree.keysOf l = v.path ∧
          c = root :: (l ++ mach.tree.initialDescent n)) ∧
      (∀ (v : StateValue) l n, mach.tree.Descends root l n → mach.tree.keysOf l = v.path →
        mach.tree.value (root :: (l ++ mach.tree.initialDescent n)) =
          ⟨v.path ++ mach.tree.keysOf (mach.tree.initialDescent n)⟩) ∧
      (∀ c, mach.tree.RootToLeaf c → ∀ context event, mach.transition (mach.tree.value c) context event =
        (mach.tree.select (lookup mach.guards) c context event (Trigger.ofOption event)).2) ∧
      (∀ rt, MachineActor.Reachable mach rt → rt.status = .running →
        mach.tree.configurationFor rt.value = some rt.configuration ∧
        ∀ event, mach.transition rt.value rt.context event =
          rt.picks event (Trigger.ofOption event)) := by
  have hwf := wellFormed_of_build_eq_ok h
  have hw : mach.tree.WellShaped := hwf.toWellShaped
  refine ⟨fun _ hc => hw.configurationFor_value hc, fun _ _ => hw.configurationFor_eq_some_iff,
    fun v l n hd hkeys => hkeys ▸ hw.value_of_descends hd,
    fun _ hc => Machine.transition_value hw hc, fun rt hr hrun => ?_⟩
  -- a running actor holds a chain of the machine's tree
  obtain ⟨hm, hchain⟩ := hr.onChain hwf
  have hc := hchain hrun
  have hval : rt.value = mach.tree.value rt.configuration := by rw [MachineActor.value, MachineActor.tree, hm]
  refine ⟨hval ▸ hw.configurationFor_value hc, fun event => ?_⟩
  rw [hval, Machine.transition_value hw hc, MachineActor.picks, MachineActor.tree, hm]

/-- A machine with two top-level states builds, and its initial
configuration is what its own value reads back to. -/
theorem two_states_value_reads_back :
    ∃ mach : Machine Unit Script.Signal Empty,
      ({ config := { root := { initial := some "a", states := [("a", {}), ("b", {})] } }, context := () } :
        MachineBuilder Unit Script.Signal Empty).build = .ok mach ∧
      mach.tree.configurationFor (mach.tree.value mach.tree.initialConfiguration) =
        some mach.tree.initialConfiguration := by
  have hok : (({ config := { root := { initial := some "a", states := [("a", {}), ("b", {})] } }, context := () } :
      MachineBuilder Unit Script.Signal Empty).build).isOk = true := by cbv
  cases hb : ({ config := { root := { initial := some "a", states := [("a", {}), ("b", {})] } }, context := () } :
      MachineBuilder Unit Script.Signal Empty).build with
  | ok mach =>
    exact ⟨mach, rfl, (transition_agrees_with_actor hb).1 _
      (wellFormed_of_build_eq_ok hb).rootToLeaf_initialConfiguration⟩
  | error e =>
    rw [hb] at hok
    cases hok

end MachineBuilder

end Statechart
