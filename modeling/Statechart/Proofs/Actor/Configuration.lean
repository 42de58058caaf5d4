import Mathlib
import Statechart.Proofs.Actor.Macrostep
import Statechart.Proofs.Machine.Built
import Statechart.Script.Basic
/-!
# Active configurations are chains

In a machine that builds, every configuration that resolution works with runs
from the root, each state a child of the one before, down to a leaf. A plan
picked on such a chain keeps a prefix of it, up to the transition's domain, and
enters states from the domain down to a leaf, so it adopts a chain again.

An actor keeps the invariant over its whole life: each eventless transition
adopts such a plan (`Chained.adopt`), and a failed macrostep hands back the
actor as it was (`Reachable.onChain`).
-/
namespace Statechart

open StateTree

/-! ## Plans on a chain -/

/-- A plan with a target keeps the chain up to the transition's domain, then
enters the states from the domain down through initial children. -/
theorem plan_configuration {t : StateTree} {c : List Nat} {s : Nat} {trigger : Trigger}
    {cand : Candidate} {r : Resolved} (ht : cand.target = some r) {i : Nat}
    (hi : c.idxOf? (t.transitionDomain s r) = some i) :
    (t.plan c s trigger cand).configuration =
      c.take (i + 1) ++ (t.pathBetween (t.transitionDomain s r) r.node ++
        t.initialDescent r.node) := by
  have hdom : (if r.internal then s else t.domain s r.node) = t.transitionDomain s r := rfl
  simp only [plan, ht, hdom, hi]

namespace MachineActor

variable {ν β C E σ : Type} {m : Machine C E σ}

/-! ## One transition, one macrostep -/

/-- An actor of `m` holding a chain of its tree. -/
def Chained (m : Machine C E σ) (rt : MachineActor C E σ) : Prop :=
  rt.machine = m ∧ m.tree.RootToLeaf rt.configuration

theorem Chained.adopt (hw : m.tree.WellFormed) {rt : MachineActor C E σ} (h : Chained m rt)
    {event : Option E} {trigger : Trigger} {plan : Plan} (context : C)
    (hp : rt.picks event trigger = .ok (some plan)) : Chained m (rt.adopt plan context) := by
  obtain ⟨hm, hc⟩ := h
  unfold picks tree at hp
  rw [hm] at hp
  exact ⟨hm, hw.rootToLeaf_select hc hp⟩

theorem Chained.settles (hw : m.tree.WellFormed) {event : Option E}
    {rt next : MachineActor C E σ} (hs : Settles event rt next) (h : Chained m rt) :
    Chained m next :=
  hs.preserves (Chained m) (fun _ _ context hrt hp => hrt.adopt hw context hp) h

theorem Chained.enters (hw : m.tree.WellFormed) {rt next : MachineActor C E σ}
    (hm : rt.machine = m) (h : Enters rt next) : Chained m next := by
  obtain ⟨context, hs⟩ := h
  refine Chained.settles hw hs ⟨hm, ?_⟩
  rw [adopt_configuration, tree, hm]
  exact hw.rootToLeaf_initialConfiguration

theorem Chained.handles [Event E] (hw : m.tree.WellFormed) {event : E}
    {rt next : MachineActor C E σ} (h : Chained m rt) (hh : Handles event rt next) :
    Chained m next := by
  rcases hh with ⟨plan, context, hp, hs⟩ | ⟨-, rfl⟩
  · exact Chained.settles hw hs (h.adopt hw context hp)
  · exact h

/-! ## Whole lives -/

/-- The invariant of an actor of `m`: while running, it holds a chain. -/
def OnChain (m : Machine C E σ) (rt : MachineActor C E σ) : Prop :=
  rt.machine = m ∧ (rt.status = .running → m.tree.RootToLeaf rt.configuration)

theorem onChain_new (m : Machine C E σ) (context : C) : OnChain m (new m context) :=
  ⟨rfl, nofun⟩

theorem OnChain.stop {rt : MachineActor C E σ} (h : OnChain m rt) : OnChain m rt.stop :=
  ⟨h.1, nofun⟩

theorem OnChain.start (hw : m.tree.WellFormed) (spawn : Spawner ν β E σ)
    {rt : MachineActor C E σ} (h : OnChain m rt) :
    Turn.Returns (rt.start spawn) fun p => OnChain m p.1 := by
  refine (start_returns spawn rt).mono fun p ⟨herr, hok⟩ => ?_
  cases hout : p.2 with
  | ok u =>
    obtain ⟨-, limit, next, henters, hp⟩ := hok hout
    have hm : ({ rt with history := rt.history.setLimit limit } : MachineActor C E σ).machine = m :=
      h.1
    have hnext := Chained.enters hw hm henters
    rw [hp]
    exact ⟨hnext.1, fun _ => hnext.2⟩
  | error e =>
    rcases herr e hout with ⟨-, hp⟩ | ⟨-, limit, hp⟩
    · rw [hp]
      exact h
    · rw [hp]
      exact h

theorem OnChain.receive [Event E] (hw : m.tree.WellFormed) (spawn : Spawner ν β E σ)
    {rt : MachineActor C E σ} (h : OnChain m rt) (event : E) :
    Turn.Returns (rt.receive spawn event) fun p => OnChain m p.1 := by
  refine (receive_returns spawn rt event).mono fun p ⟨herr, hok⟩ => ?_
  cases hout : p.2 with
  | ok u =>
    obtain ⟨hrun, next, hhandles, hp⟩ := hok hout
    have hchain : Chained m { rt with changed := false } := ⟨h.1, h.2 hrun⟩
    have hnext := Chained.handles hw hchain hhandles
    rw [hp]
    exact ⟨hnext.1, fun _ => hnext.2⟩
  | error e =>
    rcases herr e hout with ⟨-, hp⟩ | ⟨-, hp⟩
    · rw [hp]
      exact h
    · rw [hp]
      exact h

/-- Every actor of a machine with a well-formed tree keeps the invariant. -/
theorem Reachable.onChain [Event E] (hw : m.tree.WellFormed) {rt : MachineActor C E σ}
    (h : Reachable m rt) : OnChain m rt := by
  induction h with
  | new context => exact onChain_new m context
  | start spawn sc l _ ih => exact ih.start hw spawn sc l
  | receive spawn event sc l _ ih => exact ih.receive hw spawn event sc l
  | stop _ ih => exact ih.stop

end MachineActor

namespace MachineBuilder

variable {C E σ : Type}

/-- In a machine that builds, the initial configuration, that of any state
value, those of plans picked on a chain and that of every running actor are
chains of the tree. -/
theorem built_configurations_are_chains [Event E] {b : MachineBuilder C E σ}
    {mach : Machine C E σ} (h : b.build = .ok mach) :
    mach.tree.RootToLeaf mach.tree.initialConfiguration ∧
      (∀ v c, mach.tree.configurationFor v = some c → mach.tree.RootToLeaf c) ∧
      (∀ c, mach.tree.RootToLeaf c → ∀ s ∈ c, ∀ trigger, ∀ cand ∈ (mach.tree.node s).candidates trigger,
        mach.tree.RootToLeaf (mach.tree.plan c s trigger cand).configuration ∧
        ∀ r, cand.target = some r → ∃ i, c.idxOf? (mach.tree.transitionDomain s r) = some i ∧
          (mach.tree.plan c s trigger cand).configuration =
            c.take (i + 1) ++ (mach.tree.pathBetween (mach.tree.transitionDomain s r) r.node ++
              mach.tree.initialDescent r.node)) ∧
      (∀ (guards : String → Option (Guard C E)) c context event trigger p,
        mach.tree.RootToLeaf c →
        (mach.tree.select guards c context event trigger).2 = .ok (some p) →
        mach.tree.RootToLeaf p.configuration) ∧
      (∀ rt, MachineActor.Reachable mach rt → rt.status = .running →
        mach.tree.RootToLeaf rt.configuration) := by
  obtain ⟨hcheck, -, htree, -, -⟩ := build_eq_ok h
  have hw : mach.tree.WellFormed := htree ▸ (TreeBuilder.check_clean b.config hcheck).1
  refine ⟨hw.rootToLeaf_initialConfiguration, fun _ _ hv => hw.rootToLeaf_configurationFor hv,
    fun c hc s hs trigger cand hcand => ⟨hw.rootToLeaf_plan hc hs hcand, fun r ht => ?_⟩,
    fun _ _ _ _ _ _ hc hp => hw.rootToLeaf_select hc hp, fun _ hr hrun => (hr.onChain hw).2 hrun⟩
  obtain ⟨i, -, hi, -⟩ := hw.domain_idxOf hc hs hcand ht
  exact ⟨i, hi, plan_configuration ht hi⟩

/-- The lamp's configurations: `lamp.off` at the start, `lamp.on.low` once on,
then `lamp.on.high` when brighter or `lamp.broken` when broken. -/
theorem lamp_configurations_are_chains :
    ∃ mach : Machine Nat Script.Signal Empty, (lamp (E := Script.Signal)).build = .ok mach ∧
      mach.tree.initialConfiguration = [StateTree.root, 1] ∧
      mach.tree.RootToLeaf [StateTree.root, 1] ∧
      (∃ on ∈ (mach.tree.node 1).candidates (.event "TOGGLE"),
        (mach.tree.plan [StateTree.root, 1] 1 (.event "TOGGLE") on).configuration = [StateTree.root, 2, 3]) ∧
      mach.tree.RootToLeaf [StateTree.root, 2, 3] ∧
      (∃ brighter ∈ (mach.tree.node 2).candidates (.event "BRIGHTER"),
        (mach.tree.plan [StateTree.root, 2, 3] 2 (.event "BRIGHTER") brighter).configuration =
          [StateTree.root, 2, 4]) ∧
      mach.tree.RootToLeaf [StateTree.root, 2, 4] ∧
      (∃ broken ∈ (mach.tree.node 2).candidates (.event "BREAK"),
        (mach.tree.plan [StateTree.root, 2, 3] 2 (.event "BREAK") broken).configuration =
          [StateTree.root, 5]) ∧
      mach.tree.RootToLeaf [StateTree.root, 5] := by
  have hrun : (lamp (E := Script.Signal)).build.map (fun mach =>
      (mach.tree.initialConfiguration,
        ((mach.tree.node 1).candidates (.event "TOGGLE")).map fun c =>
          (mach.tree.plan [StateTree.root, 1] 1 (.event "TOGGLE") c).configuration,
        ((mach.tree.node 2).candidates (.event "BRIGHTER")).map fun c =>
          (mach.tree.plan [StateTree.root, 2, 3] 2 (.event "BRIGHTER") c).configuration,
        ((mach.tree.node 2).candidates (.event "BREAK")).map fun c =>
          (mach.tree.plan [StateTree.root, 2, 3] 2 (.event "BREAK") c).configuration)) =
      .ok ([StateTree.root, 1], [[StateTree.root, 2, 3]], [[StateTree.root, 2, 4]], [[StateTree.root, 5]]) := by
    cbv
  cases hb : (lamp (E := Script.Signal)).build with
  | ok mach =>
    rw [hb] at hrun
    simp only [Except.map, Except.ok.injEq, Prod.mk.injEq, List.map_eq_singleton_iff] at hrun
    obtain ⟨hinit, ⟨on, hon, hon_plan⟩, ⟨brighter, hbrighter, hbrighter_plan⟩,
      ⟨broken, hbroken, hbroken_plan⟩⟩ := hrun
    obtain ⟨hstart, -, hplans, -, -⟩ := built_configurations_are_chains hb
    rw [hinit] at hstart
    -- each plan is taken from a chain, so it ends in one
    have hlow := hon_plan ▸ (hplans _ hstart 1 (by simp) _ on (by simp [hon])).1
    have hhigh := hbrighter_plan ▸ (hplans _ hlow 2 (by simp) _ brighter (by simp [hbrighter])).1
    have hbreak := hbroken_plan ▸ (hplans _ hlow 2 (by simp) _ broken (by simp [hbroken])).1
    exact ⟨mach, rfl, hinit, hstart, ⟨on, by simp [hon], hon_plan⟩, hlow,
      ⟨brighter, by simp [hbrighter], hbrighter_plan⟩, hhigh, ⟨broken, by simp [hbroken], hbroken_plan⟩,
      hbreak⟩
  | error e =>
    rw [hb] at hrun
    cases hrun

end MachineBuilder

end Statechart
