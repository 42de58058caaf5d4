import Mathlib
import Statechart.Proofs.Tree.Check
import Statechart.Proofs.Tree.Chains
import Statechart.Machine.Basic
/-!
# Built machines

A machine is built only when its configuration has no problem at all: the tree
has none, and every guard and action the configuration names is registered.
Every node realizes the configured state its path leads to (`check_clean`), so
every guard and action of the tree is registered. Resolution therefore never
meets a guard without an implementation, and executing a plan never skips an
action (`MachineBuilder.built_machine_invariant`).
-/
namespace Statechart

/-! ## Registration in the configuration -/

/-- The candidates a state declares: its `on` lists in order, then its
eventless list. -/
def StateConfig.declared (c : StateConfig) : List CandidateConfig :=
  (c.on.map Prod.snd).flatten ++ c.always

/-- Every guard and action a state names passes the registration tests. -/
structure StateConfig.Registered (hasGuard hasAction : String → Bool) (c : StateConfig) :
    Prop where
  guard : ∀ cc ∈ c.declared, ∀ g, cc.guard = some g → hasGuard g = true
  action : ∀ a ∈ c.entry ++ c.exit ++ (c.declared.map CandidateConfig.actions).flatten,
    hasAction a = true

theorem StateConfig.mem_declared {c : StateConfig} {trigger : Trigger} {cc : CandidateConfig}
    (h : cc ∈ c.candidatesFor trigger) : cc ∈ c.declared := by
  unfold candidatesFor at h
  unfold declared
  rcases List.mem_append.1 h with h | h
  · obtain ⟨l, hl, hcc⟩ := List.mem_flatten.1 h
    obtain ⟨e, he, rfl⟩ := List.mem_map.1 hl
    exact List.mem_append_left _
      (List.mem_flatten.2 ⟨e.2, List.mem_map_of_mem (List.mem_filter.1 he).1, hcc⟩)
  · split at h
    · exact List.mem_append_right _ h
    · cases h

section References

variable {hasGuard hasAction : String → Bool} {mid : String}

theorem registered_of_referenceErrors {path : List String} {c : StateConfig}
    (h : referenceErrors hasGuard hasAction mid path c = []) :
    c.Registered hasGuard hasAction ∧
      referenceErrorsBelow hasGuard hasAction mid path c.states = [] := by
  obtain ⟨id, kind, initial, entry, exit, on, always, states⟩ := c
  simp only [referenceErrors, List.append_eq_nil_iff, List.filterMap_eq_nil_iff] at h
  obtain ⟨⟨hguards, hactions⟩, hbelow⟩ := h
  refine ⟨⟨fun cc hcc g hg => ?_, fun a ha => ?_⟩, hbelow⟩
  · have hnone := hguards cc hcc
    rw [hg, Option.bind_some] at hnone
    by_cases hreg : hasGuard g = true
    · exact hreg
    · rw [if_neg hreg] at hnone
      cases hnone
  · have hnone := hactions a ha
    by_cases hreg : hasAction a = true
    · exact hreg
    · rw [if_neg hreg] at hnone
      cases hnone

theorem referenceErrorsBelow_eq_nil {path : List String} :
    ∀ {states : List (String × StateConfig)},
      referenceErrorsBelow hasGuard hasAction mid path states = [] →
      ∀ e ∈ states, referenceErrors hasGuard hasAction mid (path ++ [e.1]) e.2 = []
  | [], _, _, he => absurd he List.not_mem_nil
  | (key, child) :: rest, h, e, he => by
    rw [referenceErrorsBelow, List.append_eq_nil_iff] at h
    rcases List.mem_cons.1 he with rfl | he
    · exact h.1
    · exact referenceErrorsBelow_eq_nil h.2 e he

/-- Without reference problems, every state the configuration holds, at any
depth, has its names registered. -/
theorem registered_at :
    ∀ {keys : List String} {path : List String} {c cfg : StateConfig},
      referenceErrors hasGuard hasAction mid path c = [] → c.at keys = some cfg →
      cfg.Registered hasGuard hasAction
  | [], _, c, cfg, h, hat => by
    cases hat
    exact (registered_of_referenceErrors h).1
  | k :: ks, path, c, cfg, h, hat => by
    simp only [StateConfig.at, Option.bind_eq_some_iff, Option.map_eq_some_iff] at hat
    obtain ⟨child, ⟨e, he, rfl⟩, hrest⟩ := hat
    have hchild := referenceErrorsBelow_eq_nil (registered_of_referenceErrors h).2 e
      (List.mem_of_find?_eq_some he)
    exact registered_at hchild hrest

end References

/-! ## Registration in the tree -/

/-- Every guard and action a tree names passes the registration tests. -/
structure StateTree.Registered (t : StateTree) (hasGuard hasAction : String → Bool) : Prop where
  guard : ∀ {i trigger c g}, c ∈ (t.node i).candidates trigger → c.guard = some g →
    hasGuard g = true
  entry : ∀ {i a}, a ∈ (t.node i).entry → hasAction a = true
  exit : ∀ {i a}, a ∈ (t.node i).exit → hasAction a = true
  action : ∀ {i trigger c a}, c ∈ (t.node i).candidates trigger → a ∈ c.actions →
    hasAction a = true

namespace StateTree

variable {t : StateTree} {hasGuard hasAction : String → Bool}

/-- A node of a tree that realizes a configuration, if inside the tree, is a
configured state: its path leads to that state. -/
private theorem realizes_node {root : StateConfig} (hr : t.Realizes root) {i : Nat}
    (hi : i < t.nodes.size) :
    ∃ cfg, root.at (t.node i).path = some cfg ∧ (t.node i).entry = cfg.entry ∧
      (t.node i).exit = cfg.exit ∧ ∀ trigger c, c ∈ (t.node i).candidates trigger →
        ∃ cc ∈ cfg.candidatesFor trigger, c.guard = cc.guard ∧ c.actions = cc.actions := by
  obtain ⟨cfg, hat, hentry, hexit, hcands⟩ := hr i hi
  refine ⟨cfg, hat, hentry, hexit, fun trigger c hc => ?_⟩
  obtain ⟨cc, hcc, hguard, hactions, -⟩ := exists_of_forall₂_mem (hcands trigger) hc
  exact ⟨cc, hcc, hguard, hactions⟩

private theorem node_of_size_le {i : Nat} (hi : t.nodes.size ≤ i) : t.node i = default := by
  unfold node
  rw [Array.getElem?_eq_none hi, Option.getD_none]

private theorem lt_of_mem_candidates {i : Nat} {trigger : Trigger} {c : Candidate}
    (hc : c ∈ (t.node i).candidates trigger) : i < t.nodes.size := by
  by_cases hi : i < t.nodes.size
  · exact hi
  · rw [node_of_size_le (Nat.le_of_not_lt hi), Node.candidates_default] at hc
    cases hc

private theorem lt_of_mem_entry {i : Nat} {a : String} (ha : a ∈ (t.node i).entry) :
    i < t.nodes.size := by
  by_cases hi : i < t.nodes.size
  · exact hi
  · rw [node_of_size_le (Nat.le_of_not_lt hi)] at ha
    cases ha

private theorem lt_of_mem_exit {i : Nat} {a : String} (ha : a ∈ (t.node i).exit) :
    i < t.nodes.size := by
  by_cases hi : i < t.nodes.size
  · exact hi
  · rw [node_of_size_le (Nat.le_of_not_lt hi)] at ha
    cases ha

/-- A tree that realizes a configuration names only what the configuration
names: if every configured state has its names registered, so does the tree. -/
theorem Realizes.registered {root : StateConfig} (hr : t.Realizes root)
    (hreg : ∀ keys cfg, root.at keys = some cfg → cfg.Registered hasGuard hasAction) :
    t.Registered hasGuard hasAction := by
  refine ⟨fun hc hg => ?_, fun ha => ?_, fun ha => ?_, fun hc ha => ?_⟩
  · obtain ⟨cfg, hat, -, -, hcands⟩ := realizes_node hr (lt_of_mem_candidates hc)
    obtain ⟨cc, hcc, hguard, -⟩ := hcands _ _ hc
    exact (hreg _ cfg hat).guard cc (StateConfig.mem_declared hcc) _ (hguard ▸ hg)
  · obtain ⟨cfg, hat, hentry, -, -⟩ := realizes_node hr (lt_of_mem_entry ha)
    rw [hentry] at ha
    exact (hreg _ cfg hat).action _ (List.mem_append_left _ (List.mem_append_left _ ha))
  · obtain ⟨cfg, hat, -, hexit, -⟩ := realizes_node hr (lt_of_mem_exit ha)
    rw [hexit] at ha
    exact (hreg _ cfg hat).action _ (List.mem_append_left _ (List.mem_append_right _ ha))
  · obtain ⟨cfg, hat, -, -, hcands⟩ := realizes_node hr (lt_of_mem_candidates hc)
    obtain ⟨cc, hcc, -, hactions⟩ := hcands _ _ hc
    rw [hactions] at ha
    exact (hreg _ cfg hat).action _ (List.mem_append_right _
      (List.mem_flatten.2 ⟨cc.actions, List.mem_map_of_mem (StateConfig.mem_declared hcc), ha⟩))

end StateTree

/-! ## What resolution meets -/

section Select

open StateTree

variable {C E : Type} {guards : String → Option (Guard C E)} {context : C} {event : Option E}

theorem firstEnabled_error {state : String} :
    ∀ {cs : List Candidate} {checks : List GuardCheck} {e : RuntimeError},
      (∀ c ∈ cs, ∀ g, c.guard = some g → (guards g).isSome = true) →
      (firstEnabled guards context event state cs checks).2 = .error e →
      ∃ g guard message, e = .guard state g message ∧ guards g = some guard ∧
        guard context event = .error message
  | [], _, _, _, h => by simp [firstEnabled] at h
  | c :: cs, checks, e, hreg, h => by
    simp only [firstEnabled] at h
    split at h
    · cases h
    · rename_i g hg
      obtain ⟨guard, hguard⟩ := Option.isSome_iff_exists.1 (hreg c List.mem_cons_self g hg)
      simp only [hguard] at h
      split at h
      · next message hrun =>
        exact ⟨g, guard, message, (Except.error.inj h).symm, hguard, hrun⟩
      · split at h
        · cases h
        · exact firstEnabled_error (fun c hc => hreg c (List.mem_cons_of_mem _ hc)) h

/-- In a tree whose guards are all implemented, every error of resolution is the
error of a guard that ran. -/
theorem StateTree.Registered.select_error {t : StateTree} {hasAction : String → Bool}
    (hreg : t.Registered (fun g => (guards g).isSome) hasAction) {configuration : List Nat}
    {trigger : Trigger} {e : RuntimeError}
    (h : (t.select guards configuration context event trigger).2 = .error e) :
    ∃ state g guard message, e = .guard state g message ∧ guards g = some guard ∧
      guard context event = .error message := by
  -- the search walks the active states from the leaf up
  have go : ∀ (ns : List Nat) (checks : List GuardCheck),
      (StateTree.select.go t guards configuration context event trigger ns checks).2 =
        .error e →
      ∃ state g guard message, e = .guard state g message ∧ guards g = some guard ∧
        guard context event = .error message := by
    intro ns
    induction ns with
    | nil => intro checks h; simp [StateTree.select.go] at h
    | cons n ns ih =>
      intro checks h
      simp only [StateTree.select.go] at h
      split at h
      · next checks' e' hfirst =>
        cases h
        obtain ⟨g, guard, message, he, hguard, hrun⟩ :=
          firstEnabled_error (fun c hc g hg => hreg.guard hc hg) (congrArg Prod.snd hfirst)
        exact ⟨_, g, guard, message, he, hguard, hrun⟩
      · cases h
      · exact ih _ h
  exact go configuration.reverse [] h

end Select

namespace StateTree.Registered

variable {t : StateTree} {hasGuard hasAction : String → Bool}

/-- Every action of a plan is an exit or entry action of a node, or an action
of the candidate taken, so all of them are registered. -/
theorem plan_actions (hreg : t.Registered hasGuard hasAction) {configuration : List Nat}
    {source : Nat} {trigger : Trigger} {c : Candidate}
    (hc : c ∈ (t.node source).candidates trigger) {a : String}
    (ha : a ∈ (t.plan configuration source trigger c).actions) : hasAction a = true := by
  unfold StateTree.plan at ha
  split at ha
  · exact hreg.action hc ha
  · simp only [List.mem_append, List.mem_flatten, List.mem_map] at ha
    rcases ha with (⟨_, ⟨n, -, rfl⟩, ha⟩ | ha) | ⟨_, ⟨n, -, rfl⟩, ha⟩
    · exact hreg.exit ha
    · exact hreg.action hc ha
    · exact hreg.entry ha

theorem initialPlan_actions (hreg : t.Registered hasGuard hasAction) {a : String}
    (ha : a ∈ t.initialPlan.actions) : hasAction a = true := by
  simp only [StateTree.initialPlan, List.mem_flatten, List.mem_map] at ha
  obtain ⟨_, ⟨n, -, rfl⟩, ha⟩ := ha
  exact hreg.entry ha

/-- Every action of a plan that resolution picks is registered. -/
theorem select_actions {C E : Type} (hreg : t.Registered hasGuard hasAction)
    {guards : String → Option (Guard C E)} {configuration : List Nat} {context : C}
    {event : Option E} {trigger : Trigger} {p : Plan}
    (h : (t.select guards configuration context event trigger).2 = .ok (some p)) {a : String}
    (ha : a ∈ p.actions) : hasAction a = true := by
  obtain ⟨s, -, c, hc, rfl⟩ := StateTree.select_plan h
  exact hreg.plan_actions hc ha

end StateTree.Registered

/-! ## Building -/

theorem lookup_isSome {α : Type} (table : List (String × α)) (k : String) :
    (lookup table k).isSome = table.any (·.1 == k) := by
  unfold lookup
  rw [Option.isSome_map, List.isSome_find?]

namespace MachineBuilder

variable {C E σ : Type}

/-- A build succeeds only without tree or reference problems, and carries the
checked tree and the builder's guards and actions. -/
theorem build_eq_ok {b : MachineBuilder C E σ} {mach : Machine C E σ}
    (h : b.build = .ok mach) :
    (StateTree.check b.config).2 = [] ∧
      referenceErrors (fun g => b.guards.any (·.1 == g)) (fun a => b.actions.any (·.1 == a))
        b.config.machineId [] b.config.root = [] ∧
      mach.tree = (StateTree.check b.config).1 ∧ mach.guards = b.guards ∧
      mach.actions = b.actions := by
  unfold build at h
  split at h
  · next tree heq =>
    unfold MachineBuilder.check at heq
    generalize hcheck : StateTree.check b.config = r at heq
    obtain ⟨tree', errors⟩ := r
    simp only [Prod.mk.injEq, List.append_eq_nil_iff] at heq
    obtain ⟨rfl, herrors, hrefs⟩ := heq
    cases h
    exact ⟨herrors, hrefs, rfl, rfl, rfl⟩
  · cases h

theorem wellFormed_of_build_eq_ok {b : MachineBuilder C E σ} {mach : Machine C E σ}
    (h : b.build = .ok mach) : mach.tree.WellFormed := by
  obtain ⟨hcheck, -, htree, -, -⟩ := build_eq_ok h
  exact htree ▸ (TreeBuilder.check_clean b.config hcheck).1

theorem registered_of_build_eq_ok {b : MachineBuilder C E σ} {mach : Machine C E σ}
    (h : b.build = .ok mach) :
    mach.tree.Registered (fun g => (lookup mach.guards g).isSome)
      (fun a => (lookup mach.actions a).isSome) := by
  obtain ⟨hcheck, hrefs, htree, hguards, hactions⟩ := build_eq_ok h
  simp only [lookup_isSome, hguards, hactions, htree]
  exact (TreeBuilder.check_clean b.config hcheck).2.registered
    fun _ _ hat => registered_at hrefs hat

/-- A built machine's tree is well formed, realizes its configuration and names
only registered guards and actions. -/
theorem built_machine_invariant {b : MachineBuilder C E σ} {mach : Machine C E σ}
    (h : b.build = .ok mach) :
    mach.tree.WellFormed ∧ mach.tree.Realizes b.config.root ∧
      mach.tree.Registered (fun g => (lookup mach.guards g).isSome)
        (fun a => (lookup mach.actions a).isSome) ∧
      (∀ configuration context event trigger e,
        (mach.tree.select (lookup mach.guards) configuration context event trigger).2 =
          .error e →
        ∃ state g guard message, e = .guard state g message ∧
          lookup mach.guards g = some guard ∧ guard context event = .error message) ∧
      (∀ a ∈ mach.tree.initialPlan.actions, (lookup mach.actions a).isSome = true) ∧
      (∀ configuration context event trigger p,
        (mach.tree.select (lookup mach.guards) configuration context event trigger).2 =
          .ok (some p) →
        ∀ a ∈ p.actions, (lookup mach.actions a).isSome = true) := by
  obtain ⟨hcheck, -, htree, -, -⟩ := build_eq_ok h
  obtain ⟨hwf, hrealizes⟩ := TreeBuilder.check_clean b.config hcheck
  rw [← htree] at hwf hrealizes
  have hreg := registered_of_build_eq_ok h
  exact ⟨hwf, hrealizes, hreg, fun _ _ _ _ _ he => hreg.select_error he,
    fun _ ha => hreg.initialPlan_actions ha, fun _ _ _ _ _ hp _ ha => hreg.select_actions hp ha⟩

/-- A lamp that is off, on at a low or high setting, or broken for good; turning
it on is guarded by its power. -/
def lamp {E : Type} : MachineBuilder Nat E Empty :=
  { config :=
      { root :=
          { id := some "lamp"
            initial := some "off"
            states :=
              [("off", { entry := ["dim"]
                         on := [("TOGGLE", [{ target := some "on", guard := some "powered"
                                              actions := ["click"] }])] }),
               ("on", { initial := some "low"
                        exit := ["dim"]
                        on := [("TOGGLE", [{ target := some "off", actions := ["click"] }]),
                               ("BRIGHTER", [{ target := some ".high" }]),
                               ("BREAK", [{ target := some "#lamp.broken" }])]
                        states := [("low", {}), ("high", {})] }),
               ("broken", { kind := some .final })] } }
    context := 1
    guards := [("powered", fun n _ => .ok (decide (0 < n)))]
    actions := [("dim", .assign fun n _ => n), ("click", .effect fun _ _ => ["click"])] }

/-- The lamp builds into six states starting in `off`, with every name it uses registered. -/
theorem lamp_invariant :
    ∃ mach : Machine Nat Empty Empty, (lamp (E := Empty)).build = .ok mach ∧
      mach.tree.nodes.size = 6 ∧ mach.tree.initialConfiguration = [StateTree.root, 1] ∧
      mach.tree.initialPlan.actions = ["dim"] ∧
      mach.tree.WellFormed ∧ mach.tree.Realizes (lamp (E := Empty)).config.root ∧
      mach.tree.Registered (fun g => (lookup mach.guards g).isSome)
        (fun a => (lookup mach.actions a).isSome) ∧
      ∀ a ∈ mach.tree.initialPlan.actions, (lookup mach.actions a).isSome = true := by
  have hrun : (lamp : MachineBuilder Nat Empty Empty).build.map (fun mach =>
      (mach.tree.nodes.size, mach.tree.initialConfiguration, mach.tree.initialPlan.actions)) =
      .ok (6, [StateTree.root, 1], ["dim"]) := by
    cbv
  cases hb : (lamp : MachineBuilder Nat Empty Empty).build with
  | ok mach =>
    rw [hb] at hrun
    simp only [Except.map, Except.ok.injEq, Prod.mk.injEq] at hrun
    obtain ⟨hwf, hrealizes, hreg, -, hinit, -⟩ := built_machine_invariant hb
    exact ⟨mach, rfl, hrun.1, hrun.2.1, hrun.2.2, hwf, hrealizes, hreg, hinit⟩
  | error e =>
    rw [hb] at hrun
    cases hrun

end MachineBuilder

end Statechart
