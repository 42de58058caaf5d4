import Mathlib
import Statechart.Proofs.Tree.Preorder
import Statechart.Proofs.Machine.Built
/-!
# Merged candidate lists and lint warnings

A state configures its transitions as `on` entries, each an event type with a
list of candidates, and an `always` list. A type may be given twice, and the
empty type stands for the eventless trigger. The build merges these lists:
a node's candidates for an event type are the lists of all entries under that
type, in declaration order (`StateConfig.declaredOn`); its eventless
candidates are the lists under the empty type followed by the `always` list
(`StateConfig.eventless`); and nothing is kept under the empty event type.

The lint warnings of a built machine are therefore the states, in preorder,
whose merged eventless list ends with a guarded candidate. Main statement:
`MachineBuilder.built_candidates`.
-/
namespace Statechart

namespace Trigger

/-- A non-empty key stands for the event type it spells. -/
theorem ofKey_beq_event (k : String) {T : String} (hT : T ≠ "") :
    (ofKey k == .event T) = (k == T) := by
  by_cases hk : k = ""
  · subst hk
    simp [ofKey, Ne.symm hT]
  · simp [ofKey, String.isEmpty_iff, hk]

theorem ofKey_beq_event_empty (k : String) : (ofKey k == .event "") = false := by
  by_cases hk : k = ""
  · simp [ofKey, hk]
  · simp [ofKey, String.isEmpty_iff, hk]

/-- The empty key, and only it, stands for the eventless trigger. -/
theorem ofKey_beq_always (k : String) : (ofKey k == .always) = (k == "") := by
  by_cases hk : k = ""
  · simp [ofKey, hk]
  · simp [ofKey, String.isEmpty_iff, hk]

end Trigger

namespace StateConfig

/-- The candidates a state declares under the event type `T`: the lists of all
its `on` entries keyed `T`, in declaration order. -/
def declaredOn (c : StateConfig) (T : String) : List CandidateConfig :=
  ((c.on.filter fun e => e.1 == T).map Prod.snd).flatten

/-- The eventless candidates a state declares: its `on` lists under the empty
event type, then its `always` list. -/
def eventless (c : StateConfig) : List CandidateConfig := c.declaredOn "" ++ c.always

theorem candidatesFor_event (c : StateConfig) {T : String} (hT : T ≠ "") :
    c.candidatesFor (.event T) = c.declaredOn T := by
  rw [candidatesFor, if_neg Trigger.noConfusion, List.append_nil, declaredOn]
  congr 2
  exact List.filter_congr fun e _ => Trigger.ofKey_beq_event e.1 hT

theorem candidatesFor_event_empty (c : StateConfig) : c.candidatesFor (.event "") = [] := by
  rw [candidatesFor, if_neg Trigger.noConfusion, List.append_nil,
    List.filter_congr (q := fun _ => false) fun e _ => Trigger.ofKey_beq_event_empty e.1]
  simp

theorem candidatesFor_always (c : StateConfig) : c.candidatesFor .always = c.eventless := by
  rw [candidatesFor, if_pos rfl, eventless, declaredOn]
  congr 3
  exact List.filter_congr fun e _ => Trigger.ofKey_beq_always e.1

end StateConfig

/-- Whether a list of candidates ends with a guarded one. -/
def endsGuarded (cs : List CandidateConfig) : Bool :=
  match cs.getLast? with
  | some last => last.guard.isSome
  | none => false

namespace StateTree

theorem guards_of_forall₂ {t : StateTree} {source : Nat} {ccs : List CandidateConfig}
    {cs : List Candidate} (h : List.Forall₂ (t.ResolvedFrom source) ccs cs) :
    cs.map Candidate.guard = ccs.map CandidateConfig.guard := by
  induction h with
  | nil => rfl
  | cons hr _ ih => rw [List.map_cons, List.map_cons, hr.1, ih]

/-- The warning lint gives a node whose eventless candidates are `ccs` resolved:
one when `ccs` ends with a guarded candidate. -/
theorem lintEntry_of_forall₂ {t : StateTree} {source : Nat} {ccs : List CandidateConfig}
    {n : Node} (h : List.Forall₂ (t.ResolvedFrom source) ccs n.always) :
    n.lint = if endsGuarded ccs then some (LintWarning.eventless n.id ccs.length) else none := by
  have hlast := congrArg List.getLast? (guards_of_forall₂ h)
  rw [List.getLast?_map, List.getLast?_map] at hlast
  unfold Node.lint endsGuarded
  rw [← h.length_eq]
  cases hc : ccs.getLast? with
  | none =>
    rw [hc, Option.map_none, Option.map_eq_none_iff] at hlast
    rw [hlast]
    rfl
  | some last' =>
    rw [hc, Option.map_some] at hlast
    obtain ⟨last, hl, hguard⟩ := Option.map_eq_some_iff.1 hlast
    rw [hl]
    dsimp only
    rw [hguard]

end StateTree

namespace MachineConfig

open TreeBuilder

theorem keptStates_eq_states (m : MachineConfig) (h : (StateTree.check m).2 = []) :
    m.keptStates = m.states :=
  StateConfig.kept_eq_subtree [] m.root (check_rules m h).1

/-- In a check without problems, node `j` is the `j`-th configured state, with
its path, its id and, for every trigger, its configured candidates resolved. -/
theorem check_candidates (m : MachineConfig) (h : (StateTree.check m).2 = []) {j : Nat}
    {x : List String × StateConfig} (hx : m.states[j]? = some x) :
    ((StateTree.check m).1.node j).path = x.1 ∧
      ((StateTree.check m).1.node j).id = configuredId m.machineId x ∧
      ∀ trigger, List.Forall₂ ((StateTree.check m).1.ResolvedFrom j) (x.2.candidatesFor trigger)
        (((StateTree.check m).1.node j).candidates trigger) := by
  have hchecked := (check_rules m h).1
  have hkept := m.keptStates_eq_states h
  obtain ⟨hsize, hnodes⟩ := m.check_nodes
  obtain ⟨hpath, hid⟩ := hnodes j x (hkept ▸ hx)
  have hj : j < (StateTree.check m).1.nodes.size := by
    rw [hsize, hkept]
    exact (List.getElem?_eq_some_iff.1 hx).1
  obtain ⟨cfg, hat, -, -, hcands⟩ := (check_clean m h).2 j hj
  -- the node's path leads to the state itself
  obtain ⟨p', hp', hat'⟩ := StateConfig.at_of_mem_subtree m.root []
    (fun y hy => (hchecked y hy).keys_nodup) (List.mem_of_getElem? hx)
  rw [hpath, hp', List.nil_append, hat'] at hat
  cases hat
  exact ⟨hpath, hid, hcands⟩

/-- The lint warnings of a check without problems: the configured states, in
preorder, whose eventless candidates end with a guarded one. -/
theorem lint_check (m : MachineConfig) (h : (StateTree.check m).2 = []) :
    (StateTree.check m).1.lint = (m.states.filter fun x => endsGuarded x.2.eventless).map
      fun x => .eventless (configuredId m.machineId x) x.2.eventless.length := by
  have hkept := m.keptStates_eq_states h
  have hsize : (StateTree.check m).1.nodes.size = m.states.length := by
    rw [m.check_nodes.1, hkept]
  -- each node gives the warning its configured state calls for
  have hmap : (StateTree.check m).1.nodes.toList.map Node.lint =
      m.states.map fun x => if endsGuarded x.2.eventless then
        some (LintWarning.eventless (configuredId m.machineId x) x.2.eventless.length) else none := by
    refine List.ext_getElem (by simp [hsize]) fun j h₁ h₂ => ?_
    rw [List.getElem_map, List.getElem_map]
    have hj : j < m.states.length := by simpa using h₂
    obtain ⟨-, hid, hcands⟩ := check_candidates m h (List.getElem?_eq_getElem hj)
    have hjn : j < (StateTree.check m).1.nodes.size := by
      rw [hsize]
      exact hj
    have hjl : j < (StateTree.check m).1.nodes.toList.length := by simpa using hjn
    have hnode : (StateTree.check m).1.node j = (StateTree.check m).1.nodes.toList[j] := by
      simp [StateTree.node, Array.getElem?_eq_getElem hjn]
    have hevents := hcands .always
    rw [StateConfig.candidatesFor_always, hnode] at hevents
    rw [← hid, hnode]
    exact StateTree.lintEntry_of_forall₂ hevents
  -- a `filterMap` is the `map` followed by dropping the `none`s
  have hsplit : ∀ {α : Type} (f : α → Option LintWarning) (l : List α),
      l.filterMap f = (l.map f).filterMap id := fun f l => by
    rw [List.filterMap_map]
    rfl
  unfold StateTree.lint
  rw [hsplit, hmap, ← hsplit, ← List.filterMap_eq_filter, List.map_filterMap]
  congr 1
  funext x
  unfold Option.guard
  split <;> rfl

end MachineConfig

namespace MachineBuilder

variable {C E σ : Type}

theorem warnings_of_build_eq_ok {b : MachineBuilder C E σ} {mach : Machine C E σ}
    (h : b.build = .ok mach) : mach.warnings = mach.tree.lint := by
  unfold build at h
  split at h
  · cases h
    rfl
  · cases h

/-- In a built machine node `j` is the `j`-th configured state, its candidates
are the merged `on` and `always` lists, and its warnings are the states whose
eventless list ends guarded. -/
theorem built_candidates {b : MachineBuilder C E σ} {mach : Machine C E σ}
    (h : b.build = .ok mach) :
    mach.tree.nodes.size = b.config.states.length ∧
      (∀ j x, b.config.states[j]? = some x →
        (mach.tree.node j).path = x.1 ∧ (mach.tree.node j).id = configuredId b.config.machineId x ∧
        (∀ T, T ≠ "" → List.Forall₂ (mach.tree.ResolvedFrom j) (x.2.declaredOn T)
          ((mach.tree.node j).candidates (.event T))) ∧
        List.Forall₂ (mach.tree.ResolvedFrom j) x.2.eventless
          ((mach.tree.node j).candidates .always) ∧
        (mach.tree.node j).candidates (.event "") = []) ∧
      mach.warnings = (b.config.states.filter fun x => endsGuarded x.2.eventless).map
        fun x => .eventless (configuredId b.config.machineId x) x.2.eventless.length := by
  obtain ⟨hcheck, -, htree, -, -⟩ := build_eq_ok h
  rw [warnings_of_build_eq_ok h, htree]
  refine ⟨?_, fun j x hx => ?_, b.config.lint_check hcheck⟩
  · rw [b.config.check_nodes.1, b.config.keptStates_eq_states hcheck]
  · obtain ⟨hpath, hid, hcands⟩ := b.config.check_candidates hcheck hx
    refine ⟨hpath, hid, fun T hT => ?_, ?_, ?_⟩
    · rw [← x.2.candidatesFor_event hT]
      exact hcands _
    · rw [← x.2.candidatesFor_always]
      exact hcands _
    · -- nothing is configured under the empty event type, so nothing is resolved
      have hempty := hcands (.event "")
      rw [StateConfig.candidatesFor_event_empty] at hempty
      exact List.forall₂_nil_left_iff.1 hempty

/-- A machine whose root declares `E` twice and an eventless list both under
the empty event type and as `always`, the last candidate guarded. -/
def mergedLists : MachineBuilder Unit Empty Empty :=
  { config := { root := { id := some "m",
                          on := [("E", [{ guard := some "g" }]), ("", [{}]), ("E", [{}])],
                          always := [{ guard := some "g" }] } },
    context := (),
    guards := [("g", fun _ _ => .ok false)] }

/-- The machine with merged lists builds, and its candidate lists and warnings
are the merged ones. -/
theorem mergedLists_candidates :
    ∃ mach : Machine Unit Empty Empty, mergedLists.build = .ok mach ∧
      mach.tree.nodes.size = mergedLists.config.states.length ∧
      (∀ j x, mergedLists.config.states[j]? = some x →
        (mach.tree.node j).path = x.1 ∧
        (mach.tree.node j).id = configuredId mergedLists.config.machineId x ∧
        (∀ T, T ≠ "" → List.Forall₂ (mach.tree.ResolvedFrom j) (x.2.declaredOn T)
          ((mach.tree.node j).candidates (.event T))) ∧
        List.Forall₂ (mach.tree.ResolvedFrom j) x.2.eventless
          ((mach.tree.node j).candidates .always) ∧
        (mach.tree.node j).candidates (.event "") = []) ∧
      mach.warnings = (mergedLists.config.states.filter fun x => endsGuarded x.2.eventless).map
        fun x => .eventless (configuredId mergedLists.config.machineId x) x.2.eventless.length := by
  have hok : mergedLists.build.isOk = true := by cbv
  cases hb : mergedLists.build with
  | ok mach => exact ⟨mach, rfl, built_candidates hb⟩
  | error e =>
    rw [hb] at hok
    cases hok

end MachineBuilder

end Statechart
