import Mathlib
import Statechart.Proofs.Tree.Problems
import Statechart.Proofs.Machine.Built
/-!
# What a build checks

A machine builds exactly when its configuration satisfies `MachineConfig.Valid`
for the guards and actions the builder registers: every state within its own
rules, every id unique, every target resolving from its state and every name
registered. A failed build reports only problems that are there
(`MachineConfig.Reports`), those of the tree first. An initial child whose key
is refused is reported as unknown although it is configured
(`initial_with_refused_key_unknown`).
-/
namespace Statechart

/-- Whether a problem is about an unregistered guard or action. -/
def ConfigError.isReference : ConfigError → Bool
  | .unknownGuard .. | .unknownAction .. => true
  | _ => false

/-- The reference problem `e` is one that the configured state `c`, with id
`id`, has: it names a guard or an action that is not registered. -/
def StateConfig.Unregistered (hasGuard hasAction : String → Bool) (c : StateConfig)
    (id : String) : ConfigError → Prop
  | .unknownGuard p g => p = id ∧ (∃ cc ∈ c.declared, cc.guard = some g) ∧ hasGuard g = false
  | .unknownAction p a => p = id ∧
      a ∈ c.entry ++ c.exit ++ (c.declared.map CandidateConfig.actions).flatten ∧
      hasAction a = false
  | _ => False

theorem StateConfig.Unregistered.isReference {hasGuard hasAction : String → Bool}
    {c : StateConfig} {id : String} {e : ConfigError} (h : c.Unregistered hasGuard hasAction id e) :
    e.isReference = true := by
  cases e <;> first | rfl | exact (h : False).elim

theorem MachineConfig.TreeReports.isReference {m : MachineConfig} {e : ConfigError}
    (h : m.TreeReports e) : e.isReference = false := by
  cases e
  case unknownGuard =>
    obtain ⟨x, -, hb⟩ := h
    exact (hb : False).elim
  case unknownAction =>
    obtain ⟨x, -, hb⟩ := h
    exact (hb : False).elim
  all_goals rfl

/-! ## The reference walk -/

section References

variable {hasGuard hasAction : String → Bool} {mid : String}

theorem unregistered_of_mem_referenceErrors_step {path : List String} {c : StateConfig}
    {e : ConfigError}
    (hbelow : e ∈ referenceErrorsBelow hasGuard hasAction mid path c.states →
      ∃ x ∈ StateConfig.subtrees path c.states,
        x.2.Unregistered hasGuard hasAction (configuredId mid x) e)
    (he : e ∈ referenceErrors hasGuard hasAction mid path c) :
    ∃ x ∈ c.subtree path, x.2.Unregistered hasGuard hasAction (configuredId mid x) e := by
  have hself := StateConfig.self_mem_subtree path c
  obtain ⟨id, kind, initial, entry, exit, on, always, states⟩ := c
  simp only [referenceErrors] at he
  rw [List.mem_append, List.mem_append, List.mem_filterMap, List.mem_filterMap] at he
  rcases he with (⟨cc, hcc, hguard⟩ | ⟨a, ha, haction⟩) | he
  · -- a guard of one of its candidates
    cases hg : cc.guard with
    | none =>
      rw [hg] at hguard
      cases hguard
    | some g =>
      rw [hg, Option.bind_some] at hguard
      by_cases hreg : hasGuard g = true
      · rw [if_pos hreg] at hguard
        cases hguard
      · rw [if_neg hreg, Option.some.injEq] at hguard
        subst hguard
        exact ⟨_, hself, rfl, ⟨cc, hcc, hg⟩, by simpa using hreg⟩
  · -- one of its actions
    by_cases hreg : hasAction a = true
    · rw [if_pos hreg] at haction
      cases haction
    · rw [if_neg hreg, Option.some.injEq] at haction
      subst haction
      exact ⟨_, hself, rfl, ha, by simpa using hreg⟩
  · obtain ⟨x, hx, hu⟩ := hbelow he
    refine ⟨x, ?_, hu⟩
    rw [StateConfig.subtree_eq]
    exact List.mem_cons_of_mem _ hx

mutual
/-- Each reference problem of a state's walk is a guard or action that a state
of its subtree names and that is not registered. -/
theorem unregistered_of_mem_referenceErrors : ∀ (path : List String) (c : StateConfig)
    {e : ConfigError}, e ∈ referenceErrors hasGuard hasAction mid path c →
      ∃ x ∈ c.subtree path, x.2.Unregistered hasGuard hasAction (configuredId mid x) e
  | path, ⟨_, _, _, _, _, _, _, states⟩, _, he =>
    unregistered_of_mem_referenceErrors_step
      (unregistered_of_mem_referenceErrorsBelow path states) he

theorem unregistered_of_mem_referenceErrorsBelow : ∀ (path : List String)
    (states : List (String × StateConfig)) {e : ConfigError},
    e ∈ referenceErrorsBelow hasGuard hasAction mid path states →
      ∃ x ∈ StateConfig.subtrees path states,
        x.2.Unregistered hasGuard hasAction (configuredId mid x) e
  | _, [], _, he => absurd he List.not_mem_nil
  | path, (k, child) :: rest, _, he => by
    rw [referenceErrorsBelow, List.mem_append] at he
    rcases he with he | he
    · obtain ⟨x, hx, hu⟩ := unregistered_of_mem_referenceErrors (path ++ [k]) child he
      exact ⟨x, by simp [hx], hu⟩
    · obtain ⟨x, hx, hu⟩ := unregistered_of_mem_referenceErrorsBelow path rest he
      exact ⟨x, by simp [hx], hu⟩
end

mutual
/-- A walk without reference problems leaves every state of the subtree with
its guards and actions registered. -/
theorem registered_of_referenceErrors_eq_nil : ∀ (path : List String) (c : StateConfig),
    referenceErrors hasGuard hasAction mid path c = [] →
      ∀ x ∈ c.subtree path, x.2.Registered hasGuard hasAction
  | path, ⟨_, _, _, _, _, _, _, states⟩, h, x, hx => by
    obtain ⟨hown, hbelow⟩ := registered_of_referenceErrors h
    rw [StateConfig.subtree_eq] at hx
    rcases List.mem_cons.1 hx with rfl | hx
    · exact hown
    · exact registered_of_referenceErrorsBelow_eq_nil path states hbelow x hx

theorem registered_of_referenceErrorsBelow_eq_nil : ∀ (path : List String)
    (states : List (String × StateConfig)),
    referenceErrorsBelow hasGuard hasAction mid path states = [] →
      ∀ x ∈ StateConfig.subtrees path states, x.2.Registered hasGuard hasAction
  | _, [], _, x, hx => absurd hx List.not_mem_nil
  | path, (k, child) :: rest, h, x, hx => by
    rw [referenceErrorsBelow, List.append_eq_nil_iff] at h
    rw [StateConfig.subtrees_cons, List.mem_append] at hx
    rcases hx with hx | hx
    · exact registered_of_referenceErrors_eq_nil (path ++ [k]) child h.1 x hx
    · exact registered_of_referenceErrorsBelow_eq_nil path rest h.2 x hx
end

end References

/-! ## The rules and the problems -/

namespace MachineConfig

variable (m : MachineConfig) (hasGuard hasAction : String → Bool)

/-- The rules a configuration must satisfy to build, given which guards and
actions are registered. -/
structure Valid : Prop where
  states : ∀ x ∈ m.states, x.2.Checked
  ids : m.ids.Nodup
  targets : ∀ x ∈ m.states, ∀ i < (StateTree.check m).1.nodes.size,
    ((StateTree.check m).1.node i).path = x.1 → (StateTree.check m).1.Resolves i x.2
  registered : ∀ x ∈ m.states, x.2.Registered hasGuard hasAction

/-- What a reported problem says of the configuration: a problem of the tree
(`TreeReports`), or a state naming a guard or an action that is not registered. -/
def Reports (e : ConfigError) : Prop :=
  m.TreeReports e ∨
    ∃ x ∈ m.states, x.2.Unregistered hasGuard hasAction (configuredId m.machineId x) e

variable {m hasGuard hasAction}

theorem Valid.not_reports (hv : m.Valid hasGuard hasAction) :
    ∀ e, ¬ m.Reports hasGuard hasAction e := by
  rintro e (htree | ⟨x, hx, hu⟩)
  · cases e
    case duplicateId id =>
      have hle := List.nodup_iff_count_le_one.1 hv.ids id
      have htwo : 2 ≤ m.ids.count id := htree
      omega
    case unknownTarget id trig text =>
      obtain ⟨x, hx, -, i, hi, hpath, trigger, -, cc, hcc, htarget, hr⟩ := htree
      have := hv.targets x hx i hi hpath trigger cc hcc text htarget
      rw [hr] at this
      cases this
    all_goals
      obtain ⟨x, hx, hb⟩ := htree
      exact (hv.states x hx).not_breaks _ hb
  · cases e
    case unknownGuard id g =>
      obtain ⟨-, ⟨cc, hcc, hg⟩, hreg⟩ := hu
      rw [(hv.registered x hx).guard cc hcc g hg] at hreg
      cases hreg
    case unknownAction id a =>
      obtain ⟨-, ha, hreg⟩ := hu
      rw [(hv.registered x hx).action a ha] at hreg
      cases hreg
    all_goals exact (hu : False).elim

end MachineConfig

/-! ## Building -/

namespace MachineBuilder

variable {C E σ : Type} (b : MachineBuilder C E σ)

/-- Whether the builder registers a guard under an id. -/
def hasGuard (g : String) : Bool := b.guards.any (·.1 == g)

/-- Whether the builder registers an action under an id. -/
def hasAction (a : String) : Bool := b.actions.any (·.1 == a)

variable {b}

theorem check_snd : b.check.2 = (StateTree.check b.config).2 ++
    referenceErrors b.hasGuard b.hasAction b.config.machineId [] b.config.root := rfl

theorem build_ok_iff_check : (∃ mach, b.build = .ok mach) ↔ b.check.2 = [] := by
  unfold build
  rcases b.check with ⟨tree, _ | ⟨e, errs⟩⟩ <;> simp

theorem check_of_build_eq_error {errs : List ConfigError} (h : b.build = .error ⟨errs⟩) :
    b.check.2 = errs := by
  unfold build at h
  rcases hc : b.check with ⟨tree, _ | ⟨e, es⟩⟩ <;> rw [hc] at h
  · cases h
  · cases h
    rfl

/-- Every problem a builder finds is one its configuration has. -/
theorem reports_of_mem_check {e : ConfigError} (he : e ∈ b.check.2) :
    b.config.Reports b.hasGuard b.hasAction e := by
  rw [check_snd, List.mem_append] at he
  rcases he with he | he
  · exact .inl (TreeBuilder.check_reports b.config e he)
  · exact .inr (unregistered_of_mem_referenceErrors [] b.config.root he)

/-- A builder without problems has a configuration within the rules. -/
theorem valid_of_check_eq_nil (h : b.check.2 = []) : b.config.Valid b.hasGuard b.hasAction := by
  rw [check_snd, List.append_eq_nil_iff] at h
  obtain ⟨hstates, hids, htargets⟩ := TreeBuilder.check_rules b.config h.1
  exact ⟨hstates, hids, htargets, registered_of_referenceErrors_eq_nil [] b.config.root h.2⟩

/-- A machine builds exactly when its configuration is valid, and a failed build
reports only problems it has. -/
theorem build_ok_iff_valid (b : MachineBuilder C E σ) :
    ((∃ mach, b.build = .ok mach) ↔ b.config.Valid b.hasGuard b.hasAction) ∧
    ∀ errs, b.build = .error ⟨errs⟩ →
      (∀ e ∈ errs, b.config.Reports b.hasGuard b.hasAction e) ∧
      ∃ structural references, errs = structural ++ references ∧
        (∀ e ∈ structural, e.isReference = false) ∧ ∀ e ∈ references, e.isReference = true := by
  refine ⟨build_ok_iff_check.trans ⟨valid_of_check_eq_nil, fun hv => ?_⟩, fun errs h => ?_⟩
  · -- a configuration within the rules has no problem to report
    exact List.eq_nil_iff_forall_not_mem.2 fun e he => hv.not_reports e (reports_of_mem_check he)
  · have hcheck := check_of_build_eq_error h
    refine ⟨fun e he => reports_of_mem_check (hcheck ▸ he), _, _, hcheck.symm.trans check_snd,
      fun e he => ?_, fun e he => ?_⟩
    · exact (TreeBuilder.check_reports b.config e he).isReference
    · obtain ⟨x, -, hu⟩ := unregistered_of_mem_referenceErrors [] b.config.root he
      exact hu.isReference

/-- A machine whose initial child has a refused key. -/
def refusedInitial : MachineBuilder Unit Empty Empty :=
  { config := { root := { id := some "m", initial := some "a.b", states := [("a.b", {})] } },
    context := () }

/-- Both of its problems are reported, and each is one it has. -/
theorem refusedInitial_reports :
    refusedInitial.build = .error ⟨[.invalidKey "m" "a.b", .unknownInitial "m" "a.b"]⟩ ∧
      ∀ e ∈ [ConfigError.invalidKey "m" "a.b", .unknownInitial "m" "a.b"],
        refusedInitial.config.Reports refusedInitial.hasGuard refusedInitial.hasAction e := by
  have hb : refusedInitial.build =
      .error ⟨[.invalidKey "m" "a.b", .unknownInitial "m" "a.b"]⟩ := by cbv
  exact ⟨hb, ((build_ok_iff_valid refusedInitial).2 _ hb).1⟩

/-- The initial child of the root is configured, yet reported as unknown: its
key is refused, so the build does not keep it. -/
theorem initial_with_refused_key_unknown :
    refusedInitial.config.root.initial = some "a.b" ∧
      "a.b" ∈ refusedInitial.config.root.states.map Prod.fst ∧
      refusedInitial.build = .error ⟨[.invalidKey "m" "a.b", .unknownInitial "m" "a.b"]⟩ := by
  refine ⟨rfl, by simp [refusedInitial], ?_⟩
  cbv

end MachineBuilder

end Statechart
