import Mathlib
import Statechart.Proofs.Tree.Preorder
import Statechart.Proofs.Machine.Validation
/-!
# Every problem of a kept state is reported

A build reports each rule a kept state breaks (`recorded_addNode`), each id two
kept states share (`duplicateId_mem_indexIds_go`) and each target of a kept
state that does not resolve (`unknownTarget_mem_foldl`): together
`MachineBuilder.build_reports_kept_states`. A child whose key is refused is
left out with its whole subtree, whose problems go unreported even when they
make the machine invalid (`MachineBuilder.refusedSubtree_unreported`).
-/
namespace Statechart

namespace TreeBuilder

/-- The problems `errs` report `e` of the state with id `id`, or, for a key used
twice and refused anyway, that key as refused. -/
def Recorded (errs : List ConfigError) (id : String) (e : ConfigError) : Prop :=
  e ∈ errs ∨ ∃ k, e = .duplicateKey id k ∧ validKey k = false ∧ .invalidKey id k ∈ errs

theorem Recorded.mono {errs errs' : List ConfigError} {id : String} {e : ConfigError}
    (h : Recorded errs id e) (hp : errs <+: errs') : Recorded errs' id e := by
  rcases h with h | ⟨k, rfl, hv, hk⟩
  · exact .inl (hp.subset h)
  · exact .inr ⟨k, rfl, hv, hp.subset hk⟩

/-! ## The rules of each kept state -/

section Own

variable {mid : String}

/-- Adding children records each refused key among them, and each valid key
met a second time or already taken in `seen`. -/
theorem keys_mem_addChildren {index : Nat} {path : List String} {id : String} :
    ∀ (seen : List String) (states : List (String × StateConfig)) (s : State) {k : String},
    k ∈ states.map Prod.fst →
    (validKey k = false → .invalidKey id k ∈ (addChildren mid index path id seen states s).errors) ∧
    (validKey k = true → k ∈ seen ∨ 2 ≤ (states.map Prod.fst).count k →
      .duplicateKey id k ∈ (addChildren mid index path id seen states s).errors)
  | _, [], _, _, hk => absurd hk List.not_mem_nil
  | seen, (key, child) :: rest, s, k, hk => by
    rw [List.map_cons, List.mem_cons] at hk
    rw [List.map_cons, addChildren]
    -- a key other than the head's keeps its count in the rest
    have hcount : k ≠ key → (key :: rest.map Prod.fst).count k = (rest.map Prod.fst).count k :=
      fun hne => List.count_cons_of_ne (Ne.symm hne)
    split
    · -- a refused key: recorded at once
      next hv =>
      have ih := @keys_mem_addChildren index path id seen rest (s.fail (.invalidKey id key)) k
      have hpre := @errors_prefix_addChildren mid index path id seen rest
        (s.fail (.invalidKey id key))
      by_cases hkey : k = key
      · subst hkey
        refine ⟨fun _ => hpre.subset (by simp), fun hkv => ?_⟩
        simp [hkv] at hv
      · exact ⟨(ih (hk.resolve_left hkey)).1, fun hkv hdup =>
          (ih (hk.resolve_left hkey)).2 hkv (by rwa [← hcount hkey])⟩
    split
    · -- a key taken before: recorded at once
      next hv hs =>
      have ih := @keys_mem_addChildren index path id seen rest (s.fail (.duplicateKey id key)) k
      have hpre := @errors_prefix_addChildren mid index path id seen rest
        (s.fail (.duplicateKey id key))
      by_cases hkey : k = key
      · subst hkey
        refine ⟨fun hkv => ?_, fun _ _ => hpre.subset (by simp)⟩
        simp [hkv] at hv
      · exact ⟨(ih (hk.resolve_left hkey)).1, fun hkv hdup =>
          (ih (hk.resolve_left hkey)).2 hkv (by rwa [← hcount hkey])⟩
    · -- a kept key: it is taken from now on
      next hv hs =>
      rcases hadd : addNode mid (some index) (path ++ [key]) key child s with ⟨s₁, c⟩
      dsimp only
      have ih := @keys_mem_addChildren index path id (seen ++ [key]) rest
        (s₁.modifyNode index fun n => { n with children := n.children ++ [c] }) k
      have hnew : key ∉ seen := by simpa using hs
      by_cases hkey : k = key
      · subst hkey
        refine ⟨fun hkv => ?_, fun hkv hdup => ?_⟩
        · simp [hkv] at hv
        · -- not taken before, so used again in the rest
          have hcount' : 2 ≤ (k :: rest.map Prod.fst).count k := hdup.resolve_left hnew
          rw [List.count_cons_self] at hcount'
          exact (ih (List.count_pos_iff.1 (by omega))).2 hkv (.inl (by simp))
      · refine ⟨(ih (hk.resolve_left hkey)).1, fun hkv hdup => ?_⟩
        refine (ih (hk.resolve_left hkey)).2 hkv ?_
        rcases hdup with hdup | hdup
        · exact .inl (List.mem_append_left _ hdup)
        · exact .inr (by rwa [← hcount hkey])

theorem recorded_own (parent : Option Nat) (path : List String) (key : String)
    (config : StateConfig) (s : State) {e : ConfigError}
    (h : config.Breaks (stateId mid config.id path) e) :
    Recorded (addNode mid parent path key config s).1.errors (stateId mid config.id path) e := by
  rw [addNode_eq]
  dsimp only
  -- the stages: the node is pushed, the children added, the initial child picked
  have hchildren := @errors_prefix_addChildren mid s.nodes.size path (stateId mid config.id path) []
    config.states (push mid parent path key config s)
  have hinit := @errors_prefix_setInitial config
    (addChildren mid s.nodes.size path (stateId mid config.id path) [] config.states
      (push mid parent path key config s)) (stateId mid config.id path) s.nodes.size
  have hkeys := @keys_mem_addChildren mid s.nodes.size path (stateId mid config.id path) []
    config.states (push mid parent path key config s)
  have hcases := setInitial_cases (stateId mid config.id path) s.nodes.size config
    (addChildren mid s.nodes.size path (stateId mid config.id path) [] config.states
      (push mid parent path key config s))
  cases e with
  | invalidKey p k =>
    obtain ⟨rfl, hk, hv⟩ := h
    exact .inl (hinit.subset ((hkeys hk).1 hv))
  | duplicateKey p k =>
    obtain ⟨rfl, hcount⟩ := h
    have hk : k ∈ config.states.map Prod.fst := List.count_pos_iff.1 (by omega)
    cases hv : validKey k
    · exact .inr ⟨k, rfl, hv, hinit.subset ((hkeys hk).1 hv)⟩
    · exact .inl (hinit.subset ((hkeys hk).2 hv (.inr hcount)))
  | finalWithChildren p =>
    obtain ⟨rfl, hfinal, hstates⟩ := h
    have hc : (config.kind == some .final && !config.states.isEmpty) = true := by
      simp [hfinal, hstates]
    have hpush : ConfigError.finalWithChildren (stateId mid config.id path) ∈
        (push mid parent path key config s).errors := by
      simp [push, hc]
    exact .inl ((hchildren.trans hinit).subset hpush)
  | missingInitial p =>
    obtain ⟨rfl, hfinal, hstates, hnone⟩ := h
    have hc : kindOf config = .compound := kindOf_eq_compound.2 ⟨hfinal, hstates⟩
    rcases hcases with ⟨k, -, hk, -, -, -⟩ | ⟨k, hk, -, -, -⟩ | ⟨-, -, he⟩ | ⟨k, -, hnc, -⟩ |
      ⟨-, hnc, -⟩
    · rw [hnone] at hk
      cases hk
    · rw [hnone] at hk
      cases hk
    · rw [he]
      exact .inl (by simp)
    · exact absurd hc hnc
    · exact absurd hc hnc
  | unknownInitial p k =>
    obtain ⟨rfl, hfinal, hstates, hk, hbad⟩ := h
    have hc : kindOf config = .compound := kindOf_eq_compound.2 ⟨hfinal, hstates⟩
    -- the initial child names no child the build keeps
    have hnone : ¬ (validKey k = true ∧ k ∈ config.states.map Prod.fst) := by
      rintro ⟨hv, hmem⟩
      rcases hbad with hbad | hbad
      · exact hbad hmem
      · rw [hv] at hbad
        cases hbad
    rcases hcases with ⟨k', c, hk', -, hfind, -⟩ | ⟨k', hk', -, -, he⟩ | ⟨hk', -, -⟩ |
      ⟨k', -, hnc, -⟩ | ⟨-, hnc, -⟩
    · rw [hk, Option.some.injEq] at hk'
      subst hk'
      exact absurd ((@findChild_addChildren_isSome mid parent path key config s k).1
        (by simp [hfind])) hnone
    · rw [hk, Option.some.injEq] at hk'
      subst hk'
      rw [he]
      exact .inl (by simp)
    · rw [hk] at hk'
      cases hk'
    · exact absurd hc hnc
    · exact absurd hc hnc
  | initialOnLeaf p k =>
    obtain ⟨rfl, hleaf, hk⟩ := h
    have hnc : kindOf config ≠ .compound := fun hc => by
      obtain ⟨hfinal, hstates⟩ := kindOf_eq_compound.1 hc
      rcases hleaf with hleaf | hleaf
      · exact hfinal hleaf
      · exact hstates hleaf
    rcases hcases with ⟨k', c, -, hc, -, -⟩ | ⟨k', -, hc, -, -⟩ | ⟨-, hc, -⟩ | ⟨k', hk', -, he⟩ |
      ⟨hk', -, -⟩
    · exact absurd hc hnc
    · exact absurd hc hnc
    · exact absurd hc hnc
    · rw [hk, Option.some.injEq] at hk'
      subst hk'
      rw [he]
      exact .inl (by simp)
    · rw [hk] at hk'
      cases hk'
  | unknownTarget _ _ _ => exact (h : False).elim
  | duplicateId _ => exact (h : False).elim
  | unknownGuard _ _ => exact (h : False).elim
  | unknownAction _ _ => exact (h : False).elim
  | parse _ => exact (h : False).elim

mutual
/-- Adding a state records each rule that a state it keeps breaks. -/
theorem recorded_addNode : ∀ (parent : Option Nat) (path : List String) (key : String)
    (config : StateConfig) (s : State), ∀ x ∈ config.kept path, ∀ e,
      x.2.Breaks (configuredId mid x) e →
      Recorded (addNode mid parent path key config s).1.errors (configuredId mid x) e
  | parent, path, key, ⟨id, kind, initial, entry, exit, on, always, states⟩, s, x, hx, e, h => by
    rw [StateConfig.kept_eq, List.mem_cons] at hx
    rcases hx with rfl | hx
    · exact recorded_own parent path key _ s h
    · -- a state kept below one of the children
      rw [addNode_eq]
      exact (recorded_addChildren s.nodes.size path _ [] states _ x hx e h).mono
        errors_prefix_setInitial

theorem recorded_addChildren : ∀ (index : Nat) (path : List String) (id : String)
    (seen : List String) (states : List (String × StateConfig)) (s : State),
    ∀ x ∈ StateConfig.keptBelow path seen states, ∀ e, x.2.Breaks (configuredId mid x) e →
      Recorded (addChildren mid index path id seen states s).errors (configuredId mid x) e
  | _, _, _, _, [], _, x, hx, _, _ => absurd hx List.not_mem_nil
  | index, path, id, seen, (key, child) :: rest, s, x, hx, e, h => by
    rw [StateConfig.keptBelow_cons] at hx
    rw [addChildren]
    split
    · -- a refused key: its subtree is not kept
      next hv =>
      have hv' : validKey key = false := by simpa using hv
      rw [if_neg (by simp [hv'])] at hx
      exact recorded_addChildren index path id seen rest _ x hx e h
    split
    · -- a key taken before: its subtree is not kept either
      next hv hs =>
      have hs' : key ∈ seen := by simpa using hs
      rw [if_neg (by simp [hs'])] at hx
      exact recorded_addChildren index path id seen rest _ x hx e h
    · -- a kept child: the state is in its subtree or kept after it
      next hv hs =>
      have hv' : validKey key = true := by simpa using hv
      rw [if_pos (by simpa [hv'] using hs)] at hx
      rcases hadd : addNode mid (some index) (path ++ [key]) key child s with ⟨s₁, c⟩
      dsimp only
      rcases List.mem_append.1 hx with hx | hx
      · have h₁ := recorded_addNode (some index) (path ++ [key]) key child s x hx e h
        rw [hadd] at h₁
        exact h₁.mono (@errors_prefix_addChildren mid index path id (seen ++ [key]) rest
          (s₁.modifyNode index fun n => { n with children := n.children ++ [c] }))
      · exact recorded_addChildren index path id (seen ++ [key]) rest _ x hx e h
end

end Own

/-! ## Ids used twice -/

/-- Registering ids records every id met a second time: taken before, or used
twice among the nodes still to register. -/
theorem duplicateId_mem_indexIds_go : ∀ (ns : List Node) (i : Nat) (ids : List (String × Nat))
    (errs : List ConfigError) {id : String}, id ∈ ns.map Node.id →
      2 ≤ (ids.map Prod.fst ++ ns.map Node.id).count id →
      .duplicateId id ∈ (indexIds.go ns i ids errs).2
  | [], _, _, _, _, hid, _ => absurd hid List.not_mem_nil
  | n :: ns, i, ids, errs, id, hid, hcount => by
    -- registering the head moves its id among the registered ones
    have hmove : (((n.id, i) :: ids).map Prod.fst ++ ns.map Node.id).count id =
        (ids.map Prod.fst ++ (n :: ns).map Node.id).count id := by
      simp only [List.map_cons, List.cons_append, List.count_cons, List.count_append]
      omega
    have hcount' : 2 ≤ (((n.id, i) :: ids).map Prod.fst ++ ns.map Node.id).count id := by
      rw [hmove]
      exact hcount
    unfold indexIds.go
    by_cases hn : n.id = id
    · subst hn
      split
      · -- taken before: recorded now
        exact (errors_prefix_indexIds_go ns (i + 1) _ _).subset (by simp)
      · -- not taken before, so met again among the rest
        next hany =>
        have hfresh : (ids.map Prod.fst).count n.id = 0 := List.count_eq_zero.2 fun hmem => hany (by
          obtain ⟨⟨k, v⟩, hkv, hk⟩ := List.mem_map.1 hmem
          exact List.any_eq_true.2 ⟨(k, v), hkv, by simpa using hk⟩)
        have hrest : n.id ∈ ns.map Node.id := by
          apply List.count_pos_iff.1
          simp only [List.count_append, List.map_cons, List.count_cons_self, hfresh] at hcount
          omega
        exact duplicateId_mem_indexIds_go ns (i + 1) _ _ hrest hcount'
    · have hrest : id ∈ ns.map Node.id := by
        rw [List.map_cons, List.mem_cons] at hid
        exact hid.resolve_left (Ne.symm hn)
      split
      · exact duplicateId_mem_indexIds_go ns (i + 1) _ _ hrest hcount'
      · exact duplicateId_mem_indexIds_go ns (i + 1) _ _ hrest hcount'

/-! ## Targets that do not resolve -/

section Targets

open StateTree

variable {t₀ : StateTree}

theorem unknownTarget_mem_addCandidates (source : Nat) (trigger : Trigger)
    (hs : source < t₀.nodes.size) :
    ∀ (ccs : List CandidateConfig) (t : StateTree) (errs : List ConfigError), SameStates t₀ t →
      ∀ cc ∈ ccs, ∀ text, cc.target = some text → t₀.resolve source text = none →
        .unknownTarget (t₀.node source).id trigger.describe text ∈
          (addCandidates source trigger ccs (t, errs)).2
  | [], _, _, _, _, hcc, _, _, _ => absurd hcc List.not_mem_nil
  | cc' :: ccs, t, errs, h, cc, hcc, text, htarget, hr => by
    unfold addCandidates
    rcases List.mem_cons.1 hcc with rfl | hcc
    · -- this candidate fails, as it does in `t₀`
      have hfail : resolveCandidate t source trigger cc =
          .error (.unknownTarget (t₀.node source).id trigger.describe text) := by
        unfold resolveCandidate
        rw [htarget]
        dsimp only
        rw [h.resolve, hr]
        dsimp only
        rw [h.id]
      rw [hfail]
      dsimp only
      exact (errors_prefix_addCandidates source trigger ccs t _).subset (by simp)
    · split
      · next c _ =>
        have hstep := (gainsCandidates_modify (by rw [h.size]; exact hs) trigger c).same
        exact unknownTarget_mem_addCandidates source trigger hs ccs _ errs (h.trans hstep) cc hcc
          text htarget hr
      · exact unknownTarget_mem_addCandidates source trigger hs ccs t _ h cc hcc text htarget hr

/-- Adding the candidates of some `on` entries records every target among them
that does not resolve, under the trigger of its entry. -/
theorem unknownTarget_mem_foldl_on {index : Nat} (hi : index < t₀.nodes.size) :
    ∀ (on : List (String × List CandidateConfig)) (t : StateTree) (errs : List ConfigError),
      SameStates t₀ t → ∀ entry ∈ on, ∀ cc ∈ entry.2, ∀ text, cc.target = some text →
        t₀.resolve index text = none →
        .unknownTarget (t₀.node index).id (Trigger.ofKey entry.1).describe text ∈
          (on.foldl (addEntry index) (t, errs)).2
  | [], _, _, _, _, hentry, _, _, _, _, _ => absurd hentry List.not_mem_nil
  | entry' :: on, t, errs, h, entry, hentry, cc, hcc, text, htarget, hr => by
    rw [List.foldl_cons]
    have hsame : SameStates t₀ (addEntry index (t, errs) entry').1 :=
      (addCandidates_unresolved index (Trigger.ofKey entry'.1) hi entry'.2 t errs h).1
    have hmem := unknownTarget_mem_addCandidates index (Trigger.ofKey entry'.1) hi entry'.2 t errs h
    generalize hacc : addEntry index (t, errs) entry' = acc at hsame
    obtain ⟨t₁, errs₁⟩ := acc
    rcases List.mem_cons.1 hentry with rfl | hentry
    · -- recorded by this entry, and kept by the rest
      have hrec : .unknownTarget (t₀.node index).id (Trigger.ofKey entry.1).describe text ∈ errs₁ := by
        have := hmem cc hcc text htarget hr
        rw [show addCandidates index (Trigger.ofKey entry.1) entry.2 (t, errs) = (t₁, errs₁) from hacc]
          at this
        exact this
      exact (errors_prefix_foldl_on index on (t₁, errs₁)).subset hrec
    · exact unknownTarget_mem_foldl_on hi on t₁ errs₁ hsame entry hentry cc hcc text htarget hr

/-- A configured candidate for a trigger comes from an `on` entry that stands
for the trigger, or from the eventless list. -/
theorem StateConfig.mem_candidatesFor {c : StateConfig} {trigger : Trigger} {cc : CandidateConfig}
    (h : cc ∈ c.candidatesFor trigger) :
    (∃ entry ∈ c.on, Trigger.ofKey entry.1 = trigger ∧ cc ∈ entry.2) ∨
      (trigger = .always ∧ cc ∈ c.always) := by
  unfold StateConfig.candidatesFor at h
  rcases List.mem_append.1 h with h | h
  · obtain ⟨l, hl, hcc⟩ := List.mem_flatten.1 h
    obtain ⟨entry, hentry, rfl⟩ := List.mem_map.1 hl
    obtain ⟨hentry, hkey⟩ := List.mem_filter.1 hentry
    exact .inl ⟨entry, hentry, beq_iff_eq.1 hkey, hcc⟩
  · split at h
    · next halways => exact .inr ⟨halways, h⟩
    · exact absurd h List.not_mem_nil

/-- Adding the transitions of a state records every target it declares that
does not resolve. -/
theorem unknownTarget_mem_addTransitions (config : StateConfig) (errs : List ConfigError)
    {index : Nat} (hi : index < t₀.nodes.size) {t : StateTree} (h : SameStates t₀ t)
    {trigger : Trigger} {cc : CandidateConfig} (hcc : cc ∈ config.candidatesFor trigger)
    {text : String} (htarget : cc.target = some text) (hr : t₀.resolve index text = none) :
    .unknownTarget (t₀.node index).id trigger.describe text ∈
      (addTransitions (t, errs) (index, config)).2 := by
  rw [addTransitions_eq]
  have hsame := (foldl_addEntry_unresolved config hi config.on t errs (fun _ he => he) h).1
  have hon := unknownTarget_mem_foldl_on hi config.on t errs h
  generalize hacc : config.on.foldl (addEntry index) (t, errs) = acc at hsame hon
  obtain ⟨t₁, errs₁⟩ := acc
  rcases StateConfig.mem_candidatesFor hcc with ⟨entry, hentry, rfl, hin⟩ | ⟨rfl, hin⟩
  · exact (errors_prefix_addCandidates index .always config.always t₁ errs₁).subset
      (hon entry hentry cc hin text htarget hr)
  · exact unknownTarget_mem_addCandidates index .always hi config.always t₁ errs₁ hsame cc hin
      text htarget hr

/-- Adding the transitions of the sources records every target a source
declares that does not resolve. -/
theorem unknownTarget_mem_foldl :
    ∀ (srcs : List (Nat × StateConfig)) (t : StateTree) (errs : List ConfigError),
      (∀ p ∈ srcs, p.1 < t₀.nodes.size) → SameStates t₀ t → ∀ p ∈ srcs, ∀ trigger,
      ∀ cc ∈ p.2.candidatesFor trigger, ∀ text, cc.target = some text →
        t₀.resolve p.1 text = none →
        .unknownTarget (t₀.node p.1).id trigger.describe text ∈ (srcs.foldl addTransitions (t, errs)).2
  | [], _, _, _, _, _, hp, _, _, _, _, _, _ => absurd hp List.not_mem_nil
  | (index, config) :: srcs, t, errs, hlt, h, p, hp, trigger, cc, hcc, text, htarget, hr => by
    rw [List.foldl_cons]
    have hsame := (addTransitions_unresolved config errs (hlt _ List.mem_cons_self) h).1
    generalize hacc : addTransitions (t, errs) (index, config) = acc at hsame
    obtain ⟨t₁, errs₁⟩ := acc
    rcases List.mem_cons.1 hp with rfl | hp
    · -- recorded by this source, and kept by the rest
      have hrec := unknownTarget_mem_addTransitions config errs (hlt _ List.mem_cons_self) h hcc
        htarget hr
      rw [hacc] at hrec
      exact (errors_prefix_foldl_addTransitions srcs (t₁, errs₁)).subset hrec
    · exact unknownTarget_mem_foldl srcs t₁ errs₁ (fun q hq => hlt q (List.mem_cons_of_mem _ hq))
        hsame p hp trigger cc hcc text htarget hr

end Targets

end TreeBuilder

namespace MachineConfig

open TreeBuilder

theorem ids_addNode_root (m : MachineConfig) :
    (addNode m.machineId none [] "" m.root {}).1.nodes.toList.map Node.id =
      m.keptStates.map (configuredId m.machineId) := by
  obtain ⟨hidx, hplaced⟩ := placed_root m
  have hlen : (addNode m.machineId none [] "" m.root {}).1.nodes.size = m.keptStates.length := by
    rw [← hplaced]
    exact State.size_eq_length_placed hidx
  refine List.ext_getElem (by simp [hlen]) fun j h₁ h₂ => ?_
  rw [List.getElem_map, List.getElem_map]
  obtain ⟨-, n, hn, -, hid⟩ := node_of_kept m (List.getElem?_eq_getElem (by simpa using h₂))
  obtain ⟨hlt, hj⟩ := Array.getElem?_eq_some_iff.1 hn
  rw [Array.getElem_toList, hj, hid]

/-- The check reports every broken rule, shared id and unresolved target of the
states the build keeps. -/
theorem check_reports_kept (m : MachineConfig) :
    (∀ x ∈ m.keptStates, ∀ e, x.2.Breaks (configuredId m.machineId x) e →
      Recorded (StateTree.check m).2 (configuredId m.machineId x) e) ∧
    (∀ id, 2 ≤ (m.keptStates.map (configuredId m.machineId)).count id →
      .duplicateId id ∈ (StateTree.check m).2) ∧
    (∀ j x, m.keptStates[j]? = some x → ∀ trigger, ∀ cc ∈ x.2.candidatesFor trigger, ∀ text,
      cc.target = some text → (StateTree.check m).1.resolve j text = none →
      .unknownTarget (configuredId m.machineId x) trigger.describe text ∈ (StateTree.check m).2) := by
  obtain ⟨s, ids, idErrors, t, targetErrors, hs, hids, hfold, hcheck⟩ := check_parts m
  obtain ⟨hidx, -⟩ := placed_root m
  rw [hs] at hidx
  rw [hcheck]
  refine ⟨fun x hx e h => ?_, fun id hcount => ?_, fun j x hx trigger cc hcc text htarget hr => ?_⟩
  · -- the pass over the states records it
    have hrec := recorded_addNode none [] "" m.root {} x hx e h
    rw [hs] at hrec
    exact hrec.mono ((List.prefix_append _ idErrors).trans (List.prefix_append _ targetErrors))
  · -- the pass over the ids records it
    have hnodes : s.nodes.toList.map Node.id = m.keptStates.map (configuredId m.machineId) := by
      rw [← hs]
      exact ids_addNode_root m
    have hid : id ∈ s.nodes.toList.map Node.id := by
      rw [hnodes]
      exact List.count_pos_iff.1 (by omega)
    have hdup := duplicateId_mem_indexIds_go s.nodes.toList 0 [] [] hid
      (by rw [List.map_nil, List.nil_append, hnodes]; exact hcount)
    have hmem : ConfigError.duplicateId id ∈ idErrors := by
      have h' : (indexIds s.nodes.toList).2 = idErrors := by rw [hids]
      rw [← h']
      exact hdup
    simp [hmem]
  · -- the pass over the transitions records it, from the node of the state
    obtain ⟨hsrc, n, hn, -, hid⟩ := node_of_kept m hx
    rw [hs] at hsrc hn
    have hlt : ∀ p ∈ s.sources, p.1 < (⟨s.nodes, ids⟩ : StateTree).nodes.size :=
      fun _ hp => hidx.lt_size hp
    have hsame := (foldl_addTransitions_unresolved s.sources _ [] hlt (StateTree.SameStates.refl _)).1
    rw [hfold] at hsame
    rw [hsame.resolve] at hr
    have hnode : (⟨s.nodes, ids⟩ : StateTree).node j = n := by
      show s.nodes[j]?.getD default = n
      rw [hn]
      rfl
    have hmem := unknownTarget_mem_foldl s.sources _ [] hlt (StateTree.SameStates.refl _) (j, x.2)
      hsrc trigger cc hcc text htarget hr
    rw [hfold, hnode, hid] at hmem
    simp [hmem]

end MachineConfig

namespace MachineBuilder

variable {C E σ : Type}

theorem build_eq_error_of_mem {b : MachineBuilder C E σ} {e : ConfigError} (h : e ∈ b.check.2) :
    b.build = .error ⟨b.check.2⟩ := by
  unfold build
  rcases hc : b.check with ⟨tree, _ | ⟨e', errs⟩⟩
  · rw [hc] at h
    cases h
  · rfl

/-- A build fails with every problem of the states it keeps: each broken rule,
shared id and target that does not resolve. -/
theorem build_reports_kept_states (b : MachineBuilder C E σ) :
    (∀ x ∈ b.config.keptStates, ∀ e, x.2.Breaks (configuredId b.config.machineId x) e →
      ∃ errs, b.build = .error ⟨errs⟩ ∧
        TreeBuilder.Recorded errs (configuredId b.config.machineId x) e) ∧
    (∀ id, 2 ≤ (b.config.keptStates.map (configuredId b.config.machineId)).count id →
      ∃ errs, b.build = .error ⟨errs⟩ ∧ .duplicateId id ∈ errs) ∧
    (∀ j x, b.config.keptStates[j]? = some x → ∀ trigger, ∀ cc ∈ x.2.candidatesFor trigger,
      ∀ text, cc.target = some text → (StateTree.check b.config).1.resolve j text = none →
      ∃ errs, b.build = .error ⟨errs⟩ ∧
        .unknownTarget (configuredId b.config.machineId x) trigger.describe text ∈ errs) := by
  obtain ⟨hrules, hids, htargets⟩ := b.config.check_reports_kept
  -- the problems of the tree come first among those of the build
  have hsub : (StateTree.check b.config).2 <+: b.check.2 := by
    rw [check_snd]
    exact List.prefix_append _ _
  refine ⟨fun x hx e h => ?_, fun id hcount => ?_, fun j x hx trigger cc hcc text htarget hr => ?_⟩
  · have hrec := hrules x hx e h
    obtain ⟨e', he'⟩ : ∃ e', e' ∈ (StateTree.check b.config).2 := by
      rcases hrec with he | ⟨k, -, -, hk⟩
      · exact ⟨e, he⟩
      · exact ⟨_, hk⟩
    exact ⟨_, build_eq_error_of_mem (hsub.subset he'), hrec.mono hsub⟩
  · have he := hids id hcount
    exact ⟨_, build_eq_error_of_mem (hsub.subset he), hsub.subset he⟩
  · have he := htargets j x hx trigger cc hcc text htarget hr
    exact ⟨_, build_eq_error_of_mem (hsub.subset he), hsub.subset he⟩

/-- A machine with a problem at every state: missing, misplaced and absent
initial children, an unknown target and a final state with a child. -/
def brokenMachine : MachineBuilder Unit Empty Empty :=
  { config := { root := { id := some "broken", initial := some "missing",
                          states := [("a", { initial := some "x",
                                             on := [("GO", [{ target := some "#nowhere",
                                                              guard := some "ghost" }])] }),
                                     ("b", { kind := some .final, states := [("c", {})] }),
                                     ("d", { entry := ["phantom"], states := [("e", {})] })] } },
    context := () }

/-- The missing initial child of `d` and the target of `a` that does not
resolve are both among the errors of the build. -/
theorem brokenMachine_reports :
    ∃ errs, brokenMachine.build = .error ⟨errs⟩ ∧
      TreeBuilder.Recorded errs "broken.d" (.missingInitial "broken.d") ∧
      ConfigError.unknownTarget "broken.a" "GO" "#nowhere" ∈ errs := by
  obtain ⟨hrules, -, htargets⟩ := build_reports_kept_states brokenMachine
  have hd : brokenMachine.config.keptStates[4]? =
      some (["d"], { entry := ["phantom"], states := [("e", {})] }) := by
    cbv
  have ha : brokenMachine.config.keptStates[1]? =
      some (["a"], { initial := some "x",
                     on := [("GO", [{ target := some "#nowhere", guard := some "ghost" }])] }) := by
    cbv
  obtain ⟨errs, hb, hrec⟩ := hrules _ (List.mem_of_getElem? hd) (.missingInitial "broken.d")
    ⟨rfl, by simp, by simp, rfl⟩
  obtain ⟨errs', hb', htarget⟩ := htargets 1 _ ha (.event "GO") ⟨some "#nowhere", some "ghost", []⟩
    (by simp [StateConfig.candidatesFor, Trigger.ofKey]) "#nowhere" rfl (by cbv)
  rw [hb] at hb'
  cases hb'
  exact ⟨errs, hb, hrec, htarget⟩

/-- A machine whose child `b.c` has a refused key, and below it a compound
state `x` without an initial child. -/
def refusedSubtree : MachineBuilder Unit Empty Empty :=
  { config := { root := { id := some "m", initial := some "a",
                          states := [("a", {}),
                                     ("b.c", { id := some "bc", initial := some "x",
                                               states := [("x", { id := some "x",
                                                                  states := [("y", {})] })] })] } },
    context := () }

/-- The state `x` below the refused key `b.c` has no initial child, yet the
build reports only the refused key: the subtree below it is never checked. -/
theorem refusedSubtree_unreported :
    (["b.c", "x"], { id := some "x", states := [("y", {})] }) ∈ refusedSubtree.config.states ∧
      StateConfig.Breaks { id := some "x", states := [("y", {})] } "x" (.missingInitial "x") ∧
      refusedSubtree.build = .error ⟨[.invalidKey "m" "b.c"]⟩ := by
  have hx : refusedSubtree.config.states[3]? =
      some (["b.c", "x"], { id := some "x", states := [("y", {})] }) := by
    cbv
  exact ⟨List.mem_of_getElem? hx, ⟨rfl, by simp, by simp, rfl⟩, by cbv⟩

end MachineBuilder

end Statechart
