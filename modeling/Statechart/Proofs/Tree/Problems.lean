import Mathlib.Data.List.Nodup
import Statechart.Proofs.Tree.Kept
/-!
# The problems a check reports

Each configured state must keep a few rules of its own (`StateConfig.Checked`):
valid, distinct child keys, no children under a final state, and an initial
child named by a compound state and by no other. Every structural problem a
build records is one that a state breaks (`breaks_addNode`), and a build that
records none leaves no rule broken (`checked_addNode`). An initial child whose
key is refused is reported as unknown, next to the refused key.
-/
namespace Statechart

/-- The rules one configured state must keep: valid, distinct child keys, no
children if final, and an initial child exactly when compound. -/
structure StateConfig.Checked (c : StateConfig) : Prop where
  keys_valid : ∀ k ∈ c.states.map Prod.fst, validKey k = true
  keys_nodup : (c.states.map Prod.fst).Nodup
  final_leaf : c.kind = some .final → c.states = []
  initial_child : c.kind ≠ some .final → c.states ≠ [] →
    ∃ k ∈ c.states.map Prod.fst, c.initial = some k
  no_initial : c.kind = some .final ∨ c.states = [] → c.initial = none

/-- The problem `e` is one the state `c` with id `id` has; an initial child is
unknown unless it is a kept child. -/
def StateConfig.Breaks (c : StateConfig) (id : String) : ConfigError → Prop
  | .invalidKey p k => p = id ∧ k ∈ c.states.map Prod.fst ∧ validKey k = false
  | .duplicateKey p k => p = id ∧ 2 ≤ (c.states.map Prod.fst).count k
  | .finalWithChildren p => p = id ∧ c.kind = some .final ∧ c.states ≠ []
  | .missingInitial p => p = id ∧ c.kind ≠ some .final ∧ c.states ≠ [] ∧ c.initial = none
  | .unknownInitial p k => p = id ∧ c.kind ≠ some .final ∧ c.states ≠ [] ∧
      c.initial = some k ∧ (k ∉ c.states.map Prod.fst ∨ validKey k = false)
  | .initialOnLeaf p k => p = id ∧ (c.kind = some .final ∨ c.states = []) ∧ c.initial = some k
  | _ => False

theorem StateConfig.Checked.not_breaks {c : StateConfig} (h : c.Checked) {id : String} :
    ∀ e, ¬ c.Breaks id e
  | .invalidKey _ k, ⟨_, hk, hv⟩ => by
    rw [h.keys_valid k hk] at hv
    cases hv
  | .duplicateKey _ k, ⟨_, hcount⟩ => by
    have := List.nodup_iff_count_le_one.1 h.keys_nodup k
    omega
  | .finalWithChildren _, ⟨_, hfinal, hstates⟩ => hstates (h.final_leaf hfinal)
  | .missingInitial _, ⟨_, hfinal, hstates, hnone⟩ => by
    obtain ⟨k, -, hk⟩ := h.initial_child hfinal hstates
    rw [hnone] at hk
    cases hk
  | .unknownInitial _ k, ⟨_, hfinal, hstates, hk, hbad⟩ => by
    obtain ⟨k', hk', hinit⟩ := h.initial_child hfinal hstates
    rw [hk, Option.some.injEq] at hinit
    subst hinit
    rcases hbad with hbad | hbad
    · exact hbad hk'
    · rw [h.keys_valid k hk'] at hbad
      cases hbad
  | .initialOnLeaf _ _, ⟨_, hleaf, hk⟩ => by
    rw [h.no_initial hleaf] at hk
    cases hk
  | .unknownTarget .., hb => hb
  | .duplicateId _, hb => hb
  | .unknownGuard .., hb => hb
  | .unknownAction .., hb => hb
  | .parse _, hb => hb

namespace TreeBuilder

section Steps

variable {mid : String} {parent : Option Nat} {path : List String} {key : String}
  {config : StateConfig} {s : State}

theorem mem_push_errors {e : ConfigError} (he : e ∈ (push mid parent path key config s).errors) :
    e ∈ s.errors ∨ (e = .finalWithChildren (stateId mid config.id path) ∧
      config.kind = some .final ∧ config.states ≠ []) := by
  by_cases hc : (config.kind == some .final && !config.states.isEmpty) = true
  · simp only [push, hc, if_true, State.fail_errors, List.mem_append, List.mem_singleton] at he
    rcases he with he | rfl
    · exact .inl he
    · simp only [Bool.and_eq_true, beq_iff_eq, Bool.not_eq_eq_eq_not, Bool.not_true,
        List.isEmpty_eq_false_iff] at hc
      exact .inr ⟨rfl, hc.1, hc.2⟩
  · simp only [push, hc] at he
    exact .inl he

/-- The rules of a state follow when pushing it, adding its children and
picking its initial child record no problem. -/
theorem checked_of_stages_clean
    (h₁ : (push mid parent path key config s).errors = s.errors)
    (h₂ : (addChildren mid s.nodes.size path (stateId mid config.id path) [] config.states
      (push mid parent path key config s)).errors = (push mid parent path key config s).errors)
    (h₃ : (setInitial (stateId mid config.id path) s.nodes.size config
        (addChildren mid s.nodes.size path (stateId mid config.id path) [] config.states
          (push mid parent path key config s))).errors =
      (addChildren mid s.nodes.size path (stateId mid config.id path) [] config.states
        (push mid parent path key config s)).errors) :
    config.Checked := by
  have hadded := addChildren_clean s.nodes.size path (stateId mid config.id path) [] config.states
    (push mid parent path key config s) h₂ (by
      rw [push_nodes, Array.size_push]
      omega)
  obtain ⟨hcompound, hleaf⟩ := setInitial_clean_initial h₃
  refine ⟨fun k hk => (hadded.keys_fresh k hk).1, hadded.keys_nodup, push_clean h₁,
    fun hfinal hstates => ?_, fun hnone => hleaf fun hc => ?_⟩
  · -- the initial child was found, so its key is a valid configured key
    obtain ⟨k, hk, hfound⟩ := hcompound (kindOf_eq_compound.2 ⟨hfinal, hstates⟩)
    exact ⟨k, ((@findChild_addChildren_isSome mid parent path key config s k).1 hfound).2, hk⟩
  · obtain ⟨hfinal, hstates⟩ := kindOf_eq_compound.1 hc
    rcases hnone with hnone | hnone
    · exact hfinal hnone
    · exact hstates hnone

/-- Picking the initial child records only problems the state itself has. -/
theorem setInitial_breaks {e : ConfigError}
    (he : e ∈ (setInitial (stateId mid config.id path) s.nodes.size config
      (addChildren mid s.nodes.size path (stateId mid config.id path) [] config.states
        (push mid parent path key config s))).errors) :
    e ∈ (addChildren mid s.nodes.size path (stateId mid config.id path) [] config.states
        (push mid parent path key config s)).errors ∨
      config.Breaks (stateId mid config.id path) e := by
  rcases setInitial_cases (stateId mid config.id path) s.nodes.size config
      (addChildren mid s.nodes.size path (stateId mid config.id path) [] config.states
        (push mid parent path key config s)) with
    ⟨k, c, -, -, -, h⟩ | ⟨k, hk, hkind, hfind, h⟩ | ⟨hk, hkind, h⟩ | ⟨k, hk, hkind, h⟩ |
      ⟨-, -, h⟩ <;>
    rw [h] at he
  · exact .inl he
  · -- the initial child is not the key of a kept child
    rcases State.mem_fail_errors he with he | rfl
    · exact .inl he
    obtain ⟨hfinal, hstates⟩ := kindOf_eq_compound.1 hkind
    have hnot := (@findChild_addChildren_isSome mid parent path key config s k).not.1
      (by simp [hfind])
    refine .inr ⟨rfl, hfinal, hstates, hk, ?_⟩
    by_cases hv : validKey k = true
    · exact .inl fun hmem => hnot ⟨hv, hmem⟩
    · exact .inr (by simpa using hv)
  · rcases State.mem_fail_errors he with he | rfl
    · exact .inl he
    exact .inr ⟨rfl, (kindOf_eq_compound.1 hkind).1, (kindOf_eq_compound.1 hkind).2, hk⟩
  · rcases State.mem_fail_errors he with he | rfl
    · exact .inl he
    refine .inr ⟨rfl, ?_, hk⟩
    by_cases hfinal : config.kind = some .final
    · exact .inl hfinal
    · exact .inr (by_contra fun hstates => hkind (kindOf_eq_compound.2 ⟨hfinal, hstates⟩))
  · exact .inl he

end Steps

/-! ## Every problem recorded is a rule broken -/

section Sound

variable {mid : String}

theorem breaks_addNode_step {parent : Option Nat} {path : List String} {key : String}
    {config : StateConfig} {s : State}
    (hc : ∀ e ∈ (addChildren mid s.nodes.size path (stateId mid config.id path) [] config.states
        (push mid parent path key config s)).errors,
      e ∈ (push mid parent path key config s).errors ∨
        config.Breaks (stateId mid config.id path) e ∨
        ∃ x ∈ StateConfig.subtrees path config.states, x.2.Breaks (configuredId mid x) e) :
    ∀ e ∈ (addNode mid parent path key config s).1.errors,
      e ∈ s.errors ∨ ∃ x ∈ config.subtree path, x.2.Breaks (configuredId mid x) e := by
  have hself := StateConfig.self_mem_subtree path config
  have hbelow : ∀ x ∈ StateConfig.subtrees path config.states, x ∈ config.subtree path :=
    fun x hx => by
      rw [StateConfig.subtree_eq]
      exact List.mem_cons_of_mem _ hx
  -- a problem of the push or of the children
  have hchildren : ∀ e ∈ (addChildren mid s.nodes.size path (stateId mid config.id path) []
      config.states (push mid parent path key config s)).errors,
      e ∈ s.errors ∨ ∃ x ∈ config.subtree path, x.2.Breaks (configuredId mid x) e := by
    intro e he
    rcases hc e he with he | he | ⟨x, hx, hb⟩
    · rcases mem_push_errors he with he | ⟨rfl, hfinal, hstates⟩
      · exact .inl he
      · exact .inr ⟨(path, config), hself, rfl, hfinal, hstates⟩
    · exact .inr ⟨(path, config), hself, he⟩
    · exact .inr ⟨x, hbelow x hx, hb⟩
  intro e he
  rw [addNode_eq] at he
  rcases setInitial_breaks he with he | hb
  · exact hchildren e he
  · exact .inr ⟨(path, config), hself, hb⟩

/-- A refused child: the problem recorded for it is one its parent has, and
the later problems are those of the rest. -/
theorem breaks_of_refused {cfg : StateConfig} {id : String}
    {xs ys : List (List String × StateConfig)} {s r : State} {e' : ConfigError}
    (hys : ∀ x ∈ ys, x ∈ xs)
    (h : ∀ e ∈ r.errors, e ∈ (s.fail e').errors ∨ cfg.Breaks id e ∨
      ∃ x ∈ ys, x.2.Breaks (configuredId mid x) e) (hown : cfg.Breaks id e') :
    ∀ e ∈ r.errors, e ∈ s.errors ∨ cfg.Breaks id e ∨
      ∃ x ∈ xs, x.2.Breaks (configuredId mid x) e := by
  intro e he
  rcases h e he with he | he | ⟨x, hx, hb⟩
  · rcases State.mem_fail_errors he with he | rfl
    · exact .inl he
    · exact .inr (.inl hown)
  · exact .inr (.inl he)
  · exact .inr (.inr ⟨x, hys x hx, hb⟩)

mutual
/-- Each problem adding a state records is a rule that a state of its subtree breaks. -/
theorem breaks_addNode : ∀ (parent : Option Nat) (path : List String) (key : String)
    (config : StateConfig) (s : State), ∀ e ∈ (addNode mid parent path key config s).1.errors,
      e ∈ s.errors ∨ ∃ x ∈ config.subtree path, x.2.Breaks (configuredId mid x) e
  | _, path, _, ⟨_, _, _, _, _, _, _, states⟩, _ =>
    breaks_addNode_step (breaks_addChildren _ path _ [] [] states _ rfl fun _ h =>
      absurd h List.not_mem_nil)

/-- Each problem adding the children of `cfg` records is one `cfg` or a state below it breaks. -/
theorem breaks_addChildren : ∀ (index : Nat) (path : List String) (cfg : StateConfig)
    (before : List (String × StateConfig)) (seen : List String)
    (states : List (String × StateConfig)) (s : State),
    cfg.states = before ++ states → (∀ k ∈ seen, k ∈ before.map Prod.fst) →
    ∀ e ∈ (addChildren mid index path (stateId mid cfg.id path) seen states s).errors,
      e ∈ s.errors ∨ cfg.Breaks (stateId mid cfg.id path) e ∨
        ∃ x ∈ StateConfig.subtrees path states, x.2.Breaks (configuredId mid x) e
  | _, _, _, _, _, [], _, _, _, e, he => .inl (by rwa [addChildren] at he)
  | index, path, cfg, before, seen, (key, child) :: rest, s, hstates, hseen, e, he => by
    have hkey : key ∈ cfg.states.map Prod.fst := by
      rw [hstates]
      simp
    have hstates' : cfg.states = (before ++ [(key, child)]) ++ rest := by
      rw [hstates]
      simp
    have hrest : ∀ x ∈ StateConfig.subtrees path rest,
        x ∈ StateConfig.subtrees path ((key, child) :: rest) := fun x hx => by simp [hx]
    rw [addChildren] at he
    split at he
    · -- a refused key
      next hv =>
      exact breaks_of_refused hrest
        (breaks_addChildren index path cfg (before ++ [(key, child)]) seen rest
          (s.fail (.invalidKey _ key)) hstates' (fun k hk => by simp [hseen k hk]))
        ⟨rfl, hkey, by simpa using hv⟩ e he
    split at he
    · -- a key used twice: it was among the keys before
      next hs =>
      have hb : 0 < (before.map Prod.fst).count key :=
        List.count_pos_iff.2 (hseen key (by simpa using hs))
      have hcount : 2 ≤ (cfg.states.map Prod.fst).count key := by
        rw [hstates, List.map_append, List.count_append, List.map_cons, List.count_cons_self]
        omega
      exact breaks_of_refused hrest
        (breaks_addChildren index path cfg (before ++ [(key, child)]) seen rest
          (s.fail (.duplicateKey _ key)) hstates' (fun k hk => by simp [hseen k hk]))
        ⟨rfl, hcount⟩ e he
    · -- a kept child: its subtree's problems, then those of the rest
      rcases hadd : addNode mid (some index) (path ++ [key]) key child s with ⟨s₁, c⟩
      rw [hadd] at he
      dsimp only at he
      rcases breaks_addChildren index path cfg (before ++ [(key, child)]) (seen ++ [key]) rest _
          hstates' (fun k hk => by
            rcases List.mem_append.1 hk with hk | hk
            · simp [hseen k hk]
            · simp_all) e he with he | he | ⟨x, hx, hb⟩
      · rw [State.modifyNode_errors] at he
        rcases breaks_addNode (some index) (path ++ [key]) key child s e (by rw [hadd]; exact he)
          with he | ⟨x, hx, hb⟩
        · exact .inl he
        · exact .inr (.inr ⟨x, by simp [hx], hb⟩)
      · exact .inr (.inl he)
      · exact .inr (.inr ⟨x, hrest x hx, hb⟩)
end

end Sound

/-! ## A build without problems breaks no rule -/

section Complete

variable {mid : String}

mutual
/-- Adding a state without a problem leaves every state of its subtree within its rules. -/
theorem checked_addNode : ∀ (parent : Option Nat) (path : List String) (key : String)
    (config : StateConfig) (s : State), (addNode mid parent path key config s).1.errors = s.errors →
      ∀ x ∈ config.subtree path, x.2.Checked
  | _, path, _, ⟨_, _, _, _, _, _, _, states⟩, _, herr => by
    obtain ⟨h₁, h₂, h₃⟩ := addNode_stages_clean herr
    intro x hx
    rw [StateConfig.subtree_eq] at hx
    rcases List.mem_cons.1 hx with rfl | hx
    · exact checked_of_stages_clean h₁ h₂ h₃
    · exact checked_addChildren _ path _ [] states _ h₂ x hx

/-- Adding children without a problem leaves every state of their subtrees
within its rules. -/
theorem checked_addChildren : ∀ (index : Nat) (path : List String) (id : String)
    (seen : List String) (states : List (String × StateConfig)) (s : State),
    (addChildren mid index path id seen states s).errors = s.errors →
      ∀ x ∈ StateConfig.subtrees path states, x.2.Checked
  | _, _, _, _, [], _, _, x, hx => absurd hx List.not_mem_nil
  | index, path, id, seen, (key, child) :: rest, s, herr, x, hx => by
    rw [addChildren] at herr
    -- a refused key records a problem
    split at herr
    · exact absurd herr (addChildren_fail_ne _ _ _)
    split at herr
    · exact absurd herr (addChildren_fail_ne _ _ _)
    rcases hadd : addNode mid (some index) (path ++ [key]) key child s with ⟨s₁, c⟩
    rw [hadd] at herr
    dsimp only at herr
    have e₁ := @errors_prefix_addNode mid (some index) (path ++ [key]) key child s
    rw [hadd] at e₁
    have h₁ : s₁.errors = s.errors := eq_of_prefix_of_prefix e₁
      (@errors_prefix_addChildren mid index path id (seen ++ [key]) rest
        (s₁.modifyNode index fun n => { n with children := n.children ++ [c] })) herr
    rw [StateConfig.subtrees_cons, List.mem_append] at hx
    rcases hx with hx | hx
    · exact checked_addNode (some index) (path ++ [key]) key child s (by rw [hadd]; exact h₁) x hx
    · exact checked_addChildren index path id (seen ++ [key]) rest _ (herr.trans h₁.symm) x hx
end

end Complete

/-! ## Ids taken twice -/

/-- Each problem registering ids records is an id that two nodes share, those
registered before included. -/
theorem mem_indexIds_go_errors : ∀ (ns : List Node) (i : Nat) (ids : List (String × Nat))
    (errs : List ConfigError) {e : ConfigError}, e ∈ (indexIds.go ns i ids errs).2 →
      e ∈ errs ∨ ∃ id, e = .duplicateId id ∧ 2 ≤ (ids.map Prod.fst ++ ns.map Node.id).count id
  | [], _, _, _, _, he => .inl he
  | n :: ns, i, ids, errs, e, he => by
    -- registering the head moves its id to the registered ones
    have hcount : ∀ id, (((n.id, i) :: ids).map Prod.fst ++ ns.map Node.id).count id =
        (ids.map Prod.fst ++ (n :: ns).map Node.id).count id := by
      intro id
      simp only [List.map_cons, List.cons_append, List.count_cons, List.count_append]
      omega
    unfold indexIds.go at he
    split at he
    next hany =>
      rcases mem_indexIds_go_errors ns (i + 1) ((n.id, i) :: ids) _ he with he | ⟨id, rfl, h⟩
      · rw [List.mem_append, List.mem_singleton] at he
        rcases he with he | rfl
        · exact .inl he
        · -- the head's id was registered before
          obtain ⟨⟨k, v⟩, hkv, hk⟩ := List.any_eq_true.1 hany
          have hk : k = n.id := by simpa using hk
          have hpos : 0 < (ids.map Prod.fst).count n.id :=
            List.count_pos_iff.2 (List.mem_map.2 ⟨(k, v), hkv, hk⟩)
          refine .inr ⟨n.id, rfl, ?_⟩
          simp only [List.map_cons, List.count_append, List.count_cons_self]
          omega
      · exact .inr ⟨id, rfl, hcount id ▸ h⟩
    · rcases mem_indexIds_go_errors ns (i + 1) ((n.id, i) :: ids) _ he with he | ⟨id, rfl, h⟩
      · exact .inl he
      · exact .inr ⟨id, rfl, hcount id ▸ h⟩

theorem nodup_of_indexIds_go : ∀ (ns : List Node) (i : Nat) (ids : List (String × Nat))
    (errs : List ConfigError), (indexIds.go ns i ids errs).2 = errs →
      (ids.map Prod.fst).Nodup → (ids.map Prod.fst ++ ns.map Node.id).Nodup
  | [], _, _, _, _, h => by simpa using h
  | n :: ns, i, ids, errs, herr, h => by
    unfold indexIds.go at herr
    split at herr
    · have hpre := errors_prefix_indexIds_go ns (i + 1) ((n.id, i) :: ids)
        (errs ++ [.duplicateId n.id])
      rw [herr] at hpre
      have := hpre.length_le
      simp only [List.length_append, List.length_singleton] at this
      omega
    next hany =>
      have hfresh : n.id ∉ ids.map Prod.fst := fun hmem => hany (by
        obtain ⟨⟨k, v⟩, hkv, hk⟩ := List.mem_map.1 hmem
        exact List.any_eq_true.2 ⟨(k, v), hkv, by simpa using hk⟩)
      have ih := nodup_of_indexIds_go ns (i + 1) ((n.id, i) :: ids) errs herr
        (List.nodup_cons.2 ⟨hfresh, h⟩)
      rw [List.map_cons, List.cons_append] at ih
      rw [List.map_cons]
      exact List.perm_middle.nodup_iff.2 ih

/-! ## Targets that do not resolve -/

theorem resolveCandidate_eq_error {t : StateTree} {source : Nat} {trigger : Trigger}
    {cc : CandidateConfig} {e : ConfigError} (h : resolveCandidate t source trigger cc = .error e) :
    ∃ text, cc.target = some text ∧ t.resolve source text = none ∧
      e = .unknownTarget (t.node source).id trigger.describe text := by
  unfold resolveCandidate at h
  split at h
  · cases h
  · next text htarget =>
    split at h
    · cases h
    · next hr =>
      cases h
      exact ⟨text, htarget, hr, rfl⟩

theorem StateConfig.mem_candidatesFor_ofKey {c : StateConfig}
    {entry : String × List CandidateConfig} (he : entry ∈ c.on) {cc : CandidateConfig}
    (hcc : cc ∈ entry.2) :
    cc ∈ c.candidatesFor (Trigger.ofKey entry.1) := by
  unfold StateConfig.candidatesFor
  refine List.mem_append_left _ (List.mem_flatten.2 ⟨entry.2, ?_, hcc⟩)
  exact List.mem_map.2 ⟨entry, List.mem_filter.2 ⟨he, by simp⟩, rfl⟩

theorem StateConfig.mem_candidatesFor_always {c : StateConfig} {cc : CandidateConfig}
    (h : cc ∈ c.always) : cc ∈ c.candidatesFor .always := by
  unfold StateConfig.candidatesFor
  simp [h]

/-- The problem `e` reports a target that the state configured as `config`
declares, for some trigger, and that does not resolve from the node `i` of `t`. -/
def UnresolvedAt (t : StateTree) (i : Nat) (config : StateConfig) (e : ConfigError) : Prop :=
  ∃ trigger, ∃ cc ∈ config.candidatesFor trigger, ∃ text, cc.target = some text ∧
    t.resolve i text = none ∧ e = .unknownTarget (t.node i).id trigger.describe text

section Targets

open StateTree

variable {t₀ : StateTree}

/-- Adding candidates keeps the states of the tree, and each problem it records
is a target of the list that does not resolve. -/
theorem addCandidates_unresolved (source : Nat) (trigger : Trigger) (hs : source < t₀.nodes.size) :
    ∀ (ccs : List CandidateConfig) (t : StateTree) (errs : List ConfigError), SameStates t₀ t →
      SameStates t₀ (addCandidates source trigger ccs (t, errs)).1 ∧
      ∀ e ∈ (addCandidates source trigger ccs (t, errs)).2, e ∈ errs ∨
        ∃ cc ∈ ccs, ∃ text, cc.target = some text ∧ t₀.resolve source text = none ∧
          e = .unknownTarget (t₀.node source).id trigger.describe text
  | [], _, _, h => ⟨h, fun _ he => .inl he⟩
  | cc :: ccs, t, errs, h => by
    unfold addCandidates
    split
    · next c _ =>
      have hstep := (gainsCandidates_modify (by rw [h.size]; exact hs) trigger c).same
      obtain ⟨hsame, hmem⟩ := addCandidates_unresolved source trigger hs ccs _ errs (h.trans hstep)
      refine ⟨hsame, fun e he => ?_⟩
      rcases hmem e he with he | ⟨cc', hcc', rest⟩
      · exact .inl he
      · exact .inr ⟨cc', List.mem_cons_of_mem _ hcc', rest⟩
    · next e' he' =>
      obtain ⟨hsame, hmem⟩ := addCandidates_unresolved source trigger hs ccs t (errs ++ [e']) h
      refine ⟨hsame, fun e he => ?_⟩
      rcases hmem e he with he | ⟨cc', hcc', rest⟩
      · rw [List.mem_append, List.mem_singleton] at he
        rcases he with he | rfl
        · exact .inl he
        · -- the candidate that failed: resolution is the same in `t` and `t₀`
          obtain ⟨text, htarget, hr, rfl⟩ := resolveCandidate_eq_error he'
          rw [h.resolve] at hr
          exact .inr ⟨cc, List.mem_cons_self, text, htarget, hr, by rw [h.id]⟩
      · exact .inr ⟨cc', List.mem_cons_of_mem _ hcc', rest⟩

/-- Adding candidates of `on` entries of `config` keeps the tree's states and
records only targets of `config` that do not resolve. -/
theorem foldl_addEntry_unresolved (config : StateConfig) {index : Nat}
    (hi : index < t₀.nodes.size) :
    ∀ (on : List (String × List CandidateConfig)) (t : StateTree) (errs : List ConfigError),
      (∀ entry ∈ on, entry ∈ config.on) → SameStates t₀ t →
      SameStates t₀ (on.foldl (addEntry index) (t, errs)).1 ∧
      ∀ e ∈ (on.foldl (addEntry index) (t, errs)).2, e ∈ errs ∨ UnresolvedAt t₀ index config e
  | [], _, _, _, h => ⟨h, fun _ he => .inl he⟩
  | entry :: on, t, errs, hon, h => by
    rw [List.foldl_cons]
    obtain ⟨hsame, hmem⟩ :=
      addCandidates_unresolved index (Trigger.ofKey entry.1) hi entry.2 t errs h
    generalize hacc : addEntry index (t, errs) entry = acc at hsame hmem ⊢
    obtain ⟨t₁, errs₁⟩ := acc
    have hmem : ∀ e ∈ errs₁, e ∈ errs ∨ UnresolvedAt t₀ index config e := by
      intro e he
      rcases (show ∀ e ∈ (addEntry index (t, errs) entry).2, _ from hmem) e (by rw [hacc]; exact he)
        with he | ⟨cc, hcc, text, htarget, hr, rfl⟩
      · exact .inl he
      · exact .inr ⟨_, cc, StateConfig.mem_candidatesFor_ofKey (hon entry List.mem_cons_self) hcc,
          text, htarget, hr, rfl⟩
    obtain ⟨hsame', hmem'⟩ := foldl_addEntry_unresolved config hi on t₁ errs₁
      (fun e he => hon e (List.mem_cons_of_mem _ he)) (by
        have : SameStates t₀ (addEntry index (t, errs) entry).1 := hsame
        rwa [hacc] at this)
    refine ⟨hsame', fun e he => ?_⟩
    rcases hmem' e he with he | he
    · exact hmem e he
    · exact .inr he

/-- Adding the transitions of a state keeps the states of the tree, and each
problem it records is a target of the state that does not resolve. -/
theorem addTransitions_unresolved (config : StateConfig) (errs : List ConfigError) {index : Nat}
    (hi : index < t₀.nodes.size) {t : StateTree} (h : SameStates t₀ t) :
    SameStates t₀ (addTransitions (t, errs) (index, config)).1 ∧
      ∀ e ∈ (addTransitions (t, errs) (index, config)).2,
        e ∈ errs ∨ UnresolvedAt t₀ index config e := by
  rw [addTransitions_eq]
  obtain ⟨hsame, hmem⟩ := foldl_addEntry_unresolved config hi config.on t errs
    (fun _ he => he) h
  generalize hacc : config.on.foldl (addEntry index) (t, errs) = acc at hsame hmem ⊢
  obtain ⟨t₁, errs₁⟩ := acc
  obtain ⟨hsame', hmem'⟩ := addCandidates_unresolved index .always hi config.always t₁ errs₁ hsame
  refine ⟨hsame', fun e he => ?_⟩
  rcases hmem' e he with he | ⟨cc, hcc, text, htarget, hr, rfl⟩
  · exact hmem e he
  · exact .inr ⟨.always, cc, StateConfig.mem_candidatesFor_always hcc, text, htarget, hr, rfl⟩

/-- Adding the transitions of the sources keeps the states of the tree, and
each problem it records is a target of a source that does not resolve. -/
theorem foldl_addTransitions_unresolved :
    ∀ (srcs : List (Nat × StateConfig)) (t : StateTree) (errs : List ConfigError),
      (∀ p ∈ srcs, p.1 < t₀.nodes.size) → SameStates t₀ t →
      SameStates t₀ (srcs.foldl addTransitions (t, errs)).1 ∧
      ∀ e ∈ (srcs.foldl addTransitions (t, errs)).2,
        e ∈ errs ∨ ∃ p ∈ srcs, UnresolvedAt t₀ p.1 p.2 e
  | [], _, _, _, h => ⟨h, fun _ he => .inl he⟩
  | (index, config) :: srcs, t, errs, hlt, h => by
    rw [List.foldl_cons]
    obtain ⟨hsame, hmem⟩ := addTransitions_unresolved config errs (hlt _ List.mem_cons_self) h
    generalize hacc : addTransitions (t, errs) (index, config) = acc at hsame hmem ⊢
    obtain ⟨t₁, errs₁⟩ := acc
    obtain ⟨hsame', hmem'⟩ := foldl_addTransitions_unresolved srcs t₁ errs₁
      (fun p hp => hlt p (List.mem_cons_of_mem _ hp)) hsame
    refine ⟨hsame', fun e he => ?_⟩
    rcases hmem' e he with he | ⟨p, hp, hu⟩
    · rcases hmem e he with he | hu
      · exact .inl he
      · exact .inr ⟨(index, config), List.mem_cons_self, hu⟩
    · exact .inr ⟨p, List.mem_cons_of_mem _ hp, hu⟩

end Targets

end TreeBuilder

/-! ## The whole check -/

/-- Every configured state of a machine, with its path, depth first. -/
def MachineConfig.states (m : MachineConfig) : List (List String × StateConfig) := m.root.subtree []

def MachineConfig.ids (m : MachineConfig) : List String := m.states.map (configuredId m.machineId)

/-- Every target the configured state `c` declares resolves from the node `i` of `t`. -/
def StateTree.Resolves (t : StateTree) (i : Nat) (c : StateConfig) : Prop :=
  ∀ trigger, ∀ cc ∈ c.candidatesFor trigger, ∀ text, cc.target = some text →
    (t.resolve i text).isSome

/-- The configured state `x` declares, for a trigger written `trig`, the target
`text`, and it does not resolve from a node of `t` at the state's path. -/
def StateTree.Unresolved (t : StateTree) (x : List String × StateConfig) (trig text : String) :
    Prop :=
  ∃ i < t.nodes.size, (t.node i).path = x.1 ∧ ∃ trigger, trigger.describe = trig ∧
    ∃ cc ∈ x.2.candidatesFor trigger, cc.target = some text ∧ t.resolve i text = none

/-- What a problem of the tree check says of `m`: a shared id, a target that
does not resolve, or a state breaking its own rules. -/
def MachineConfig.TreeReports (m : MachineConfig) : ConfigError → Prop
  | .duplicateId id => 2 ≤ m.ids.count id
  | .unknownTarget id trig text => ∃ x ∈ m.states, configuredId m.machineId x = id ∧
      (StateTree.check m).1.Unresolved x trig text
  | e => ∃ x ∈ m.states, x.2.Breaks (configuredId m.machineId x) e

theorem MachineConfig.treeReports_of_breaks {m : MachineConfig} {x : List String × StateConfig}
    (hx : x ∈ m.states) {e : ConfigError} (h : x.2.Breaks (configuredId m.machineId x) e) :
    m.TreeReports e := by
  cases e <;> first | exact ⟨x, hx, h⟩ | exact (h : False).elim

theorem StateTree.exists_of_forall₂_mem_left {α β : Type} {R : α → β → Prop} :
    ∀ {l₁ : List α} {l₂ : List β}, List.Forall₂ R l₁ l₂ → ∀ {a}, a ∈ l₁ → ∃ b ∈ l₂, R a b
  | _, _, .nil, _, ha => absurd ha List.not_mem_nil
  | _, _, .cons hr h, _, ha => by
    rcases List.mem_cons.1 ha with rfl | ha
    · exact ⟨_, List.mem_cons_self, hr⟩
    · obtain ⟨b, hb, hrb⟩ := exists_of_forall₂_mem_left h ha
      exact ⟨b, List.mem_cons_of_mem _ hb, hrb⟩

namespace TreeBuilder

open StateTree

/-- The check, pass by pass: the states, the ids, then the transitions, each
with its own problems. -/
theorem check_parts (m : MachineConfig) : ∃ (s : State) (ids : List (String × Nat))
    (idErrors : List ConfigError) (t : StateTree) (targetErrors : List ConfigError),
    (addNode m.machineId none [] "" m.root {}).1 = s ∧ indexIds s.nodes.toList = (ids, idErrors) ∧
      s.sources.foldl addTransitions (⟨s.nodes, ids⟩, []) = (t, targetErrors) ∧
      StateTree.check m = (t, s.errors ++ idErrors ++ targetErrors) := by
  unfold StateTree.check
  dsimp only
  rcases hadd : addNode m.machineId none [] "" m.root {} with ⟨s, r⟩
  rcases hids : indexIds s.nodes.toList with ⟨ids, idErrors⟩
  rcases hfold : s.sources.foldl addTransitions (⟨s.nodes, ids⟩, []) with ⟨t, targetErrors⟩
  exact ⟨s, ids, idErrors, t, targetErrors, rfl, hids, hfold, rfl⟩

/-- Every problem the check of a configuration reports says what it should of
the configuration. -/
theorem check_reports (m : MachineConfig) : ∀ e ∈ (StateTree.check m).2, m.TreeReports e := by
  obtain ⟨s, ids, idErrors, t, targetErrors, hs, hids, hfold, hcheck⟩ := check_parts m
  have hsrc : SourcesIn m.machineId m.states s := hs ▸
    sourcesIn_addNode none [] "" m.root (List.Subset.refl _) (fun _ h => absurd h List.not_mem_nil)
  intro e he
  rw [hcheck] at he
  simp only [List.mem_append] at he
  rcases he with (he | he) | he
  · -- the states: a rule a configured state breaks
    rcases breaks_addNode none [] "" m.root {} e (by rw [hs]; exact he) with he | ⟨x, hx, hb⟩
    · exact absurd he List.not_mem_nil
    · exact MachineConfig.treeReports_of_breaks hx hb
  · -- the ids: an id two configured states share
    have he' : e ∈ (indexIds.go s.nodes.toList 0 [] []).2 := by
      show e ∈ (indexIds s.nodes.toList).2
      rw [hids]
      exact he
    rcases mem_indexIds_go_errors s.nodes.toList 0 [] [] he' with he | ⟨id, rfl, hcount⟩
    · exact absurd he List.not_mem_nil
    · obtain ⟨new, hnew, hsub, -⟩ : IdsFrom m.machineId m.states {} s :=
        hs ▸ ids_addNode none [] "" m.root {}
      show 2 ≤ m.ids.count id
      calc 2 ≤ s.ids.count id := by simpa [State.ids] using hcount
        _ = new.count id := by rw [hnew]; rfl
        _ ≤ m.ids.count id := hsub.count_le id
  · -- the transitions: a target a configured state declares that does not resolve
    have hlt : ∀ p ∈ s.sources, p.1 < (⟨s.nodes, ids⟩ : StateTree).nodes.size := fun p hp => by
      obtain ⟨n, hn, -⟩ := hsrc p hp
      exact (Array.getElem?_eq_some_iff.1 hn).1
    obtain ⟨hsame, hmem⟩ := foldl_addTransitions_unresolved s.sources _ [] hlt (SameStates.refl _)
    rw [hfold] at hsame hmem
    rcases hmem e he with he | ⟨p, hp, trigger, cc, hcc, text, htarget, hr, rfl⟩
    · exact absurd he List.not_mem_nil
    · obtain ⟨n, hn, hmemx, hid⟩ := hsrc p hp
      have hnode : (⟨s.nodes, ids⟩ : StateTree).node p.1 = n := by
        show s.nodes[p.1]?.getD default = n
        rw [hn]
        rfl
      refine ⟨(n.path, p.2), hmemx, by rw [hnode]; exact hid.symm, ?_⟩
      rw [hcheck]
      refine ⟨p.1, by rw [hsame.size]; exact hlt p hp, by rw [hsame.path, hnode], trigger, rfl,
        cc, hcc, htarget, ?_⟩
      rw [hsame.resolve]
      exact hr

/-- A check without problems leaves every state within its rules, every id
unique and every target resolved. -/
theorem check_rules (m : MachineConfig) (h : (StateTree.check m).2 = []) :
    (∀ x ∈ m.states, x.2.Checked) ∧ m.ids.Nodup ∧
      ∀ x ∈ m.states, ∀ i < (StateTree.check m).1.nodes.size,
        ((StateTree.check m).1.node i).path = x.1 → (StateTree.check m).1.Resolves i x.2 := by
  have hrealizes := (check_clean m h).2
  obtain ⟨s, ids, idErrors, t, targetErrors, hs, hids, hfold, hcheck⟩ := check_parts m
  rw [hcheck] at h hrealizes ⊢
  simp only [List.append_eq_nil_iff] at h
  obtain ⟨⟨hserr, hiderr⟩, -⟩ := h
  have hchecked : ∀ x ∈ m.states, x.2.Checked :=
    checked_addNode none [] "" m.root {} (by rw [hs]; exact hserr)
  refine ⟨hchecked, ?_, ?_⟩
  · -- every state is kept, so the ids of the nodes are those of the states
    obtain ⟨new, hnew, -, hclean⟩ : IdsFrom m.machineId m.states {} s :=
      hs ▸ ids_addNode none [] "" m.root {}
    have hids' : s.ids = m.ids := by
      rw [hnew, hclean hserr]
      rfl
    have hnodup := nodup_of_indexIds_go s.nodes.toList 0 [] [] (by
      show (indexIds s.nodes.toList).2 = []
      rw [hids]
      exact hiderr) List.nodup_nil
    rw [← hids']
    simpa [State.ids] using hnodup
  · -- the node at a state's path realizes that state, whose targets resolve
    rintro ⟨p, d⟩ hx i hi hpath trigger cc hcc text htarget
    obtain ⟨cfg, hat, -, -, hcands⟩ := hrealizes i hi
    obtain ⟨p', rfl, hat'⟩ := StateConfig.at_of_mem_subtree m.root []
      (fun y hy => (hchecked y hy).keys_nodup) hx
    have hcfg : cfg = d := by
      rw [hpath] at hat
      exact Option.some.inj (hat.symm.trans hat')
    subst hcfg
    obtain ⟨c, -, -, -, htgt⟩ := exists_of_forall₂_mem_left (hcands trigger) hcc
    rw [htarget, Option.map_some] at htgt
    cases hc : c.target with
    | none =>
      rw [hc] at htgt
      cases htgt
    | some r =>
      rw [hc, Option.map_some, Option.some.injEq] at htgt
      rw [htgt]
      rfl

end TreeBuilder

end Statechart
