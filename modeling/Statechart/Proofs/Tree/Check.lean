import Statechart.Proofs.Tree.Transitions
/-!
# The checked tree

`StateTree.check` runs three passes: it lays out the states, indexes their
ids, and adds the transitions. Each pass collects its own problems. When none
of the passes finds a problem, the tree is well formed. It also *realizes* its
configuration: each node is the configured state its path leads to. The node
has that state's entry and exit actions. For every trigger it has that
state's candidates, in order, with each target resolved from the node.
-/
namespace Statechart

namespace StateTree

/-- Each node of `t` is the configured state of `root` its path leads to, with
its actions and its candidates resolved from the node. -/
def Realizes (t : StateTree) (root : StateConfig) : Prop :=
  ∀ j < t.nodes.size, ∃ cfg, root.at (t.node j).path = some cfg ∧
    (t.node j).entry = cfg.entry ∧ (t.node j).exit = cfg.exit ∧
    ∀ trigger, List.Forall₂ (t.ResolvedFrom j) (cfg.candidatesFor trigger)
      ((t.node j).candidates trigger)

theorem SameStates.above {t t' : StateTree} (h : SameStates t t') : t'.Above = t.Above := by
  unfold Above
  simp only [h.parent]

theorem exists_of_forall₂_mem {α β : Type} {R : α → β → Prop} :
    ∀ {l₁ : List α} {l₂ : List β}, List.Forall₂ R l₁ l₂ → ∀ {b}, b ∈ l₂ → ∃ a ∈ l₁, R a b
  | _, _, .nil, _, hb => absurd hb List.not_mem_nil
  | _, _, .cons hr h, _, hb => by
    rcases List.mem_cons.1 hb with rfl | hb
    · exact ⟨_, List.mem_cons_self, hr⟩
    · obtain ⟨a, ha, hra⟩ := exists_of_forall₂_mem h hb
      exact ⟨a, List.mem_cons_of_mem _ ha, hra⟩

theorem ResolvedFrom.target {t : StateTree} {source : Nat} {cc : CandidateConfig}
    {c : Candidate} {r : Resolved} (h : t.ResolvedFrom source cc c) (hc : c.target = some r) :
    ∃ text, cc.target = some text ∧ t.resolve source text = some r := by
  obtain ⟨-, -, ht⟩ := h
  rw [hc] at ht
  cases htext : cc.target with
  | none =>
    rw [htext] at ht
    cases ht
  | some text =>
    rw [htext, Option.map_some, Option.map_some] at ht
    exact ⟨text, rfl, Option.some.inj ht⟩

theorem Node.candidates_default (trigger : Trigger) : (default : Node).candidates trigger = [] :=
  Node.candidates_of_empty rfl rfl trigger

/-- A tree with the states of a well-shaped one, whose candidates all resolve in
it, is well formed. -/
theorem wellFormed_of_resolved {t₀ t : StateTree} (hw : t₀.WellShaped) (hsame : SameStates t₀ t)
    (hres : ∀ i trigger c, c ∈ (t.node i).candidates trigger →
      i < t₀.nodes.size ∧ ∃ cc, t₀.ResolvedFrom i cc c) :
    t.WellFormed := by
  refine ⟨hsame.wellShaped hw, ?_, ?_⟩
  · intro i trigger c r hc ht
    obtain ⟨hi, cc, hcc⟩ := hres i trigger c hc
    obtain ⟨text, -, hr⟩ := hcc.target ht
    rw [hsame.size]
    exact (hw.resolve_some hr hi).1
  · intro i trigger c r hc ht hint
    obtain ⟨hi, cc, hcc⟩ := hres i trigger c hc
    obtain ⟨text, -, hr⟩ := hcc.target ht
    rw [hsame.above]
    exact (hw.resolve_some hr hi).2 hint

end StateTree

namespace TreeBuilder

open StateTree

/-- After the transitions are added, every candidate comes from a configured one
of its source, resolved in the starting tree. -/
theorem TransitionsAdded.resolved {t₀ t : StateTree} {srcs : List (Nat × StateConfig)}
    (ht : TransitionsAdded t₀ srcs t) (hempty : ∀ i trigger, (t₀.node i).candidates trigger = [])
    {i : Nat} {trigger : Trigger} {c : Candidate} (hc : c ∈ (t.node i).candidates trigger) :
    ∃ p ∈ srcs, p.1 = i ∧ ∃ cc, t₀.ResolvedFrom i cc c := by
  by_cases hi : i ∈ srcs.map Prod.fst
  · obtain ⟨p, hp, rfl⟩ := List.mem_map.1 hi
    obtain ⟨cc, -, hcc⟩ := exists_of_forall₂_mem (ht.candidates p hp trigger) hc
    exact ⟨p, hp, rfl, cc, hcc⟩
  · -- a node that is no source kept its empty candidate lists
    rw [ht.frame i hi, hempty i trigger] at hc
    cases hc

section Layout

variable {nodes : Array Node} {srcs : List (Nat × StateConfig)} {mid : String}
  {root : StateConfig}

/-- In the root's layout each node's source is the state its path leads to, with
the same actions, and no candidates yet. -/
theorem node_of_lays (h : Lays nodes srcs mid none [] "" root 0 nodes.size) {j : Nat}
    (hj : j < nodes.size) :
    ∃ n cfg, nodes[j]? = some n ∧ (j, cfg) ∈ srcs ∧ root.at n.path = some cfg ∧
      n.entry = cfg.entry ∧ n.exit = cfg.exit ∧ n.on = [] ∧ n.always = [] := by
  obtain ⟨n, _, pth, _, cfg, _, hget, hsrc, hfresh, -, -, hat, -⟩ := lays_root_node h hj
  refine ⟨n, cfg, hget, hsrc, ?_, hfresh.entry, hfresh.exit, hfresh.on, hfresh.always⟩
  rw [hfresh.path]
  exact hat

theorem candidates_of_lays (h : Lays nodes srcs mid none [] "" root 0 nodes.size)
    (ids : List (String × Nat)) (i : Nat) (trigger : Trigger) :
    ((⟨nodes, ids⟩ : StateTree).node i).candidates trigger = [] := by
  show (nodes[i]?.getD default).candidates trigger = []
  by_cases hi : i < nodes.size
  · obtain ⟨n, _, hget, -, -, -, -, hon, halways⟩ := node_of_lays h hi
    rw [hget, Option.getD_some]
    exact Node.candidates_of_empty hon halways trigger
  · rw [Array.getElem?_eq_none (by omega), Option.getD_none]
    exact Node.candidates_default trigger

/-- Take the layout of the root, and add to it the transitions of its
sources. The result realizes the root. -/
theorem realizes_of_lays (h : Lays nodes srcs mid none [] "" root 0 nodes.size)
    {ids : List (String × Nat)} {t : StateTree} (ht : TransitionsAdded ⟨nodes, ids⟩ srcs t) :
    t.Realizes root := by
  intro j hj
  rw [ht.same.size] at hj
  obtain ⟨n, cfg, hget, hsrc, hat, hentry, hexit, -, -⟩ := node_of_lays h hj
  have hnode : (⟨nodes, ids⟩ : StateTree).node j = n := by
    show nodes[j]?.getD default = n
    rw [hget, Option.getD_some]
  refine ⟨cfg, ?_, ?_, ?_, fun trigger => ?_⟩
  · rw [ht.same.path, hnode]
    exact hat
  · rw [ht.same.entry, hnode, hentry]
  · rw [ht.same.exit, hnode, hexit]
  · exact (ht.candidates (j, cfg) hsrc trigger).imp fun _ _ hr => ht.same.resolvedFrom.2 hr

end Layout

/-- When `check` finds no problem, the tree it builds is well formed and
realizes the configuration's root. -/
theorem check_clean (m : MachineConfig) (h : (StateTree.check m).2 = []) :
    (StateTree.check m).1.WellFormed ∧ (StateTree.check m).1.Realizes m.root := by
  unfold StateTree.check at h ⊢
  dsimp only at h ⊢
  generalize hadd : addNode m.machineId none [] "" m.root {} = r at h ⊢
  obtain ⟨s, _⟩ := r
  dsimp only at h ⊢
  generalize hids : indexIds s.nodes.toList = r at h ⊢
  obtain ⟨ids, idErrors⟩ := r
  dsimp only at h ⊢
  generalize hfold : s.sources.foldl addTransitions (⟨s.nodes, ids⟩, []) = r at h ⊢
  obtain ⟨t, targetErrors⟩ := r
  dsimp only at h ⊢
  simp only [List.append_eq_nil_iff] at h
  obtain ⟨⟨hs, hid⟩, htarget⟩ := h
  -- the states: laid out over the whole array, one source per node in order
  have hadded := addNode_clean none [] "" m.root {} (by rw [hadd]; exact hs)
  rw [hadd] at hadded
  have hlays : Lays s.nodes s.sources m.machineId none [] "" m.root 0 s.nodes.size :=
    hadded.lays
  have hindexed : SourcesIndexed s := by
    have := @sourcesIndexed_addNode m.machineId none [] "" m.root {} rfl
    rwa [hadd] at this
  -- the ids: each names exactly its node
  have hbyId := byId_indexIds (show (indexIds s.nodes.toList).2 = [] by rw [hids]; exact hid)
  rw [hids] at hbyId
  have hw : (⟨s.nodes, ids⟩ : StateTree).WellShaped := wellShaped_of_lays hlays hbyId
  -- the transitions: every source gets its candidates
  have hlt : ∀ p ∈ s.sources, p.1 < s.nodes.size := fun p hp => by
    have hmem : p.1 ∈ s.sources.map Prod.fst := List.mem_map_of_mem hp
    rw [hindexed, List.mem_range] at hmem
    exact hmem
  have hempty := candidates_of_lays hlays ids
  have ht := foldl_addTransitions_clean s.sources ⟨s.nodes, ids⟩ []
    (by rw [hindexed]; exact List.nodup_range) hlt (fun p _ => hempty p.1)
    (by rw [hfold]; exact htarget)
  rw [hfold] at ht
  refine ⟨wellFormed_of_resolved hw ht.same fun i trigger c hc => ?_, realizes_of_lays hlays ht⟩
  obtain ⟨p, hp, rfl, cc, hcc⟩ := ht.resolved hempty hc
  exact ⟨hlt p hp, cc, hcc⟩

end TreeBuilder

end Statechart
