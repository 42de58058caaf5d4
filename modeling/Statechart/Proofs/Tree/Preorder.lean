import Statechart.Proofs.Tree.Problems
/-!
# The nodes of a build, in order

A build adds one node for every state it keeps, depth first, leaving out a
child with a refused key with its whole subtree (`StateConfig.kept`). Problems
or not, the node at index `j` is the `j`-th kept state, with its path and id
(`TreeBuilder.node_of_kept`, `MachineConfig.check_nodes`), and when no key is
refused the kept states are all the configured ones
(`StateConfig.kept_eq_subtree`).
-/
namespace Statechart

mutual
/-- The states of `c` at `path` a build keeps, in the order it adds them: the
state, then the subtrees of its children with valid, unused keys. -/
def StateConfig.kept (path : List String) : StateConfig → List (List String × StateConfig)
  | c@⟨_, _, _, _, _, _, _, states⟩ => (path, c) :: StateConfig.keptBelow path [] states

/-- The kept states below the configured children `states` of the state at
`path`, the keys in `seen` being taken already. -/
def StateConfig.keptBelow (path seen : List String) :
    List (String × StateConfig) → List (List String × StateConfig)
  | [] => []
  | (k, c) :: rest =>
    if validKey k && !seen.contains k then
      c.kept (path ++ [k]) ++ StateConfig.keptBelow path (seen ++ [k]) rest
    else StateConfig.keptBelow path seen rest
end

namespace StateConfig

theorem kept_eq (path : List String) (c : StateConfig) :
    c.kept path = (path, c) :: keptBelow path [] c.states := by
  cases c
  rfl

@[simp] theorem keptBelow_nil (path seen : List String) : keptBelow path seen [] = [] := rfl

theorem keptBelow_cons (path seen : List String) (k : String) (c : StateConfig)
    (rest : List (String × StateConfig)) :
    keptBelow path seen ((k, c) :: rest) =
      if validKey k && !seen.contains k then
        c.kept (path ++ [k]) ++ keptBelow path (seen ++ [k]) rest
      else keptBelow path seen rest := rfl

mutual
/-- When every key below a state is valid and distinct from its siblings',
the build keeps the whole subtree. -/
theorem kept_eq_subtree : ∀ (path : List String) (c : StateConfig),
    (∀ y ∈ c.subtree path, y.2.Checked) → c.kept path = c.subtree path
  | path, ⟨_, _, _, _, _, _, _, states⟩, h => by
    have hself := h _ (self_mem_subtree path _)
    rw [kept_eq, subtree_eq]
    congr 1
    exact keptBelow_eq_subtrees path [] states (fun _ hk => hself.keys_valid _ hk)
      (by simpa using hself.keys_nodup) (fun _ _ hk => absurd hk List.not_mem_nil)
      fun y hy => h y (by rw [subtree_eq]; exact List.mem_cons_of_mem _ hy)

/-- Children with valid keys, distinct from each other and from those in
`seen`, are all kept with their subtrees. -/
theorem keptBelow_eq_subtrees : ∀ (path seen : List String) (states : List (String × StateConfig)),
    (∀ k ∈ states.map Prod.fst, validKey k = true) → (states.map Prod.fst).Nodup →
    (∀ k ∈ states.map Prod.fst, k ∉ seen) → (∀ y ∈ subtrees path states, y.2.Checked) →
    keptBelow path seen states = subtrees path states
  | _, _, [], _, _, _, _ => rfl
  | path, seen, (k, c) :: rest, hvalid, hnodup, hfresh, h => by
    rw [List.map_cons, List.nodup_cons] at hnodup
    have hk : (validKey k && !seen.contains k) = true := by
      simp [hvalid k (by simp), hfresh k (by simp)]
    rw [keptBelow_cons, if_pos hk, subtrees_cons,
      kept_eq_subtree (path ++ [k]) c fun y hy => h y (by simp [hy])]
    congr 1
    refine keptBelow_eq_subtrees path (seen ++ [k]) rest (fun k' hk' => hvalid k' (by simp [hk']))
      hnodup.2 (fun k' hk' hseen => ?_) fun y hy => h y (by simp [hy])
    -- a later key is neither taken before nor the key just kept
    rcases List.mem_append.1 hseen with hseen | hseen
    · exact hfresh k' (by simp [hk']) hseen
    · rw [List.mem_singleton] at hseen
      exact hnodup.1 (hseen ▸ hk')
end

end StateConfig

/-- The states of a machine that a build keeps, in the order it adds them. -/
def MachineConfig.keptStates (m : MachineConfig) : List (List String × StateConfig) :=
  m.root.kept []

namespace TreeBuilder

/-- The configurations the builder recorded, in order, each at the path of the
node it was recorded with. -/
def State.placed (s : State) : List (List String × StateConfig) :=
  s.sources.map fun p => ((s.nodes[p.1]?.map Node.path).getD [], p.2)

namespace State

@[simp] theorem placed_fail (s : State) (e : ConfigError) : (s.fail e).placed = s.placed := rfl

theorem placed_modifyNode (s : State) (i : Nat) {f : Node → Node} (hf : ∀ n, (f n).path = n.path) :
    (s.modifyNode i f).placed = s.placed := by
  unfold placed
  rw [modifyNode_sources, modifyNode_nodes]
  refine List.map_congr_left fun p _ => ?_
  rw [Array.getElem?_modify]
  split
  · cases s.nodes[p.1]? <;> simp [hf]
  · rfl

end State

section Steps

variable {mid : String} {parent : Option Nat} {path : List String} {key : String}
  {config : StateConfig} {s : State}

theorem placed_push (h : SourcesIndexed s) :
    (push mid parent path key config s).placed = s.placed ++ [(path, config)] := by
  unfold State.placed
  rw [push_sources, push_nodes, List.map_append]
  congr 1
  · refine List.map_congr_left fun p hp => ?_
    -- every source recorded so far indexes a node that was there before the push
    have hlt : p.1 < s.nodes.size := by
      have hmem : p.1 ∈ s.sources.map Prod.fst := List.mem_map_of_mem hp
      rw [h, List.mem_range] at hmem
      exact hmem
    rw [Array.getElem?_push, if_neg (Nat.ne_of_lt hlt)]
  · simp [pushedNode]

theorem placed_setInitial {id : String} {index : Nat} :
    (setInitial id index config s).placed = s.placed := by
  rcases setInitial_cases id index config s with
    ⟨k, c, -, -, -, h⟩ | ⟨k, -, -, -, h⟩ | ⟨-, -, h⟩ | ⟨k, -, -, h⟩ | ⟨-, -, h⟩ <;> rw [h]
  · exact s.placed_modifyNode index fun _ => rfl
  all_goals exact State.placed_fail _ _

theorem placed_addNode_step (h : SourcesIndexed s)
    (hc : (addChildren mid s.nodes.size path (stateId mid config.id path) [] config.states
      (push mid parent path key config s)).placed =
      (push mid parent path key config s).placed ++ StateConfig.keptBelow path [] config.states) :
    (addNode mid parent path key config s).1.placed = s.placed ++ config.kept path := by
  rw [addNode_eq, placed_setInitial, hc, placed_push h, StateConfig.kept_eq, List.append_assoc,
    List.singleton_append]

end Steps

section Placed

variable {mid : String}

mutual
/-- Adding a state records the states of its subtree that the build keeps, in
order, each at the path of its node. -/
theorem placed_addNode : ∀ (parent : Option Nat) (path : List String) (key : String)
    (config : StateConfig) {s : State}, SourcesIndexed s →
    (addNode mid parent path key config s).1.placed = s.placed ++ config.kept path
  | _, path, _, ⟨_, _, _, _, _, _, _, states⟩, _, h =>
    placed_addNode_step h (placed_addChildren _ path _ [] states h.push)

theorem placed_addChildren : ∀ (index : Nat) (path : List String) (id : String)
    (seen : List String) (states : List (String × StateConfig)) {s : State}, SourcesIndexed s →
    (addChildren mid index path id seen states s).placed =
      s.placed ++ StateConfig.keptBelow path seen states
  | _, _, _, _, [], _, _ => by rw [addChildren, StateConfig.keptBelow_nil, List.append_nil]
  | index, path, id, seen, (key, child) :: rest, s, h => by
    rw [addChildren, StateConfig.keptBelow_cons]
    -- a refused key records a problem and nothing else
    by_cases hk : (!validKey key) = true
    · rw [if_pos hk, if_neg (by simp_all), placed_addChildren index path id seen rest (h.fail _),
        State.placed_fail]
    rw [if_neg hk]
    by_cases hs : seen.contains key = true
    · rw [if_pos hs, if_neg (by simp_all), placed_addChildren index path id seen rest (h.fail _),
        State.placed_fail]
    rw [if_neg hs, if_pos (by simp_all)]
    rcases hadd : addNode mid (some index) (path ++ [key]) key child s with ⟨s₁, c⟩
    have h₁ := placed_addNode (some index) (path ++ [key]) key child h
    have hi₁ := @sourcesIndexed_addNode mid (some index) (path ++ [key]) key child s h
    rw [hadd] at h₁ hi₁
    dsimp only at h₁ hi₁ ⊢
    rw [placed_addChildren index path id _ rest (hi₁.modifyNode _ _),
      s₁.placed_modifyNode index (f := fun n => { n with children := n.children ++ [c] })
        fun _ => rfl, h₁, List.append_assoc]
end

end Placed

/-- A state the builder recorded at position `j` was recorded with node `j`,
which carries its path. -/
theorem State.placed_getElem? {s : State} (h : SourcesIndexed s) {j : Nat}
    {x : List String × StateConfig} (hx : s.placed[j]? = some x) :
    (j, x.2) ∈ s.sources ∧ ∃ n, s.nodes[j]? = some n ∧ n.path = x.1 := by
  unfold placed at hx
  rw [List.getElem?_map] at hx
  obtain ⟨⟨i, c⟩, hp, rfl⟩ := Option.map_eq_some_iff.1 hx
  -- the sources are indexed `0, 1, ...` in order, so the `j`-th is for node `j`
  have hidx : (List.range s.nodes.size)[j]? = some i := by
    rw [← h, List.getElem?_map, hp]
    rfl
  obtain ⟨hj, hij⟩ := List.getElem?_eq_some_iff.1 hidx
  rw [List.length_range] at hj
  rw [List.getElem_range] at hij
  subst hij
  refine ⟨List.mem_of_getElem? hp, s.nodes[j], Array.getElem?_eq_getElem hj, ?_⟩
  simp [Array.getElem?_eq_getElem hj]

theorem SourcesIndexed.lt_size {s : State} (h : SourcesIndexed s) {p : Nat × StateConfig}
    (hp : p ∈ s.sources) : p.1 < s.nodes.size := by
  have hmem : p.1 ∈ s.sources.map Prod.fst := List.mem_map_of_mem hp
  rw [h, List.mem_range] at hmem
  exact hmem

theorem State.size_eq_length_placed {s : State} (h : SourcesIndexed s) :
    s.nodes.size = s.placed.length := by
  have hlen := congrArg List.length h
  rw [List.length_map, List.length_range] at hlen
  rw [placed, List.length_map, hlen]

/-- Every build of a machine records the states it keeps, one per node and in
order, problems or not. -/
theorem placed_root (m : MachineConfig) :
    SourcesIndexed (addNode m.machineId none [] "" m.root {}).1 ∧
      (addNode m.machineId none [] "" m.root {}).1.placed = m.keptStates := by
  have h₀ : SourcesIndexed ({} : State) := rfl
  exact ⟨sourcesIndexed_addNode none [] "" m.root h₀, placed_addNode none [] "" m.root h₀⟩

/-- The `j`-th state a build keeps is recorded with node `j`, which carries its
path and its id. -/
theorem node_of_kept (m : MachineConfig) {j : Nat} {x : List String × StateConfig}
    (hx : m.keptStates[j]? = some x) :
    (j, x.2) ∈ (addNode m.machineId none [] "" m.root {}).1.sources ∧
      ∃ n, (addNode m.machineId none [] "" m.root {}).1.nodes[j]? = some n ∧ n.path = x.1 ∧
        n.id = configuredId m.machineId x := by
  obtain ⟨hidx, hplaced⟩ := placed_root m
  rw [← hplaced] at hx
  obtain ⟨hsrc, n, hn, hpath⟩ := State.placed_getElem? hidx hx
  -- the id recorded with a source is the one its configuration gives at the node's path
  have hsources : SourcesIn m.machineId m.states (addNode m.machineId none [] "" m.root {}).1 :=
    sourcesIn_addNode none [] "" m.root (List.Subset.refl _) fun _ h => absurd h List.not_mem_nil
  obtain ⟨n', hn', -, hid⟩ := hsources _ hsrc
  rw [hn, Option.some.injEq] at hn'
  subst hn'
  exact ⟨hsrc, n, hn, hpath, by rw [hid, hpath]; rfl⟩

end TreeBuilder

namespace MachineConfig

open TreeBuilder

/-- The tree a check builds has one node per kept state, in order, with its path
and id, whatever problems it finds. -/
theorem check_nodes (m : MachineConfig) :
    (StateTree.check m).1.nodes.size = m.keptStates.length ∧
      ∀ j x, m.keptStates[j]? = some x →
        ((StateTree.check m).1.node j).path = x.1 ∧
          ((StateTree.check m).1.node j).id = configuredId m.machineId x := by
  obtain ⟨s, ids, idErrors, t, targetErrors, hs, -, hfold, hcheck⟩ := check_parts m
  obtain ⟨hidx, hplaced⟩ := placed_root m
  rw [hs] at hidx hplaced
  -- adding transitions keeps the nodes the states pass laid out
  have hsame := (foldl_addTransitions_unresolved s.sources ⟨s.nodes, ids⟩ []
    (fun _ hp => hidx.lt_size hp) (StateTree.SameStates.refl _)).1
  rw [hfold] at hsame
  rw [hcheck]
  refine ⟨by rw [hsame.size, ← hplaced]; exact State.size_eq_length_placed hidx, fun j x hx => ?_⟩
  obtain ⟨-, n, hn, hpath, hid⟩ := node_of_kept m hx
  rw [hs] at hn
  have hnode : (⟨s.nodes, ids⟩ : StateTree).node j = n := by
    show s.nodes[j]?.getD default = n
    rw [hn]
    rfl
  exact ⟨by rw [hsame.path, hnode, hpath], by rw [hsame.id, hnode, hid]⟩

end MachineConfig

end Statechart
