import Statechart.Proofs.Tree.Check
/-!
# What a build keeps

A build that finds a problem goes on: a child whose key is refused is left out
with its subtree, and every other check only records its problem.
`StateConfig.subtree` lists every configured state with its path, refused keys
included. Each added node keeps its index, key, id and path to the end
(`NodePushed`), a state's children are its configured children with valid,
unused keys (`ChildrenPushed`), the ids are those of a sublist of the
configured states (`ids_addNode`), and each recorded configuration is a
configured state at its node's path (`SourcesIn`).
-/
namespace Statechart

mutual
/-- Every state of `c`, placed at `path`, with its path: the state itself, then
the subtrees of its children in order, refused keys included. -/
def StateConfig.subtree (path : List String) : StateConfig → List (List String × StateConfig)
  | c@⟨_, _, _, _, _, _, _, states⟩ => (path, c) :: StateConfig.subtrees path states

/-- The subtrees of the configured children `states` of the state at `path`. -/
def StateConfig.subtrees (path : List String) :
    List (String × StateConfig) → List (List String × StateConfig)
  | [] => []
  | (k, c) :: rest => c.subtree (path ++ [k]) ++ StateConfig.subtrees path rest
end

namespace StateConfig

theorem subtree_eq (path : List String) (c : StateConfig) :
    c.subtree path = (path, c) :: subtrees path c.states := by
  cases c
  rfl

@[simp] theorem subtrees_nil (path : List String) : subtrees path [] = [] := rfl

@[simp] theorem subtrees_cons (path : List String) (k : String) (c : StateConfig)
    (rest : List (String × StateConfig)) :
    subtrees path ((k, c) :: rest) = c.subtree (path ++ [k]) ++ subtrees path rest := rfl

theorem mem_subtrees {path : List String} {states : List (String × StateConfig)}
    {x : List String × StateConfig} :
    x ∈ subtrees path states ↔ ∃ e ∈ states, x ∈ e.2.subtree (path ++ [e.1]) := by
  induction states with
  | nil => simp
  | cons e rest ih =>
    obtain ⟨k, c⟩ := e
    simp [ih]

theorem self_mem_subtree (path : List String) (c : StateConfig) : (path, c) ∈ c.subtree path := by
  rw [subtree_eq]
  exact List.mem_cons_self

theorem at_of_mem_subtree_step {c : StateConfig} {q p : List String} {d : StateConfig}
    (hnodup : (c.states.map Prod.fst).Nodup)
    (hbelow : (p, d) ∈ subtrees q c.states →
      ∃ e ∈ c.states, ∃ p', p = q ++ [e.1] ++ p' ∧ e.2.at p' = some d)
    (hmem : (p, d) ∈ c.subtree q) : ∃ p', p = q ++ p' ∧ c.at p' = some d := by
  rw [subtree_eq] at hmem
  rcases List.mem_cons.1 hmem with h | h
  · obtain ⟨rfl, rfl⟩ := Prod.mk.inj h
    exact ⟨[], by simp, rfl⟩
  · obtain ⟨⟨k, child⟩, he, p', rfl, hat⟩ := hbelow h
    refine ⟨k :: p', by simp, ?_⟩
    simp only [StateConfig.at, (find?_fst_eq_some hnodup).2 he, Option.map_some, Option.bind_some]
    exact hat

mutual
/-- When sibling keys are distinct throughout, the path of a state of the
subtree at `q` leads, past `q`, to that state. -/
theorem at_of_mem_subtree : ∀ (c : StateConfig) (q : List String) {p : List String}
    {d : StateConfig}, (∀ y ∈ c.subtree q, (y.2.states.map Prod.fst).Nodup) →
      (p, d) ∈ c.subtree q → ∃ p', p = q ++ p' ∧ c.at p' = some d
  | ⟨_, _, _, _, _, _, _, states⟩, q, _, _, hnodup, hmem =>
    at_of_mem_subtree_step (hnodup _ (self_mem_subtree q _))
      (at_of_mem_subtrees states q fun y hy => hnodup y (by
        rw [subtree_eq]
        exact List.mem_cons_of_mem _ hy)) hmem

theorem at_of_mem_subtrees : ∀ (states : List (String × StateConfig)) (q : List String)
    {p : List String} {d : StateConfig},
    (∀ y ∈ subtrees q states, (y.2.states.map Prod.fst).Nodup) → (p, d) ∈ subtrees q states →
      ∃ e ∈ states, ∃ p', p = q ++ [e.1] ++ p' ∧ e.2.at p' = some d
  | [], _, _, _, _, hmem => absurd hmem List.not_mem_nil
  | (k, child) :: rest, q, _, _, hnodup, hmem => by
    rw [subtrees_cons, List.mem_append] at hmem
    rcases hmem with hmem | hmem
    · obtain ⟨p', rfl, hat⟩ := at_of_mem_subtree child (q ++ [k])
        (fun y hy => hnodup y (by simp [hy])) hmem
      exact ⟨(k, child), List.mem_cons_self, p', rfl, hat⟩
    · obtain ⟨e, he, p', rfl, hat⟩ := at_of_mem_subtrees rest q
        (fun y hy => hnodup y (by simp [hy])) hmem
      exact ⟨e, List.mem_cons_of_mem _ he, p', rfl, hat⟩
end

end StateConfig

/-- The id a configured state has at its path, in a machine with id `mid`. -/
def configuredId (mid : String) (x : List String × StateConfig) : String := stateId mid x.2.id x.1

namespace TreeBuilder

namespace State

/-- The key of the node at `c`, empty past the last node: what the builder
compares with a configured initial child. -/
def keyAt (s : State) (c : Nat) : String := (s.nodes[c]?.map Node.key).getD ""

/-- The ids of the nodes, in index order. -/
def ids (s : State) : List String := s.nodes.toList.map Node.id

@[simp] theorem ids_fail (s : State) (e : ConfigError) : (s.fail e).ids = s.ids := rfl

theorem mem_fail_errors {s : State} {e e' : ConfigError} (he : e ∈ (s.fail e').errors) :
    e ∈ s.errors ∨ e = e' := by
  rwa [fail_errors, List.mem_append, List.mem_singleton] at he

theorem keyAt_of_getElem? {s : State} {c : Nat} {n : Node} (h : s.nodes[c]? = some n) :
    s.keyAt c = n.key := by
  rw [keyAt, h, Option.map_some, Option.getD_some]

theorem ids_modifyNode (s : State) (i : Nat) (f : Node → Node) (hf : ∀ n, (f n).id = n.id) :
    (s.modifyNode i f).ids = s.ids := by
  unfold ids
  apply List.ext_getElem?
  intro j
  simp only [modifyNode_nodes, Array.toList_modify, List.getElem?_map, List.getElem?_modify]
  split
  · cases s.nodes.toList[j]? <;> simp [hf]
  · simp

end State

theorem kindOf_eq_compound {config : StateConfig} :
    kindOf config = .compound ↔ config.kind ≠ some .final ∧ config.states ≠ [] := by
  unfold kindOf
  by_cases hf : config.kind = some .final
  · simp [hf]
  · cases config.states <;> simp [hf]

section Steps

variable {mid : String} {parent : Option Nat} {path : List String} {key : String}
  {config : StateConfig} {s : State} {id : String} {index : Nat}

theorem push_ids :
    (push mid parent path key config s).ids = s.ids ++ [stateId mid config.id path] := by
  unfold State.ids
  rw [push_nodes, Array.toList_push, List.map_append]
  rfl

/-- The children of the node at `index` that carry the key `k`, first one first. -/
def findChild (s : State) (index : Nat) (k : String) : Option Nat :=
  ((s.nodes[index]?.map Node.children).getD []).find? fun c => s.keyAt c == k

/-- Everything picking the initial child can do: set the child the configured
initial names, or record why there is none, or leave a leaf alone. -/
theorem setInitial_cases (id : String) (index : Nat) (config : StateConfig) (s : State) :
    (∃ k c, config.initial = some k ∧ kindOf config = .compound ∧ findChild s index k = some c ∧
        setInitial id index config s = s.modifyNode index fun n => { n with initial := some c }) ∨
      (∃ k, config.initial = some k ∧ kindOf config = .compound ∧ findChild s index k = none ∧
        setInitial id index config s = s.fail (.unknownInitial id k)) ∨
      (config.initial = none ∧ kindOf config = .compound ∧
        setInitial id index config s = s.fail (.missingInitial id)) ∨
      (∃ k, config.initial = some k ∧ kindOf config ≠ .compound ∧
        setInitial id index config s = s.fail (.initialOnLeaf id k)) ∨
      (config.initial = none ∧ kindOf config ≠ .compound ∧ setInitial id index config s = s) := by
  unfold setInitial
  split
  next k hk hc =>
    have hc' : kindOf config = .compound := beq_iff_eq.1 hc
    cases hfind : findChild s index k with
    | some c =>
      refine .inl ⟨k, c, hk, hc', hfind, ?_⟩
      unfold findChild State.keyAt at hfind
      rw [hfind]
    | none =>
      refine .inr (.inl ⟨k, hk, hc', hfind, ?_⟩)
      unfold findChild State.keyAt at hfind
      rw [hfind]
  next hk hc => exact .inr (.inr (.inl ⟨hk, beq_iff_eq.1 hc, rfl⟩))
  next k hk hc => exact .inr (.inr (.inr (.inl ⟨k, hk, by simpa using hc, rfl⟩)))
  next hk hc => exact .inr (.inr (.inr (.inr ⟨hk, by simpa using hc, rfl⟩)))

/-- Picking the initial child without a problem: a compound state's configured
initial child is among its children, and any other state names none. -/
theorem setInitial_clean_initial (h : (setInitial id index config s).errors = s.errors) :
    (kindOf config = .compound → ∃ k, config.initial = some k ∧ (findChild s index k).isSome) ∧
      (kindOf config ≠ .compound → config.initial = none) := by
  rcases setInitial_cases id index config s with
    ⟨k, c, hk, hkind, hfind, -⟩ | ⟨k, -, -, -, he⟩ | ⟨-, -, he⟩ | ⟨k, -, -, he⟩ | ⟨hk, hkind, -⟩
  · exact ⟨fun _ => ⟨k, hk, by simp [hfind]⟩, fun hne => absurd hkind hne⟩
  -- the three outcomes that record a problem
  · rw [he] at h
    exact absurd h (State.fail_errors_ne _ _)
  · rw [he] at h
    exact absurd h (State.fail_errors_ne _ _)
  · rw [he] at h
    exact absurd h (State.fail_errors_ne _ _)
  · exact ⟨fun hc => absurd hc hkind, fun _ => hk⟩

/-- Picking the initial child leaves the ids, and the key, id, path and children
of every node. -/
theorem setInitial_heads (id : String) (index : Nat) (config : StateConfig) (s : State) :
    (setInitial id index config s).ids = s.ids ∧ ∀ (j : Nat) (n : Node), s.nodes[j]? = some n →
      ∃ n', (setInitial id index config s).nodes[j]? = some n' ∧
        n' = { n with initial := n'.initial } := by
  rcases setInitial_cases id index config s with
    ⟨k, c, -, -, -, h⟩ | ⟨k, -, -, -, h⟩ | ⟨-, -, h⟩ | ⟨k, -, -, h⟩ | ⟨-, -, h⟩ <;> rw [h]
  · refine ⟨s.ids_modifyNode index _ fun _ => rfl, fun j n hn => ?_⟩
    by_cases hj : index = j
    · subst hj
      exact ⟨{ n with initial := some c }, by simp [Array.getElem?_modify, hn], rfl⟩
    · exact ⟨n, by simp [Array.getElem?_modify, hj, hn], rfl⟩
  all_goals exact ⟨rfl, fun j n hn => ⟨n, hn, rfl⟩⟩

theorem eq_of_prefix_of_prefix {a b c : List ConfigError} (hab : a <+: b) (hbc : b <+: c)
    (hca : c = a) : b = a := by
  have h₁ := hab.length_le
  have h₂ := hbc.length_le
  rw [hca] at h₂
  exact (hab.eq_of_length (by omega)).symm

/-- A state added without a problem was pushed, given its children and given
its initial child, each without a problem. -/
theorem addNode_stages_clean (herr : (addNode mid parent path key config s).1.errors = s.errors) :
    (push mid parent path key config s).errors = s.errors ∧
      (addChildren mid s.nodes.size path (stateId mid config.id path) [] config.states
        (push mid parent path key config s)).errors = (push mid parent path key config s).errors ∧
      (setInitial (stateId mid config.id path) s.nodes.size config
        (addChildren mid s.nodes.size path (stateId mid config.id path) [] config.states
          (push mid parent path key config s))).errors =
        (addChildren mid s.nodes.size path (stateId mid config.id path) [] config.states
          (push mid parent path key config s)).errors := by
  rw [addNode_eq] at herr
  have e₁ := @errors_prefix_push mid parent path key config s
  have e₂ := @errors_prefix_addChildren mid s.nodes.size path (stateId mid config.id path) []
    config.states (push mid parent path key config s)
  have e₃ := @errors_prefix_setInitial config
    (addChildren mid s.nodes.size path (stateId mid config.id path) [] config.states
      (push mid parent path key config s)) (stateId mid config.id path) s.nodes.size
  have h₁ := eq_of_prefix_of_prefix e₁ (e₂.trans e₃) herr
  have h₂ := eq_of_prefix_of_prefix (e₁.trans e₂) e₃ herr
  exact ⟨h₁, h₂.trans h₁.symm, herr.trans h₂.symm⟩

theorem addChildren_fail_ne (seen : List String) (states : List (String × StateConfig))
    (e : ConfigError) :
    (addChildren mid index path id seen states (s.fail e)).errors ≠ s.errors := by
  intro herr
  have hpre := @errors_prefix_addChildren mid index path id seen states (s.fail e)
  rw [herr] at hpre
  exact State.not_fail_prefix _ _ hpre

end Steps

/-! ## The nodes a build adds, problems or not -/

/-- Adding a state, problems or not, gives it the next index with its key, id
and path, and keeps the earlier nodes. -/
structure NodePushed (mid : String) (path : List String) (key : String) (config : StateConfig)
    (s : State) (r : State × Nat) : Prop where
  index : r.2 = s.nodes.size
  grows : s.nodes.size < r.1.nodes.size
  frame : ∀ j < s.nodes.size, r.1.nodes[j]? = s.nodes[j]?
  head : ∃ n, r.1.nodes[s.nodes.size]? = some n ∧ n.key = key ∧
    n.id = stateId mid config.id path ∧ n.path = path

/-- Adding the children `states` of node `index`, problems or not, only grows
that node's children, by the valid keys not taken before. -/
structure ChildrenPushed (index : Nat) (seen : List String) (states : List (String × StateConfig))
    (s s' : State) : Prop where
  grows : s.nodes.size ≤ s'.nodes.size
  frame : ∀ j < s.nodes.size, j ≠ index → s'.nodes[j]? = s.nodes[j]?
  children : ∃ new, s'.nodes[index]? =
      s.nodes[index]?.map (fun n => { n with children := n.children ++ new }) ∧
    ∀ k, (∃ c ∈ new, s'.keyAt c = k) ↔ validKey k = true ∧ k ∉ seen ∧ k ∈ states.map Prod.fst

section Pushed

variable {mid : String}

theorem addNode_pushed_step {parent : Option Nat} {path : List String} {key : String}
    {config : StateConfig} {s : State}
    (hc : ChildrenPushed s.nodes.size [] config.states (push mid parent path key config s)
      (addChildren mid s.nodes.size path (stateId mid config.id path) [] config.states
        (push mid parent path key config s))) :
    NodePushed mid path key config s (addNode mid parent path key config s) := by
  rw [addNode_eq]
  have hsize : (push mid parent path key config s).nodes.size = s.nodes.size + 1 := by
    rw [push_nodes, Array.size_push]
  obtain ⟨new, hnew, -⟩ := hc.children
  rw [push_nodes, Array.getElem?_push_size, Option.map_some] at hnew
  obtain ⟨-, hheads⟩ := setInitial_heads (stateId mid config.id path) s.nodes.size config
    (addChildren mid s.nodes.size path (stateId mid config.id path) [] config.states
      (push mid parent path key config s))
  refine ⟨rfl, ?_, fun j hj => ?_, ?_⟩
  · rw [setInitial_size]
    have := hc.grows
    omega
  · rw [setInitial_frame (Nat.ne_of_lt hj), hc.frame j (by omega) (Nat.ne_of_lt hj), push_nodes,
      Array.getElem?_push, if_neg (Nat.ne_of_lt hj)]
  · obtain ⟨n', hn', hn'eq⟩ := hheads _ _ hnew
    refine ⟨n', hn', ?_, ?_, ?_⟩ <;> rw [hn'eq] <;> rfl

theorem addChildren_pushed_step {index : Nat} {path : List String} {id : String}
    {seen : List String} {key : String} {child : StateConfig}
    {rest : List (String × StateConfig)} {s : State} (hidx : index < s.nodes.size)
    (hkey : validKey key = true ∧ key ∉ seen)
    (hchild : NodePushed mid (path ++ [key]) key child s
      (addNode mid (some index) (path ++ [key]) key child s))
    (hrest : ∀ s' : State, index < s'.nodes.size →
      ChildrenPushed index (seen ++ [key]) rest s'
        (addChildren mid index path id (seen ++ [key]) rest s')) :
    ChildrenPushed index seen ((key, child) :: rest) s
      (addChildren mid index path id (seen ++ [key])
        rest ((addNode mid (some index) (path ++ [key]) key child s).1.modifyNode index
          fun n => { n with children := n.children ++ [(addNode mid (some index) (path ++ [key])
            key child s).2] })) := by
  rcases hadd : addNode mid (some index) (path ++ [key]) key child s with ⟨s₁, c⟩
  rw [hadd] at hchild
  dsimp only
  have hc : c = s.nodes.size := hchild.index
  subst hc
  have hsize : (s₁.modifyNode index fun n =>
      { n with children := n.children ++ [s.nodes.size] }).nodes.size = s₁.nodes.size := by simp
  have hgrows : s.nodes.size < s₁.nodes.size := hchild.grows
  have ih := hrest
    (s₁.modifyNode index fun n => { n with children := n.children ++ [s.nodes.size] }) (by omega)
  have hgrows₂ := ih.grows
  rw [hsize] at hgrows₂
  obtain ⟨new₂, hnew₂, hkeys₂⟩ := ih.children
  obtain ⟨n, hn, hnkey, -, -⟩ := hchild.head
  -- the new child keeps its node, and so its key, to the end
  have hckey : (addChildren mid index path id (seen ++ [key]) rest
      (s₁.modifyNode index fun n => { n with children := n.children ++ [s.nodes.size] })).keyAt
      s.nodes.size = key := by
    rw [State.keyAt_of_getElem? (n := n), hnkey]
    rw [ih.frame _ (by omega) (by omega), State.modifyNode_nodes, Array.getElem?_modify,
      if_neg (by omega), hn]
  refine ⟨by omega, fun j hj hji => ?_, ⟨s.nodes.size :: new₂, ?_, fun k => ?_⟩⟩
  · rw [ih.frame j (by omega) hji, State.modifyNode_nodes, Array.getElem?_modify,
      if_neg (Ne.symm hji), hchild.frame j hj]
  · rw [hnew₂, State.modifyNode_nodes, Array.getElem?_modify, if_pos rfl, hchild.frame index hidx]
    cases s.nodes[index]? <;> simp
  · simp only [List.mem_cons, exists_eq_or_imp, hckey, hkeys₂ k]
    by_cases hk : k = key
    · subst hk
      simp [hkey.1, hkey.2]
    · simp [hk, Ne.symm hk]

/-- A refused child adds no node: the children are those of the rest, and its
key is valid and new to none of them. -/
theorem ChildrenPushed.refused {index : Nat} {seen : List String} {key : String}
    {child : StateConfig} {rest : List (String × StateConfig)} {s r : State} {e : ConfigError}
    (h : ChildrenPushed index seen rest (s.fail e) r) (hkey : validKey key = true → key ∈ seen) :
    ChildrenPushed index seen ((key, child) :: rest) s r := by
  obtain ⟨new, hnew, hkeys⟩ := h.children
  refine ⟨h.grows, h.frame, new, hnew, fun k => ?_⟩
  rw [hkeys k]
  by_cases hkk : k = key
  · subst hkk
    constructor
    · rintro ⟨hv, hseen, -⟩
      exact absurd (hkey hv) hseen
    · rintro ⟨hv, hseen, -⟩
      exact absurd (hkey hv) hseen
  · simp [hkk]

mutual
theorem addNode_pushed : ∀ (parent : Option Nat) (path : List String) (key : String)
    (config : StateConfig) (s : State),
    NodePushed mid path key config s (addNode mid parent path key config s)
  | parent, path, key, ⟨_, _, _, _, _, _, _, states⟩, s =>
    addNode_pushed_step (addChildren_pushed _ path _ [] states _ (by
      rw [push_nodes, Array.size_push]
      omega))

theorem addChildren_pushed : ∀ (index : Nat) (path : List String) (id : String)
    (seen : List String) (states : List (String × StateConfig)) (s : State),
    index < s.nodes.size →
      ChildrenPushed index seen states s (addChildren mid index path id seen states s)
  | index, path, id, seen, [], s, _ => by
    rw [addChildren]
    refine ⟨Nat.le_refl _, fun _ _ _ => rfl, ⟨[], ?_, fun k => by simp⟩⟩
    cases s.nodes[index]? <;> simp
  | index, path, id, seen, (key, child) :: rest, s, hidx => by
    rw [addChildren]
    -- a refused key records its problem and keeps the nodes as they were
    by_cases hk : (!validKey key) = true
    · rw [if_pos hk]
      exact (addChildren_pushed index path id seen rest (s.fail (.invalidKey id key)) hidx).refused
        fun hv => by simp [hv] at hk
    rw [if_neg hk]
    by_cases hs : seen.contains key = true
    · rw [if_pos hs]
      exact (addChildren_pushed index path id seen rest (s.fail (.duplicateKey id key))
        hidx).refused fun _ => by simpa using hs
    rw [if_neg hs]
    exact addChildren_pushed_step hidx
      ⟨by simpa using hk, by simpa [List.contains_iff_mem] using hs⟩
      (addNode_pushed (some index) (path ++ [key]) key child s)
      (fun s' hs' => addChildren_pushed index path id (seen ++ [key]) rest s' hs')
end


theorem findChild_isSome {s : State} {index : Nat} {k : String} :
    (findChild s index k).isSome ↔
      ∃ c ∈ (s.nodes[index]?.map Node.children).getD [], s.keyAt c = k := by
  unfold findChild
  rw [List.find?_isSome]
  simp

/-- The initial child a state names is found among its children exactly when
its key is valid and one of the state's configured keys. -/
theorem findChild_addChildren_isSome (parent : Option Nat) (path : List String) (key : String)
    (config : StateConfig) (s : State) (k : String) :
    (findChild (addChildren mid s.nodes.size path (stateId mid config.id path) [] config.states
      (push mid parent path key config s)) s.nodes.size k).isSome ↔
      validKey k = true ∧ k ∈ config.states.map Prod.fst := by
  have hc := @addChildren_pushed mid s.nodes.size path (stateId mid config.id path) [] config.states
    (push mid parent path key config s) (by
      rw [push_nodes, Array.size_push]
      omega)
  obtain ⟨new, hnew, hkeys⟩ := hc.children
  rw [push_nodes, Array.getElem?_push_size, Option.map_some] at hnew
  rw [findChild_isSome, hnew, Option.map_some, Option.getD_some]
  simpa [pushedNode] using hkeys k

end Pushed

/-! ## The ids of the nodes -/

section Ids

variable {mid : String}

/-- The ids `r` appends to those of `s` are those of a sublist of the states
`xs`, in order, and of all of them when `r` records no new problem. -/
def IdsFrom (mid : String) (xs : List (List String × StateConfig)) (s r : State) : Prop :=
  ∃ new, r.ids = s.ids ++ new ∧ List.Sublist new (xs.map (configuredId mid)) ∧
    (r.errors = s.errors → new = xs.map (configuredId mid))

theorem ids_addNode_step {parent : Option Nat} {path : List String} {key : String}
    {config : StateConfig} {s : State}
    (hc : IdsFrom mid (StateConfig.subtrees path config.states) (push mid parent path key config s)
      (addChildren mid s.nodes.size path (stateId mid config.id path) [] config.states
        (push mid parent path key config s))) :
    IdsFrom mid (config.subtree path) s (addNode mid parent path key config s).1 := by
  obtain ⟨new, hids, hsub, hclean⟩ := hc
  refine ⟨stateId mid config.id path :: new, ?_, ?_, fun herr => ?_⟩
  · rw [addNode_eq, (setInitial_heads _ _ _ _).1, hids, push_ids, List.append_assoc,
      List.singleton_append]
  · rw [StateConfig.subtree_eq, List.map_cons]
    exact hsub.cons_cons _
  · rw [StateConfig.subtree_eq, List.map_cons, hclean (addNode_stages_clean herr).2.1]
    rfl

theorem IdsFrom.refused {xs ys : List (List String × StateConfig)} {s r : State} {e : ConfigError}
    (h : IdsFrom mid ys (s.fail e) r) (hne : r.errors ≠ s.errors) :
    IdsFrom mid (xs ++ ys) s r := by
  obtain ⟨new, hids, hsub, -⟩ := h
  refine ⟨new, hids, ?_, fun herr => absurd herr hne⟩
  rw [List.map_append]
  exact hsub.trans (List.sublist_append_right _ _)

mutual
/-- The ids of the nodes adding a state appends are those of a sublist of its
subtree, in order, and of the whole subtree when no problem is recorded. -/
theorem ids_addNode : ∀ (parent : Option Nat) (path : List String) (key : String)
    (config : StateConfig) (s : State),
    IdsFrom mid (config.subtree path) s (addNode mid parent path key config s).1
  | _, path, _, ⟨_, _, _, _, _, _, _, states⟩, _ =>
    ids_addNode_step (ids_addChildren _ path _ [] states _)

/-- The ids of the nodes adding children appends are those of a sublist of
their subtrees, in order, and of all of them when no problem is recorded. -/
theorem ids_addChildren : ∀ (index : Nat) (path : List String) (id : String)
    (seen : List String) (states : List (String × StateConfig)) (s : State),
    IdsFrom mid (StateConfig.subtrees path states) s (addChildren mid index path id seen states s)
  | _, _, _, _, [], s => ⟨[], by simp [addChildren], List.nil_sublist _, fun _ => rfl⟩
  | index, path, id, seen, (key, child) :: rest, s => by
    rw [addChildren, StateConfig.subtrees_cons]
    split
    · exact (ids_addChildren index path id seen rest _).refused (addChildren_fail_ne _ _ _)
    · split
      · exact (ids_addChildren index path id seen rest _).refused (addChildren_fail_ne _ _ _)
      · rcases hadd : addNode mid (some index) (path ++ [key]) key child s with ⟨s₁, c⟩
        obtain ⟨new₁, hids₁, hsub₁, hclean₁⟩ := ids_addNode (some index) (path ++ [key]) key child s
        rw [hadd] at hids₁ hclean₁
        dsimp only
        obtain ⟨new₂, hids₂, hsub₂, hclean₂⟩ := ids_addChildren index path id (seen ++ [key]) rest
          (s₁.modifyNode index fun n => { n with children := n.children ++ [c] })
        refine ⟨new₁ ++ new₂, ?_, ?_, fun herr => ?_⟩
        · rw [hids₂, State.ids_modifyNode s₁ index
            (fun n => { n with children := n.children ++ [c] }) fun _ => rfl, hids₁,
            List.append_assoc]
        · rw [List.map_append]
          exact hsub₁.append hsub₂
        · -- neither the child's subtree nor the rest recorded a problem
          have e₁ := @errors_prefix_addNode mid (some index) (path ++ [key]) key child s
          rw [hadd] at e₁
          have h₁ : s₁.errors = s.errors := eq_of_prefix_of_prefix e₁
            (@errors_prefix_addChildren mid index path id (seen ++ [key]) rest
              (s₁.modifyNode index fun n => { n with children := n.children ++ [c] })) herr
          rw [List.map_append, hclean₁ h₁, hclean₂ (herr.trans h₁.symm)]
end

end Ids

/-! ## The configurations recorded with the nodes -/

/-- Each configuration the builder recorded is one of `R`, at the path of its
node, and the node has the id that configuration gives it there. -/
def SourcesIn (mid : String) (R : List (List String × StateConfig)) (s : State) : Prop :=
  ∀ p ∈ s.sources, ∃ n, s.nodes[p.1]? = some n ∧ (n.path, p.2) ∈ R ∧
    n.id = stateId mid p.2.id n.path

namespace SourcesIn

variable {mid : String} {R : List (List String × StateConfig)} {s : State}

theorem fail (h : SourcesIn mid R s) (e : ConfigError) : SourcesIn mid R (s.fail e) := h

theorem modifyNode (h : SourcesIn mid R s) (i : Nat) {f : Node → Node}
    (hf : ∀ n, (f n).path = n.path ∧ (f n).id = n.id) : SourcesIn mid R (s.modifyNode i f) := by
  intro p hp
  obtain ⟨n, hn, hmem, hid⟩ := h p hp
  by_cases hi : i = p.1
  · refine ⟨f n, ?_, ?_, ?_⟩
    · simp [Array.getElem?_modify, hi, hn]
    · rw [(hf n).1]
      exact hmem
    · rw [(hf n).1, (hf n).2]
      exact hid
  · exact ⟨n, by simp [Array.getElem?_modify, hi, hn], hmem, hid⟩

theorem push (h : SourcesIn mid R s) {parent : Option Nat} {path : List String} {key : String}
    {config : StateConfig} (hmem : (path, config) ∈ R) :
    SourcesIn mid R (TreeBuilder.push mid parent path key config s) := by
  intro p hp
  rw [push_sources, List.mem_append, List.mem_singleton] at hp
  rw [push_nodes]
  rcases hp with hp | rfl
  · obtain ⟨n, hn, hmem', hid⟩ := h p hp
    refine ⟨n, ?_, hmem', hid⟩
    rw [Array.getElem?_push, if_neg (Nat.ne_of_lt (Array.getElem?_eq_some_iff.1 hn).1), hn]
  · exact ⟨pushedNode mid parent path key config, Array.getElem?_push_size, hmem, rfl⟩

theorem setInitial (h : SourcesIn mid R s) {id : String} {index : Nat} {config : StateConfig} :
    SourcesIn mid R (TreeBuilder.setInitial id index config s) := by
  rcases setInitial_cases id index config s with
    ⟨k, c, -, -, -, he⟩ | ⟨k, -, -, -, he⟩ | ⟨-, -, he⟩ | ⟨k, -, -, he⟩ | ⟨-, -, he⟩ <;> rw [he]
  · exact h.modifyNode index fun _ => ⟨rfl, rfl⟩
  all_goals first | exact h.fail _ | exact h

end SourcesIn

section Sources

variable {mid : String} {R : List (List String × StateConfig)}

mutual
/-- Adding a state whose subtree lies in `R` records only configurations of `R`. -/
theorem sourcesIn_addNode : ∀ (parent : Option Nat) (path : List String) (key : String)
    (config : StateConfig) {s : State}, config.subtree path ⊆ R → SourcesIn mid R s →
      SourcesIn mid R (addNode mid parent path key config s).1
  | _, path, _, config@⟨_, _, _, _, _, _, _, states⟩, _, hR, h => by
    rw [addNode_eq]
    refine (sourcesIn_addChildren _ path _ [] states (fun e he x hx => hR ?_)
      (h.push (hR (StateConfig.self_mem_subtree path _)))).setInitial
    rw [StateConfig.subtree_eq]
    exact List.mem_cons_of_mem _ (StateConfig.mem_subtrees.2 ⟨e, he, hx⟩)

theorem sourcesIn_addChildren : ∀ (index : Nat) (path : List String) (id : String)
    (seen : List String) (states : List (String × StateConfig)) {s : State},
    (∀ e ∈ states, e.2.subtree (path ++ [e.1]) ⊆ R) → SourcesIn mid R s →
      SourcesIn mid R (addChildren mid index path id seen states s)
  | _, _, _, _, [], _, _, h => by
    rw [addChildren]
    exact h
  | index, path, id, seen, (key, child) :: rest, s, hR, h => by
    have hrest : ∀ e ∈ rest, e.2.subtree (path ++ [e.1]) ⊆ R :=
      fun e he => hR e (List.mem_cons_of_mem _ he)
    rw [addChildren]
    split
    · exact sourcesIn_addChildren index path id seen rest hrest (h.fail _)
    · split
      · exact sourcesIn_addChildren index path id seen rest hrest (h.fail _)
      · rcases hadd : addNode mid (some index) (path ++ [key]) key child s with ⟨s₁, c⟩
        have h₁ := sourcesIn_addNode (some index) (path ++ [key]) key child
          (hR (key, child) List.mem_cons_self) h
        rw [hadd] at h₁
        exact sourcesIn_addChildren index path id _ rest hrest
          (h₁.modifyNode _ fun _ => ⟨rfl, rfl⟩)
end

end Sources

end TreeBuilder

end Statechart
