import Statechart.Tree.Build
/-!
# How a build lays out the states

The builder adds a state, then the subtrees of its children one after another,
depth first, each node pushed at the end of the node array. When the build
finds no problem, the nodes of a state's subtree therefore fill one block of
indices: the state first, then one block per child, in order (`Lays`).

Every node of such a layout is recorded among the builder's sources with its
configuration, and carries what that configuration says: its key, id, path,
parent, kind and actions, and an initial child exactly when it is compound
(`Fresh`). The blocks are written once and never touched again, except that a
state's children list grows and its initial child is set while its own block
is still open; this is the frame property the proofs below rest on.
-/
namespace Statechart

namespace TreeBuilder

/-- The kind the builder gives a configured state. -/
def kindOf (config : StateConfig) : StateKind :=
  if config.kind == some .final then .final
  else if config.states.isEmpty then .atomic else .compound

/-- `n` is the node a build without problems makes for the state configured as
`config`, at `path` under `parent`, before any transition is added. -/
structure Fresh (mid : String) (parent : Option Nat) (path : List String) (key : String)
    (config : StateConfig) (n : Node) : Prop where
  key : n.key = key
  id : n.id = stateId mid config.id path
  path : n.path = path
  parent : n.parent = parent
  kind : n.kind = kindOf config
  entry : n.entry = config.entry
  exit : n.exit = config.exit
  on : n.on = []
  always : n.always = []
  final : config.kind = some .final → config.states = []
  keys_nodup : (config.states.map Prod.fst).Nodup
  keys_valid : ∀ k ∈ config.states.map Prod.fst, validKey k = true
  initial_mem : n.kind = .compound → ∃ c ∈ n.children, n.initial = some c
  initial_leaf : n.kind ≠ .compound → n.initial = none

mutual
/-- `nodes[lo, hi)` hold the state `config` and its subtree as a build without
problems lays them out: the state at `lo`, then one block per child. -/
def Lays (nodes : Array Node) (srcs : List (Nat × StateConfig)) (mid : String)
    (parent : Option Nat) (path : List String) (key : String) :
    StateConfig → Nat → Nat → Prop
  | config@⟨_, _, _, _, _, _, _, states⟩, lo, hi =>
    ∃ n, nodes[lo]? = some n ∧ (lo, config) ∈ srcs ∧ Fresh mid parent path key config n ∧
      LaysBelow nodes srcs mid lo path n.children states (lo + 1) hi

/-- `nodes[lo, hi)` hold the subtrees of the configured children `states` of
the node `p` at `path`, in order, starting at the indices listed in `cs`. -/
def LaysBelow (nodes : Array Node) (srcs : List (Nat × StateConfig)) (mid : String) (p : Nat)
    (path : List String) : List Nat → List (String × StateConfig) → Nat → Nat → Prop
  | [], [], lo, hi => lo = hi
  | c :: cs, (k, config) :: rest, lo, hi =>
    c = lo ∧ ∃ m, Lays nodes srcs mid (some p) (path ++ [k]) k config lo m ∧
      LaysBelow nodes srcs mid p path cs rest m hi
  | _, _, _, _ => False
end

theorem lays_iff {nodes : Array Node} {srcs : List (Nat × StateConfig)} {mid : String}
    {parent : Option Nat} {path : List String} {key : String} {config : StateConfig}
    {lo hi : Nat} :
    Lays nodes srcs mid parent path key config lo hi ↔
      ∃ n, nodes[lo]? = some n ∧ (lo, config) ∈ srcs ∧ Fresh mid parent path key config n ∧
        LaysBelow nodes srcs mid lo path n.children config.states (lo + 1) hi := by
  cases config
  rfl


/-! ## The steps of adding a state -/

namespace State

@[simp] theorem fail_nodes (s : State) (e : ConfigError) : (s.fail e).nodes = s.nodes := rfl

@[simp] theorem fail_sources (s : State) (e : ConfigError) : (s.fail e).sources = s.sources := rfl

@[simp] theorem fail_errors (s : State) (e : ConfigError) :
    (s.fail e).errors = s.errors ++ [e] := rfl

@[simp] theorem modifyNode_nodes (s : State) (i : Nat) (f : Node → Node) :
    (s.modifyNode i f).nodes = s.nodes.modify i f := rfl

@[simp] theorem modifyNode_sources (s : State) (i : Nat) (f : Node → Node) :
    (s.modifyNode i f).sources = s.sources := rfl

@[simp] theorem modifyNode_errors (s : State) (i : Nat) (f : Node → Node) :
    (s.modifyNode i f).errors = s.errors := rfl

theorem fail_errors_ne (s : State) (e : ConfigError) : (s.fail e).errors ≠ s.errors := by
  simp

theorem not_fail_prefix (s : State) (e : ConfigError) : ¬ (s.fail e).errors <+: s.errors := by
  intro h
  have := h.length_le
  simp only [fail_errors, List.length_append, List.length_singleton] at this
  omega

end State

/-- The node adding a state pushes: no children, initial child or transitions yet. -/
def pushedNode (mid : String) (parent : Option Nat) (path : List String) (key : String)
    (config : StateConfig) : Node :=
  { key, id := stateId mid config.id path, path, parent, kind := kindOf config,
    entry := config.entry, exit := config.exit }

/-- Adding a state, first step: push its node and record its configuration; a
final state with children is a problem. -/
def push (mid : String) (parent : Option Nat) (path : List String) (key : String)
    (config : StateConfig) (s : State) : State :=
  let index := s.nodes.size
  let id := stateId mid config.id path
  let isFinal := config.kind == some .final
  let kind : StateKind :=
    if isFinal then .final else if config.states.isEmpty then .atomic else .compound
  let s := if isFinal && !config.states.isEmpty then s.fail (.finalWithChildren id) else s
  { s with
    nodes := s.nodes.push { key, id, path, parent, kind, entry := config.entry, exit := config.exit }
    sources := s.sources ++ [(index, config)] }

/-- Adding a state, last step: once its children are in, pick its initial child. -/
def setInitial (id : String) (index : Nat) (config : StateConfig) (s : State) : State :=
  match config.initial, kindOf config == .compound with
  | some initial, true =>
    match (s.nodes[index]?.map Node.children).getD [] |>.find? (fun c =>
        ((s.nodes[c]?.map Node.key).getD "") == initial) with
    | some child => s.modifyNode index fun n => { n with initial := some child }
    | none => s.fail (.unknownInitial id initial)
  | none, true => s.fail (.missingInitial id)
  | some initial, false => s.fail (.initialOnLeaf id initial)
  | none, false => s

/-- Adding a state is pushing its node, adding its children, then picking its
initial child. -/
theorem addNode_eq (mid : String) (parent : Option Nat) (path : List String) (key : String)
    (config : StateConfig) (s : State) :
    addNode mid parent path key config s =
      (setInitial (stateId mid config.id path) s.nodes.size config
        (addChildren mid s.nodes.size path (stateId mid config.id path) [] config.states
          (push mid parent path key config s)), s.nodes.size) := by
  cases config
  rfl

section Steps

variable {mid : String} {parent : Option Nat} {path : List String} {key : String}
  {config : StateConfig} {s : State}

theorem push_nodes :
    (push mid parent path key config s).nodes =
      s.nodes.push (pushedNode mid parent path key config) := by
  by_cases hc : (config.kind == some .final && !config.states.isEmpty) = true <;>
    simp [push, pushedNode, kindOf, hc]

theorem push_sources :
    (push mid parent path key config s).sources = s.sources ++ [(s.nodes.size, config)] := by
  by_cases hc : (config.kind == some .final && !config.states.isEmpty) = true <;>
    simp [push, hc]

theorem errors_prefix_push : s.errors <+: (push mid parent path key config s).errors := by
  by_cases hc : (config.kind == some .final && !config.states.isEmpty) = true <;>
    simp [push, hc]

theorem push_clean (h : (push mid parent path key config s).errors = s.errors) :
    config.kind = some .final → config.states = [] := by
  intro hfinal
  by_cases hc : (config.kind == some .final && !config.states.isEmpty) = true
  · simp [push, hc] at h
  · simpa [hfinal] using hc

variable {id : String} {index : Nat}

theorem setInitial_sources : (setInitial id index config s).sources = s.sources := by
  unfold setInitial
  split
  · split <;> rfl
  all_goals rfl

theorem setInitial_size : (setInitial id index config s).nodes.size = s.nodes.size := by
  unfold setInitial
  split
  · split <;> simp
  all_goals rfl

theorem setInitial_frame {j : Nat} (hj : j ≠ index) :
    (setInitial id index config s).nodes[j]? = s.nodes[j]? := by
  unfold setInitial
  split
  · split
    · simp [Array.getElem?_modify, Ne.symm hj]
    · rfl
  all_goals rfl

theorem errors_prefix_setInitial : s.errors <+: (setInitial id index config s).errors := by
  unfold setInitial
  split
  · split
    · exact List.prefix_refl _
    · exact List.prefix_append _ _
  all_goals first | exact List.prefix_append _ _ | exact List.prefix_refl _

/-- Picking the initial child without a problem sets one of the children of a
compound state, and nothing for any other. -/
theorem setInitial_clean {n : Node} (hn : s.nodes[index]? = some n)
    (h : (setInitial id index config s).errors = s.errors) :
    ∃ n', (setInitial id index config s).nodes[index]? = some n' ∧
      n' = { n with initial := n'.initial } ∧
      (kindOf config = .compound → ∃ c ∈ n.children, n'.initial = some c) ∧
      (kindOf config ≠ .compound → n'.initial = n.initial) := by
  unfold setInitial at h ⊢
  split at h
  next initial hk =>
    split at h
    next child hfind =>
      rw [hn] at hfind
      refine ⟨{ n with initial := some child }, ?_, rfl, fun _ => ⟨child, ?_, rfl⟩, ?_⟩
      · simp [Array.getElem?_modify, hn]
      · exact List.mem_of_find?_eq_some hfind
      · intro hne
        exact absurd (beq_iff_eq.1 hk) hne
    · exact absurd h (State.fail_errors_ne _ _)
  · exact absurd h (State.fail_errors_ne _ _)
  · exact absurd h (State.fail_errors_ne _ _)
  next hk =>
    refine ⟨n, hn, rfl, fun hc => ?_, fun _ => rfl⟩
    simp [hc] at hk

end Steps

/-! ## Problems only accumulate -/

private theorem eq_of_prefix_chain {a b c d : List ConfigError} (hab : a <+: b) (hbc : b <+: c)
    (hcd : c <+: d) (hd : d = a) : b = a ∧ c = b ∧ d = c := by
  have h1 := hab.length_le
  have h2 := hbc.length_le
  have h3 := hcd.length_le
  rw [hd] at h3 hcd ⊢
  have hb : a = b := hab.eq_of_length (by omega)
  have hc : b = c := hbc.eq_of_length (by omega)
  exact ⟨hb.symm, hc.symm, by rw [hb, hc]⟩

section Problems

variable {mid : String}

mutual
theorem errors_prefix_addNode : ∀ (parent : Option Nat) (path : List String) (key : String)
    (config : StateConfig) (s : State), s.errors <+: (addNode mid parent path key config s).1.errors
  | parent, path, key, ⟨id, kind, initial, entry, exit, on, always, states⟩, s => by
    rw [addNode_eq]
    exact errors_prefix_push.trans
      ((errors_prefix_addChildren _ path _ [] states _).trans errors_prefix_setInitial)

theorem errors_prefix_addChildren : ∀ (index : Nat) (path : List String) (id : String)
    (seen : List String) (states : List (String × StateConfig)) (s : State),
    s.errors <+: (addChildren mid index path id seen states s).errors
  | _, _, _, _, [], s => List.prefix_refl s.errors
  | index, path, id, seen, (key, child) :: rest, s => by
    rw [addChildren]
    split
    · exact (List.prefix_append _ _).trans
        (errors_prefix_addChildren index path id seen rest (s.fail _))
    · split
      · exact (List.prefix_append _ _).trans
          (errors_prefix_addChildren index path id seen rest (s.fail _))
      · rcases hadd : addNode mid (some index) (path ++ [key]) key child s with ⟨s₁, c⟩
        have h₁ := errors_prefix_addNode (some index) (path ++ [key]) key child s
        rw [hadd] at h₁
        dsimp only at h₁ ⊢
        exact h₁.trans (errors_prefix_addChildren index path id _ rest (s₁.modifyNode _ _))
end

end Problems


section Layout

variable {nodes nodes' : Array Node} {srcs srcs' : List (Nat × StateConfig)} {mid : String}

mutual
theorem Lays.lt : ∀ {parent : Option Nat} {path : List String} {key : String}
    (config : StateConfig) {lo hi : Nat}, Lays nodes srcs mid parent path key config lo hi → lo < hi
  | _, _, _, ⟨_, _, _, _, _, _, _, states⟩, _, _, ⟨_, _, _, _, hb⟩ => by
    have := LaysBelow.le states hb
    omega

theorem LaysBelow.le {p : Nat} {path : List String} : ∀ {cs : List Nat}
    (states : List (String × StateConfig)) {lo hi : Nat},
    LaysBelow nodes srcs mid p path cs states lo hi → lo ≤ hi
  | [], [], _, _, h => Nat.le_of_eq h
  | _ :: _, (_, config) :: rest, _, _, ⟨_, _, hl, hb⟩ => by
    have := Lays.lt config hl
    have := LaysBelow.le rest hb
    omega
  | [], _ :: _, _, _, h => h.elim
  | _ :: _, [], _, _, h => h.elim
end

mutual
theorem Lays.mono (hs : srcs ⊆ srcs') : ∀ {parent : Option Nat} {path : List String}
    {key : String} (config : StateConfig) {lo hi : Nat},
    (∀ j, lo ≤ j → j < hi → nodes'[j]? = nodes[j]?) →
    Lays nodes srcs mid parent path key config lo hi →
    Lays nodes' srcs' mid parent path key config lo hi
  | _, _, _, ⟨_, _, _, _, _, _, _, states⟩, lo, hi, hn, ⟨n, hget, hsrc, hfresh, hb⟩ => by
    have hle := LaysBelow.le states hb
    refine ⟨n, ?_, hs hsrc, hfresh, LaysBelow.mono hs states ?_ hb⟩
    · rw [hn lo (Nat.le_refl lo) (by omega)]
      exact hget
    · intro j hj hj'
      exact hn j (by omega) hj'

theorem LaysBelow.mono (hs : srcs ⊆ srcs') {p : Nat} {path : List String} :
    ∀ {cs : List Nat} (states : List (String × StateConfig)) {lo hi : Nat},
    (∀ j, lo ≤ j → j < hi → nodes'[j]? = nodes[j]?) →
    LaysBelow nodes srcs mid p path cs states lo hi →
    LaysBelow nodes' srcs' mid p path cs states lo hi
  | [], [], _, _, _, h => h
  | _ :: _, (_, config) :: rest, _, _, hn, ⟨hc, m, hl, hb⟩ => by
    have hle := LaysBelow.le rest hb
    have hlt := Lays.lt config hl
    refine ⟨hc, m, Lays.mono hs config ?_ hl, LaysBelow.mono hs rest ?_ hb⟩
    · intro j hj hj'
      exact hn j hj (by omega)
    · intro j hj hj'
      exact hn j (by omega) hj'
  | [], _ :: _, _, _, _, h => h.elim
  | _ :: _, [], _, _, _, h => h.elim
end

end Layout

/-! ## A build without problems lays out every subtree -/

/-- Adding the state `config` without a new problem: it takes the next index,
earlier nodes stay, sources only grow, and its block is laid out. -/
structure NodeAdded (mid : String) (parent : Option Nat) (path : List String) (key : String)
    (config : StateConfig) (s : State) (r : State × Nat) : Prop where
  index : r.2 = s.nodes.size
  grows : s.nodes.size < r.1.nodes.size
  frame : ∀ j < s.nodes.size, r.1.nodes[j]? = s.nodes[j]?
  sources : s.sources ⊆ r.1.sources
  lays : Lays r.1.nodes r.1.sources mid parent path key config s.nodes.size r.1.nodes.size

/-- Adding the children `states` of node `index` without a new problem: only
that node changes, by more children, and the new nodes lay out the children's
blocks. -/
structure ChildrenAdded (mid : String) (index : Nat) (path : List String) (seen : List String)
    (states : List (String × StateConfig)) (s s' : State) : Prop where
  grows : s.nodes.size ≤ s'.nodes.size
  frame : ∀ j < s.nodes.size, j ≠ index → s'.nodes[j]? = s.nodes[j]?
  sources : s.sources ⊆ s'.sources
  children : ∃ new, s'.nodes[index]? =
      s.nodes[index]?.map (fun n => { n with children := n.children ++ new }) ∧
    LaysBelow s'.nodes s'.sources mid index path new states s.nodes.size s'.nodes.size
  keys_fresh : ∀ k ∈ states.map Prod.fst, validKey k = true ∧ k ∉ seen
  keys_nodup : (states.map Prod.fst).Nodup

section Clean

variable {mid : String}

theorem addNode_clean_step {parent : Option Nat} {path : List String} {key : String}
    {config : StateConfig} {s : State}
    (hchildren : (addChildren mid s.nodes.size path (stateId mid config.id path) [] config.states
        (push mid parent path key config s)).errors = (push mid parent path key config s).errors →
      s.nodes.size < (push mid parent path key config s).nodes.size →
      ChildrenAdded mid s.nodes.size path [] config.states (push mid parent path key config s)
        (addChildren mid s.nodes.size path (stateId mid config.id path) [] config.states
          (push mid parent path key config s)))
    (herr : (addNode mid parent path key config s).1.errors = s.errors) :
    NodeAdded mid parent path key config s (addNode mid parent path key config s) := by
  rw [addNode_eq] at herr ⊢
  -- none of the three stages recorded a problem
  obtain ⟨h₁, h₂, h₃⟩ := eq_of_prefix_chain errors_prefix_push
    (errors_prefix_addChildren _ path _ [] config.states _) errors_prefix_setInitial herr
  have hsize : (push mid parent path key config s).nodes.size = s.nodes.size + 1 := by
    rw [push_nodes, Array.size_push]
  have hc := hchildren h₂ (by omega)
  obtain ⟨new, hnew, hbelow⟩ := hc.children
  rw [push_nodes, Array.getElem?_push_size, Option.map_some] at hnew
  obtain ⟨n', hn', hn'eq, hinit_c, hinit_l⟩ := setInitial_clean hnew h₃
  have hchildren' : n'.children = new := by rw [hn'eq]; rfl
  refine ⟨rfl, ?_, ?_, ?_, ?_⟩
  · rw [setInitial_size]
    have := hc.grows
    omega
  · intro j hj
    rw [setInitial_frame (Nat.ne_of_lt hj), hc.frame j (by omega) (Nat.ne_of_lt hj), push_nodes,
      Array.getElem?_push, if_neg (Nat.ne_of_lt hj)]
  · rw [setInitial_sources]
    refine List.Subset.trans ?_ hc.sources
    rw [push_sources]
    exact List.subset_append_left _ _
  · -- the state's own node, then the blocks of its children
    refine lays_iff.2 ⟨n', hn', ?_, ?_, ?_⟩
    · rw [setInitial_sources]
      apply hc.sources
      rw [push_sources]
      exact List.mem_append_right _ (List.mem_singleton_self _)
    · refine ⟨by rw [hn'eq]; rfl, by rw [hn'eq]; rfl, by rw [hn'eq]; rfl, by rw [hn'eq]; rfl,
        by rw [hn'eq]; rfl, by rw [hn'eq]; rfl, by rw [hn'eq]; rfl, by rw [hn'eq]; rfl,
        by rw [hn'eq]; rfl, push_clean h₁, hc.keys_nodup, fun k hk => (hc.keys_fresh k hk).1,
        ?_, ?_⟩
      · intro hk
        have hk' : kindOf config = .compound := by rw [← hk, hn'eq]; rfl
        obtain ⟨c, hcmem, hcinit⟩ := hinit_c hk'
        exact ⟨c, hchildren' ▸ (by simpa [pushedNode] using hcmem), hcinit⟩
      · intro hk
        have hk' : kindOf config ≠ .compound := by rw [hn'eq] at hk; exact hk
        rw [hinit_l hk']
        rfl
    · rw [hchildren', setInitial_size]
      rw [hsize] at hbelow
      refine LaysBelow.mono (by rw [setInitial_sources]; exact List.Subset.refl _) _ ?_ hbelow
      intro j hj _
      exact setInitial_frame (by omega)

theorem addChildren_clean_step {index : Nat} {path : List String} {id : String}
    {seen : List String} {key : String} {child : StateConfig}
    {rest : List (String × StateConfig)} {s : State}
    (hchild : (addNode mid (some index) (path ++ [key]) key child s).1.errors = s.errors →
      NodeAdded mid (some index) (path ++ [key]) key child s
        (addNode mid (some index) (path ++ [key]) key child s))
    (hrest : ∀ s' : State, (addChildren mid index path id (seen ++ [key]) rest s').errors =
        s'.errors → index < s'.nodes.size →
      ChildrenAdded mid index path (seen ++ [key]) rest s'
        (addChildren mid index path id (seen ++ [key]) rest s'))
    (herr : (addChildren mid index path id seen ((key, child) :: rest) s).errors = s.errors)
    (hidx : index < s.nodes.size) :
    ChildrenAdded mid index path seen ((key, child) :: rest) s
      (addChildren mid index path id seen ((key, child) :: rest) s) := by
  rw [addChildren] at herr ⊢
  -- a refused key records a problem
  by_cases hk : (!validKey key) = true
  · rw [if_pos hk] at herr
    have : (s.fail (.invalidKey id key)).errors <+:
        (addChildren mid index path id seen rest (s.fail (.invalidKey id key))).errors :=
      errors_prefix_addChildren index path id seen rest _
    rw [herr] at this
    exact absurd this (State.not_fail_prefix _ _)
  rw [if_neg hk] at herr ⊢
  by_cases hs : seen.contains key = true
  · rw [if_pos hs] at herr
    have : (s.fail (.duplicateKey id key)).errors <+:
        (addChildren mid index path id seen rest (s.fail (.duplicateKey id key))).errors :=
      errors_prefix_addChildren index path id seen rest _
    rw [herr] at this
    exact absurd this (State.not_fail_prefix _ _)
  rw [if_neg hs] at herr ⊢
  rcases hadd : addNode mid (some index) (path ++ [key]) key child s with ⟨s₁, c⟩
  rw [hadd] at herr hchild
  dsimp only at herr hchild ⊢
  -- the child's subtree went in without a problem, and so did the rest
  have e₁ : s.errors <+: (addNode mid (some index) (path ++ [key]) key child s).1.errors :=
    errors_prefix_addNode _ _ _ _ _
  rw [hadd] at e₁
  obtain ⟨h₁, -, -⟩ := eq_of_prefix_chain e₁ (List.prefix_refl _)
    (errors_prefix_addChildren index path id (seen ++ [key]) rest
      (s₁.modifyNode index fun n => { n with children := n.children ++ [c] })) herr
  have ih₁ := hchild h₁
  have hsize : (s₁.modifyNode index fun n => { n with children := n.children ++ [c] }).nodes.size =
      s₁.nodes.size := by simp
  have hgrows : s.nodes.size < s₁.nodes.size := ih₁.grows
  have ih₂ := hrest (s₁.modifyNode index fun n => { n with children := n.children ++ [c] })
    (herr.trans h₁.symm) (by omega)
  have hgrows₂ := ih₂.grows
  rw [hsize] at hgrows₂
  obtain ⟨new₂, hnew₂, hbelow₂⟩ := ih₂.children
  refine ⟨by omega, ?_, List.Subset.trans ih₁.sources ih₂.sources, ⟨c :: new₂, ?_, ?_⟩, ?_, ?_⟩
  · intro j hj hji
    rw [ih₂.frame j (by omega) hji, State.modifyNode_nodes, Array.getElem?_modify,
      if_neg (Ne.symm hji), ih₁.frame j hj]
  · rw [hnew₂, State.modifyNode_nodes, Array.getElem?_modify, if_pos rfl, ih₁.frame index hidx]
    cases s.nodes[index]? <;> simp
  · refine ⟨ih₁.index, s₁.nodes.size, ?_, by rwa [hsize] at hbelow₂⟩
    refine Lays.mono ih₂.sources child ?_ ih₁.lays
    intro j hj hj'
    rw [ih₂.frame j (by omega) (by omega), State.modifyNode_nodes, Array.getElem?_modify,
      if_neg (by omega)]
  · intro k hmem
    rcases List.mem_cons.1 hmem with rfl | hmem
    · exact ⟨by simpa using hk, by simpa [List.contains_iff_mem] using hs⟩
    · obtain ⟨hv, hseen⟩ := ih₂.keys_fresh k hmem
      exact ⟨hv, fun h => hseen (List.mem_append_left _ h)⟩
  · refine List.nodup_cons.2 ⟨fun h => (ih₂.keys_fresh key h).2 ?_, ih₂.keys_nodup⟩
    exact List.mem_append_right _ (List.mem_singleton_self _)

mutual
/-- Adding a state without a problem lays out its subtree. -/
theorem addNode_clean : ∀ (parent : Option Nat) (path : List String) (key : String)
    (config : StateConfig) (s : State),
    (addNode mid parent path key config s).1.errors = s.errors →
      NodeAdded mid parent path key config s (addNode mid parent path key config s)
  | _, path, _, ⟨_, _, _, _, _, _, _, states⟩, _, herr =>
    addNode_clean_step (addChildren_clean _ path _ [] states _) herr

theorem addChildren_clean : ∀ (index : Nat) (path : List String) (id : String)
    (seen : List String) (states : List (String × StateConfig)) (s : State),
    (addChildren mid index path id seen states s).errors = s.errors → index < s.nodes.size →
      ChildrenAdded mid index path seen states s (addChildren mid index path id seen states s)
  | index, path, id, seen, [], s, _, _ => by
    rw [addChildren]
    refine ⟨Nat.le_refl _, fun _ _ _ => rfl, List.Subset.refl _, ⟨[], ?_, rfl⟩, nofun,
      List.nodup_nil⟩
    cases s.nodes[index]? <;> simp
  | index, path, id, seen, (key, child) :: rest, s, herr, hidx =>
    addChildren_clean_step (addNode_clean (some index) (path ++ [key]) key child s)
      (fun s' => addChildren_clean index path id (seen ++ [key]) rest s') herr hidx
end

end Clean

/-! ## Sources in index order -/

section Sources

variable {mid : String}

/-- The builder records one source per node, in index order. -/
def SourcesIndexed (s : State) : Prop := s.sources.map Prod.fst = List.range s.nodes.size

theorem SourcesIndexed.fail {s : State} (h : SourcesIndexed s) (e : ConfigError) :
    SourcesIndexed (s.fail e) := h

theorem SourcesIndexed.modifyNode {s : State} (h : SourcesIndexed s) (i : Nat)
    (f : Node → Node) : SourcesIndexed (s.modifyNode i f) := by
  unfold SourcesIndexed at h ⊢
  rw [State.modifyNode_sources, h, State.modifyNode_nodes, Array.size_modify]

theorem SourcesIndexed.push {s : State} (h : SourcesIndexed s) {parent : Option Nat}
    {path : List String} {key : String} {config : StateConfig} :
    SourcesIndexed (push mid parent path key config s) := by
  unfold SourcesIndexed at h ⊢
  rw [push_sources, push_nodes, Array.size_push, List.map_append, h, List.range_succ]
  rfl

theorem SourcesIndexed.setInitial {s : State} (h : SourcesIndexed s) {id : String} {index : Nat}
    {config : StateConfig} : SourcesIndexed (setInitial id index config s) := by
  unfold SourcesIndexed at h ⊢
  rw [setInitial_sources, setInitial_size, h]

mutual
theorem sourcesIndexed_addNode : ∀ (parent : Option Nat) (path : List String) (key : String)
    (config : StateConfig) {s : State}, SourcesIndexed s →
    SourcesIndexed (addNode mid parent path key config s).1
  | _, path, _, ⟨_, _, _, _, _, _, _, states⟩, _, h => by
    rw [addNode_eq]
    exact (sourcesIndexed_addChildren _ path _ [] states h.push).setInitial

theorem sourcesIndexed_addChildren : ∀ (index : Nat) (path : List String) (id : String)
    (seen : List String) (states : List (String × StateConfig)) {s : State}, SourcesIndexed s →
    SourcesIndexed (addChildren mid index path id seen states s)
  | _, _, _, _, [], _, h => by
    rw [addChildren]
    exact h
  | index, path, id, seen, (key, child) :: rest, s, h => by
    rw [addChildren]
    split
    · exact sourcesIndexed_addChildren index path id seen rest (h.fail _)
    · split
      · exact sourcesIndexed_addChildren index path id seen rest (h.fail _)
      · rcases hadd : addNode mid (some index) (path ++ [key]) key child s with ⟨s₁, c⟩
        have h₁ := sourcesIndexed_addNode (some index) (path ++ [key]) key child h
        rw [hadd] at h₁
        exact sourcesIndexed_addChildren index path id _ rest (h₁.modifyNode _ _)
end

end Sources

end TreeBuilder

end Statechart
