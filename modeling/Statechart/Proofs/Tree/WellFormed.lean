import Mathlib.Logic.Relation
import Mathlib.Data.List.Chain
import Statechart.Tree.Build
/-!
# Well-formed state trees

The shape a built tree has (`WellShaped`): the root at index 0, every other
node among its parent's children and stored after it, children with distinct
valid keys, an initial child wherever there are children, and ids that name
their nodes. A `WellFormed` tree also has every target inside the tree, an
internal one below its source. The tree's walks take the number of nodes as
their budget; since a parent is stored before its children they never run out,
so walking up passes only ancestors (`Above`) and walking down steps from child
to child (`Descends`).
-/
namespace Statechart

namespace StateTree

variable {t : StateTree}

/-- `a` is a proper ancestor of `n`: it is reached from `n` by following parents. -/
def Above (t : StateTree) : Nat → Nat → Prop :=
  Relation.TransGen fun a n => (t.node n).parent = some a

/-- `l` leads down from `a` to `b`, each node a child of the one before. -/
inductive Descends (t : StateTree) : Nat → List Nat → Nat → Prop
  | nil (a : Nat) : Descends t a [] a
  | cons {a c b : Nat} {l : List Nat} :
      c ∈ (t.node a).children → Descends t c l b → Descends t a (c :: l) b

/-- The links of a tree that a configuration builds into: parents and
children, keys, kinds and initial children, and ids. -/
structure WellShaped (t : StateTree) : Prop where
  root_lt : root < t.nodes.size
  root_parent : (t.node root).parent = none
  root_path : (t.node root).path = []
  /-- A parent is stored before its children. -/
  parent_lt : ∀ {i p}, (t.node i).parent = some p → p < i
  has_parent : ∀ {i}, i < t.nodes.size → i ≠ root → ∃ p, (t.node i).parent = some p
  /-- The children lists and the parent links say the same. -/
  mem_children : ∀ {p c}, c ∈ (t.node p).children ↔ c < t.nodes.size ∧ (t.node c).parent = some p
  path_child : ∀ {p c}, c ∈ (t.node p).children →
    (t.node c).path = (t.node p).path ++ [(t.node c).key]
  keys_nodup : ∀ p, ((t.node p).children.map fun c => (t.node c).key).Nodup
  key_valid : ∀ {p c}, c ∈ (t.node p).children → validKey (t.node c).key = true
  final_leaf : ∀ {i}, (t.node i).kind = .final → (t.node i).children = []
  compound_iff : ∀ {i}, (t.node i).kind = .compound ↔ (t.node i).children ≠ []
  initial_mem : ∀ {i}, (t.node i).kind = .compound →
    ∃ c ∈ (t.node i).children, (t.node i).initial = some c
  initial_leaf : ∀ {i}, (t.node i).kind ≠ .compound → (t.node i).initial = none
  byId_node : ∀ {i}, i < t.nodes.size → t.byId (t.node i).id = some i
  node_byId : ∀ {id n}, t.byId id = some n → n < t.nodes.size ∧ (t.node n).id = id

/-- The shape of a tree that a configuration builds into: well linked, with
every transition target inside the tree and an internal one below its source. -/
structure WellFormed (t : StateTree) : Prop extends t.WellShaped where
  target_lt : ∀ {i trigger c r}, c ∈ (t.node i).candidates trigger → c.target = some r →
    r.node < t.nodes.size
  target_internal : ∀ {i trigger c r}, c ∈ (t.node i).candidates trigger → c.target = some r →
    r.internal = true → t.Above i r.node

/-! ## Descents -/

namespace Descends

theorem append {a b c : Nat} {l l' : List Nat} (h : t.Descends a l b) (h' : t.Descends b l' c) :
    t.Descends a (l ++ l') c := by
  induction h with
  | nil => exact h'
  | cons hc _ ih => exact .cons hc (ih h')

theorem snoc {a b c : Nat} {l : List Nat} (h : t.Descends a l b)
    (hc : c ∈ (t.node b).children) : t.Descends a (l ++ [c]) c :=
  h.append (.cons hc (.nil c))

theorem isChain {a b : Nat} {l : List Nat} (h : t.Descends a l b) :
    (a :: l).IsChain (fun p c => c ∈ (t.node p).children) ∧
      (a :: l).getLast (List.cons_ne_nil a l) = b := by
  induction h with
  | nil a => exact ⟨.singleton a, rfl⟩
  | cons hc _ ih =>
    refine ⟨.cons_cons hc ih.1, ?_⟩
    rw [List.getLast_cons_cons]
    exact ih.2

end Descends

/-! ## Walking up -/

theorem above_of_mem_ancestors_go {x n : Nat} {fuel : Nat}
    (h : x ∈ ancestors.go t (t.node n).parent fuel) : t.Above x n := by
  induction fuel generalizing n with
  | zero => cases hp : (t.node n).parent <;> simp [ancestors.go, hp] at h
  | succ f ih =>
    cases hp : (t.node n).parent with
    | none => simp [ancestors.go, hp] at h
    | some p =>
      rw [hp, ancestors.go, List.mem_cons] at h
      rcases h with rfl | h
      · exact .single hp
      · exact .tail (ih h) hp

theorem above_of_mem_ancestors {x n : Nat} (h : x ∈ t.ancestors n) : t.Above x n :=
  above_of_mem_ancestors_go h

theorem above_of_isAncestor {a n : Nat} (h : t.isAncestor a n = true) : t.Above a n :=
  above_of_mem_ancestors (by simpa [isAncestor] using h)

/-- A node with a proper ancestor has a parent, at or below that ancestor. -/
theorem parent_of_above {a n : Nat} (h : t.Above a n) :
    ∃ p, (t.node n).parent = some p ∧ (a = p ∨ t.Above a p) := by
  cases h with
  | single hp => exact ⟨a, hp, .inl rfl⟩
  | tail ha hp => exact ⟨_, hp, .inr ha⟩

namespace WellShaped

theorem child_lt (hw : t.WellShaped) {p c : Nat} (h : c ∈ (t.node p).children) :
    p < c ∧ c < t.nodes.size :=
  ⟨hw.parent_lt (hw.mem_children.1 h).2, (hw.mem_children.1 h).1⟩

theorem parent_of_child (hw : t.WellShaped) {p c : Nat} (h : c ∈ (t.node p).children) :
    (t.node c).parent = some p :=
  (hw.mem_children.1 h).2

theorem child_of_parent (hw : t.WellShaped) {p c : Nat} (hc : c < t.nodes.size)
    (h : (t.node c).parent = some p) : c ∈ (t.node p).children :=
  hw.mem_children.2 ⟨hc, h⟩

theorem lt_of_above (hw : t.WellShaped) {a n : Nat} (h : t.Above a n) : a < n := by
  induction h with
  | single hp => exact hw.parent_lt hp
  | tail _ hp ih => exact Nat.lt_trans ih (hw.parent_lt hp)

theorem root_above (hw : t.WellShaped) {n : Nat} (hn : n < t.nodes.size) :
    n = root ∨ t.Above root n := by
  induction n using Nat.strongRecOn with
  | ind n ih =>
    by_cases hr : n = root
    · exact .inl hr
    · obtain ⟨p, hp⟩ := hw.has_parent hn hr
      have hpn := hw.parent_lt hp
      right
      rcases ih p hpn (Nat.lt_trans hpn hn) with rfl | ha
      · exact .single hp
      · exact .tail ha hp

theorem not_above_root (hw : t.WellShaped) {a : Nat} : ¬ t.Above a root := by
  intro h
  obtain ⟨p, hp, _⟩ := parent_of_above h
  rw [hw.root_parent] at hp
  cases hp

/-! ## Walking down -/

theorem initial_mem_children (hw : t.WellShaped) {i c : Nat} (h : (t.node i).initial = some c) :
    c ∈ (t.node i).children := by
  by_cases hk : (t.node i).kind = .compound
  · obtain ⟨c', hc', hi⟩ := hw.initial_mem hk
    rw [h, Option.some.injEq] at hi
    exact hi ▸ hc'
  · rw [hw.initial_leaf hk] at h
    cases h

theorem children_eq_nil (hw : t.WellShaped) {i : Nat} (h : (t.node i).initial = none) :
    (t.node i).children = [] := by
  by_cases hne : (t.node i).children = []
  · exact hne
  · obtain ⟨c, _, hc⟩ := hw.initial_mem (hw.compound_iff.2 hne)
    rw [h] at hc
    cases hc

/-- Following initial children from `x` reaches a leaf while the budget lasts:
each step goes to a later index, and there are only so many. -/
theorem descends_initialDescent_go (hw : t.WellShaped) :
    ∀ (fuel x : Nat), x < t.nodes.size → t.nodes.size ≤ x + fuel + 1 →
      ∃ leaf, t.Descends x (initialDescent.go t (t.node x).initial fuel) leaf ∧
        (t.node leaf).children = [] := by
  intro fuel
  induction fuel with
  | zero =>
    intro x hx hfuel
    cases hi : (t.node x).initial with
    | none => exact ⟨x, .nil x, hw.children_eq_nil hi⟩
    | some c =>
      have := hw.child_lt (hw.initial_mem_children hi)
      omega
  | succ f ih =>
    intro x hx hfuel
    cases hi : (t.node x).initial with
    | none => exact ⟨x, .nil x, hw.children_eq_nil hi⟩
    | some c =>
      have hc := hw.initial_mem_children hi
      have hlt := hw.child_lt hc
      obtain ⟨leaf, hd, hleaf⟩ := ih c hlt.2 (by omega)
      exact ⟨leaf, .cons hc hd, hleaf⟩

/-- The initial descent below a node leads down to a leaf. -/
theorem descends_initialDescent (hw : t.WellShaped) {n : Nat} (hn : n < t.nodes.size) :
    ∃ leaf, t.Descends n (t.initialDescent n) leaf ∧ (t.node leaf).children = [] :=
  hw.descends_initialDescent_go _ n hn (by omega)

/-- Collecting parents from `i` up to `a` and reversing descends from `a` to
`i`; each step up lowers the index, within the budget. -/
theorem descends_pathBetween_go (hw : t.WellShaped) {a : Nat} :
    ∀ (fuel i : Nat), i < fuel → i < t.nodes.size → (a = i ∨ t.Above a i) →
      t.Descends a (pathBetween.go t a (some i) fuel).reverse i
  | 0, _, hf, _, _ => absurd hf (Nat.not_lt_zero _)
  | f + 1, i, hf, hi, ha => by
    by_cases hai : i = a
    · subst hai
      simp only [pathBetween.go, beq_self_eq_true, if_true, List.reverse_nil]
      exact .nil i
    · have ha' : t.Above a i := ha.resolve_left (Ne.symm hai)
      obtain ⟨p, hp, hap⟩ := parent_of_above ha'
      have hpi := hw.parent_lt hp
      have ih := descends_pathBetween_go hw f p (by omega) (Nat.lt_trans hpi hi) hap
      simp only [pathBetween.go, beq_iff_eq, hai, if_false, hp, List.reverse_cons]
      exact ih.snoc (hw.child_of_parent hi hp)

/-- The path between a node and one at or below it descends from the first to
the second. -/
theorem descends_pathBetween (hw : t.WellShaped) {a n : Nat} (hn : n < t.nodes.size)
    (ha : a = n ∨ t.Above a n) : t.Descends a (t.pathBetween a n) n :=
  hw.descends_pathBetween_go _ n (by omega) hn ha

/-- The domain of a transition is its target or lies above it. -/
theorem domain_above (hw : t.WellShaped) (s : Nat) {r : Nat} (hr : r < t.nodes.size) :
    t.domain s r = r ∨ t.Above (t.domain s r) r := by
  unfold domain
  cases hf : (t.ancestors s).find? (fun a => t.isAncestor a r) with
  | some a =>
    have ha := List.find?_some hf
    rw [Option.getD_some]
    exact .inr (above_of_isAncestor ha)
  | none =>
    rcases hw.root_above hr with h | h
    · exact .inl h.symm
    · exact .inr h

/-! ## Resolving targets -/

theorem mem_children_of_childByKey {p c : Nat} {k : String} (h : t.childByKey p k = some c) :
    c ∈ (t.node p).children :=
  List.mem_of_find?_eq_some h

/-- Following keys down from a node of the tree stays inside the tree, at or
below the node. -/
theorem descend_below (hw : t.WellShaped) :
    ∀ {keys : List String} {start n : Nat}, t.descend start keys = some n →
      start < t.nodes.size → n < t.nodes.size ∧ (start = n ∨ t.Above start n)
  | [], start, n, h, hs => by
    simp only [descend, List.foldlM_nil, Option.pure_def, Option.some.injEq] at h
    exact ⟨h ▸ hs, .inl h⟩
  | k :: ks, start, n, h, _ => by
    simp only [descend, List.foldlM_cons, Option.bind_eq_bind, Option.bind_eq_some_iff] at h
    obtain ⟨c, hc, hrest⟩ := h
    have hmem := mem_children_of_childByKey hc
    have hcp := hw.parent_of_child hmem
    obtain ⟨hn, hcn⟩ := descend_below hw hrest (hw.child_lt hmem).2
    refine ⟨hn, .inr ?_⟩
    rcases hcn with rfl | hcn
    · exact .single hcp
    · exact Relation.TransGen.head hcp hcn

/-- A target resolved from a node of the tree is a node of the tree, and an
internal one lies below its source. -/
theorem resolve_some (hw : t.WellShaped) {s : Nat} {text : String} {r : Resolved}
    (h : t.resolve s text = some r) (hs : s < t.nodes.size) :
    r.node < t.nodes.size ∧ (r.internal = true → t.Above s r.node) := by
  unfold resolve at h
  split at h
  · -- `#id.rest`: an id names a node, and keys descend from it
    obtain ⟨n, hn, rfl⟩ := Option.map_eq_some_iff.1 h
    obtain ⟨i, -, hi⟩ := List.exists_of_findSome?_eq_some hn
    obtain ⟨base, hbase, hd⟩ := Option.bind_eq_some_iff.1 hi
    exact ⟨(hw.descend_below hd (hw.node_byId hbase).1).1, nofun⟩
  · -- `.rest`: keys descend from the source itself, which is not the target
    split at h
    next n hd =>
      split at h
      next => cases h
      next hns =>
        cases h
        obtain ⟨hn, hbelow⟩ := hw.descend_below hd hs
        refine ⟨hn, fun _ => hbelow.resolve_left fun he => ?_⟩
        simp [he] at hns
    next => cases h
  · -- a sibling: keys descend from the source's parent, or the root's from itself
    obtain ⟨n, hn, rfl⟩ := Option.map_eq_some_iff.1 h
    have hbase : ((t.node s).parent.getD s) < t.nodes.size := by
      cases hp : (t.node s).parent with
      | none => exact hs
      | some p => exact Nat.lt_trans (hw.parent_lt hp) hs
    exact ⟨(hw.descend_below hn hbase).1, nofun⟩

end WellShaped

end StateTree

end Statechart
