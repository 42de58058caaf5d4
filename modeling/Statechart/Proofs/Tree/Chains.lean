import Statechart.Proofs.Tree.WellFormed
import Statechart.Machine.Plan
/-!
# Configurations are root-to-leaf chains

An active configuration runs from the root, each state a child of the one
before, to a leaf (`RootToLeaf`). A plan glues its configuration from the
active states down to the transition's domain, the path from the domain to the
target and the target's initial descent; each piece is a descent, and descents
compose, so a plan picked on a chain adopts a chain
(`WellFormed.rootToLeaf_select`).
-/
namespace Statechart

namespace StateTree

variable {t : StateTree}

/-- A configuration the machine can be in: it starts at the root, each later
node is a child of the one before it, and its last node has no children. -/
structure RootToLeaf (t : StateTree) (c : List Nat) : Prop where
  head : c.head? = some root
  links : c.IsChain fun p n => n ∈ (t.node p).children
  leaf : ∀ l ∈ c.getLast?, (t.node l).children = []

theorem descends_of_isChain :
    ∀ {a : Nat} {l : List Nat}, (a :: l).IsChain (fun p n => n ∈ (t.node p).children) →
      t.Descends a l ((a :: l).getLast (List.cons_ne_nil a l))
  | a, [], _ => .nil a
  | _, b :: l, h => by
    rw [List.isChain_cons_cons] at h
    rw [List.getLast_cons_cons]
    exact .cons h.1 (descends_of_isChain h.2)

theorem rootToLeaf_of_descends {l : List Nat} {leaf : Nat} (h : t.Descends root l leaf)
    (hleaf : (t.node leaf).children = []) : t.RootToLeaf (root :: l) := by
  obtain ⟨hchain, hlast⟩ := h.isChain
  refine ⟨rfl, hchain, fun x hx => ?_⟩
  rw [List.getLast?_eq_some_getLast (List.cons_ne_nil _ _), hlast, Option.mem_def,
    Option.some.injEq] at hx
  exact hx ▸ hleaf

/-- Every root-to-leaf chain is a descent from the root to a leaf. -/
theorem RootToLeaf.descends {c : List Nat} (h : t.RootToLeaf c) :
    ∃ l leaf, c = root :: l ∧ t.Descends root l leaf ∧ (t.node leaf).children = [] := by
  obtain ⟨hhead, hchain, hleaf⟩ := h
  match c, hhead with
  | _ :: l, rfl =>
    refine ⟨l, _, rfl, descends_of_isChain hchain, hleaf _ ?_⟩
    rw [List.getLast?_eq_some_getLast (List.cons_ne_nil _ _)]
    rfl

/-! ## What a chain holds -/

theorem Descends.parent_mem (hw : t.WellShaped) {a b : Nat} {l : List Nat}
    (h : t.Descends a l b) {x p : Nat} (hx : x ∈ l) (hp : (t.node x).parent = some p) :
    p ∈ a :: l := by
  induction h with
  | nil => cases hx
  | cons hc _ ih =>
    rcases List.mem_cons.1 hx with rfl | hx
    · rw [hw.parent_of_child hc, Option.some.injEq] at hp
      exact hp ▸ List.mem_cons_self
    · exact List.mem_cons_of_mem _ (ih hx)

/-- A chain holds every ancestor of each of its nodes. -/
theorem RootToLeaf.mem_of_above (hw : t.WellShaped) {c : List Nat} (hc : t.RootToLeaf c)
    {x y : Nat} (hx : x ∈ c) (hy : t.Above y x) : y ∈ c := by
  obtain ⟨l, leaf, rfl, hd, -⟩ := hc.descends
  -- one step up stays on the chain: the root has no parent, any other node's
  -- parent stands before it
  have step : ∀ {x p}, x ∈ root :: l → (t.node x).parent = some p → p ∈ root :: l := by
    intro x p hx hp
    rcases List.mem_cons.1 hx with rfl | hx
    · rw [hw.root_parent] at hp
      cases hp
    · exact hd.parent_mem hw hx hp
  induction hy with
  | single hp => exact step hx hp
  | tail _ hp ih => exact ih (step hx hp)

/-- The prefix of a descent up to one of its nodes: the node's first index,
and a descent to it. -/
theorem Descends.idxOf {a b : Nat} {l : List Nat} (h : t.Descends a l b) {x : Nat}
    (hx : x ∈ a :: l) : ∃ i, (a :: l).idxOf? x = some i ∧ t.Descends a (l.take i) x := by
  induction h with
  | nil a =>
    rw [List.mem_singleton.1 hx]
    exact ⟨0, by simp, .nil a⟩
  | @cons a c b l hc _ ih =>
    by_cases hxa : a = x
    · subst hxa
      exact ⟨0, by simp [List.idxOf?_cons], .nil a⟩
    · obtain ⟨i, hi, hd⟩ := ih ((List.mem_cons.1 hx).resolve_left (Ne.symm hxa))
      refine ⟨i + 1, ?_, .cons hc hd⟩
      simp [List.idxOf?_cons, hxa, hi]

/-! ## Plans -/

/-- The domain of a transition from `s` to `r`: the source itself for an
internal target, else the nearest ancestor of the source above the target. -/
def transitionDomain (t : StateTree) (s : Nat) (r : Resolved) : Nat :=
  if r.internal then s else t.domain s r.node

/-- The domain of a transition from a node of a chain lies on the chain. -/
theorem WellShaped.domain_mem (hw : t.WellShaped) {c : List Nat} (hc : t.RootToLeaf c) {s : Nat}
    (hs : s ∈ c) (r : Nat) : t.domain s r ∈ c := by
  unfold domain
  cases hf : (t.ancestors s).find? (fun a => t.isAncestor a r) with
  | some a =>
    rw [Option.getD_some]
    exact hc.mem_of_above hw hs (above_of_mem_ancestors (List.mem_of_find?_eq_some hf))
  | none =>
    obtain ⟨l, _, rfl, -, -⟩ := hc.descends
    exact List.mem_cons_self

namespace WellFormed

/-- For a candidate of a node of a chain, the domain occurs in the configuration
and the target is at or below it. -/
theorem domain_idxOf (hw : t.WellFormed) {c : List Nat} (hc : t.RootToLeaf c) {s : Nat}
    (hs : s ∈ c) {trigger : Trigger} {cand : Candidate}
    (hcand : cand ∈ (t.node s).candidates trigger) {r : Resolved} (ht : cand.target = some r) :
    ∃ i l, c.idxOf? (t.transitionDomain s r) = some i ∧ c.take (i + 1) = root :: l ∧
      t.Descends root l (t.transitionDomain s r) ∧
      (t.transitionDomain s r = r.node ∨ t.Above (t.transitionDomain s r) r.node) := by
  have hd : t.transitionDomain s r ∈ c ∧
      (t.transitionDomain s r = r.node ∨ t.Above (t.transitionDomain s r) r.node) := by
    unfold transitionDomain
    by_cases hi : r.internal = true
    · rw [if_pos hi]
      exact ⟨hs, .inr (hw.target_internal hcand ht hi)⟩
    · rw [if_neg hi]
      exact ⟨hw.domain_mem hc hs r.node, hw.domain_above s (hw.target_lt hcand ht)⟩
  obtain ⟨l, _, rfl, hdesc, -⟩ := hc.descends
  obtain ⟨i, hi, hprefix⟩ := hdesc.idxOf hd.1
  exact ⟨i, l.take i, hi, List.take_succ_cons, hprefix, hd.2⟩

/-- The plan of a candidate of a node of a chain adopts a chain again. -/
theorem rootToLeaf_plan (hw : t.WellFormed) {c : List Nat} (hc : t.RootToLeaf c) {s : Nat}
    (hs : s ∈ c) {trigger : Trigger} {cand : Candidate}
    (hcand : cand ∈ (t.node s).candidates trigger) :
    t.RootToLeaf (t.plan c s trigger cand).configuration := by
  cases ht : cand.target with
  | none => simpa [plan, ht] using hc
  | some r =>
    obtain ⟨i, l, hi, htake, hkept, habove⟩ := hw.domain_idxOf hc hs hcand ht
    have hr := hw.target_lt hcand ht
    have hpath := hw.descends_pathBetween hr habove
    obtain ⟨leaf, hdown, hleaf⟩ := hw.descends_initialDescent hr
    have hdom : (if r.internal then s else t.domain s r.node) = t.transitionDomain s r := rfl
    simp only [plan, ht, hdom, hi, htake, List.cons_append]
    exact rootToLeaf_of_descends (hkept.append (hpath.append hdown)) hleaf

end WellFormed

theorem mem_of_firstEnabled {C E : Type} {guards : String → Option (Guard C E)} {context : C}
    {event : Option E} {state : String} :
    ∀ {cs : List Candidate} {checks : List GuardCheck} {cand : Candidate},
      (firstEnabled guards context event state cs checks).2 = .ok (some cand) → cand ∈ cs
  | [], _, _, h => by simp [firstEnabled] at h
  | c :: cs, checks, cand, h => by
    simp only [firstEnabled] at h
    split at h
    · simp only [Except.ok.injEq, Option.some.injEq] at h
      exact h ▸ List.mem_cons_self
    · split at h
      · cases h
      · split at h
        · simp only [Except.ok.injEq, Option.some.injEq] at h
          exact h ▸ List.mem_cons_self
        · exact List.mem_cons_of_mem _ (mem_of_firstEnabled h)

/-- Resolution picks the plan of a candidate of one of the active states. -/
theorem select_plan {C E : Type} {guards : String → Option (Guard C E)} {c : List Nat}
    {context : C} {event : Option E} {trigger : Trigger} {p : Plan}
    (h : (t.select guards c context event trigger).2 = .ok (some p)) :
    ∃ s ∈ c, ∃ cand ∈ (t.node s).candidates trigger, p = t.plan c s trigger cand := by
  -- the search walks the active states from the leaf up
  have go : ∀ (ns : List Nat) (checks : List GuardCheck),
      (select.go t guards c context event trigger ns checks).2 = .ok (some p) →
        ∃ s ∈ ns, ∃ cand ∈ (t.node s).candidates trigger, p = t.plan c s trigger cand := by
    intro ns
    induction ns with
    | nil => intro checks h; simp [select.go] at h
    | cons n ns ih =>
      intro checks h
      simp only [select.go] at h
      split at h
      · cases h
      next checks' cand hfirst =>
        simp only [Except.ok.injEq, Option.some.injEq] at h
        have hmem := mem_of_firstEnabled (congrArg Prod.snd hfirst)
        exact ⟨n, List.mem_cons_self, cand, hmem, h.symm⟩
      · obtain ⟨s, hs, rest⟩ := ih _ h
        exact ⟨s, List.mem_cons_of_mem _ hs, rest⟩
  obtain ⟨s, hs, rest⟩ := go c.reverse [] h
  exact ⟨s, List.mem_reverse.1 hs, rest⟩

/-- A plan that resolution picks on a chain adopts a chain, for any guards,
context and event. -/
theorem WellFormed.rootToLeaf_select (hw : t.WellFormed) {C E : Type}
    {guards : String → Option (Guard C E)} {c : List Nat} (hc : t.RootToLeaf c) {context : C}
    {event : Option E} {trigger : Trigger}
    {p : Plan} (h : (t.select guards c context event trigger).2 = .ok (some p)) :
    t.RootToLeaf p.configuration := by
  obtain ⟨s, hs, cand, hcand, rfl⟩ := select_plan h
  exact hw.rootToLeaf_plan hc hs hcand

namespace WellShaped

theorem rootToLeaf_initialConfiguration (hw : t.WellShaped) :
    t.RootToLeaf t.initialConfiguration := by
  obtain ⟨leaf, hd, hleaf⟩ := hw.descends_initialDescent hw.root_lt
  exact rootToLeaf_of_descends hd hleaf

/-- The configuration a path of keys names from a node descends from it to a leaf. -/
theorem descends_configurationFor_go (hw : t.WellShaped) :
    ∀ {path : List String} {current : Nat} {l : List Nat},
      configurationFor.go t current path = some l → current < t.nodes.size →
        ∃ l' leaf, l = current :: l' ∧ t.Descends current l' leaf ∧ (t.node leaf).children = []
  | [], current, l, h, hc => by
    simp only [configurationFor.go, Option.some.injEq] at h
    obtain ⟨leaf, hd, hleaf⟩ := hw.descends_initialDescent hc
    exact ⟨_, leaf, h.symm, hd, hleaf⟩
  | k :: ks, current, l, h, _ => by
    simp only [configurationFor.go, Option.bind_eq_some_iff, Option.map_eq_some_iff] at h
    obtain ⟨c, hc, l₀, hrest, rfl⟩ := h
    have hmem := mem_children_of_childByKey hc
    obtain ⟨l', leaf, rfl, hd, hleaf⟩ := descends_configurationFor_go hw hrest (hw.child_lt hmem).2
    exact ⟨c :: l', leaf, rfl, .cons hmem hd, hleaf⟩

theorem rootToLeaf_configurationFor (hw : t.WellShaped) {v : StateValue} {c : List Nat}
    (h : t.configurationFor v = some c) : t.RootToLeaf c := by
  obtain ⟨l, leaf, rfl, hd, hleaf⟩ := hw.descends_configurationFor_go h hw.root_lt
  exact rootToLeaf_of_descends hd hleaf

end WellShaped

end StateTree

end Statechart
