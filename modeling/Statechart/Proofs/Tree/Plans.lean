import Mathlib
import Statechart.Proofs.Tree.Ancestry
import Statechart.Proofs.Machine.Built
/-!
# The shape of a transition plan

A plan with a target keeps the active states down to the transition's domain
and replaces everything below it: on a chain from the root to a leaf it leaves
the states strictly below the domain, innermost first, and enters the path down
to the target and its initial descent, outermost first. The domain is the
source for an internal target, and otherwise the deepest node above both source
and target, or the root when one of them is the root. So an internal
transition never leaves its source, a self-transition of any other state leaves
and re-enters it, and the root is never left (`MachineBuilder.plan_shape`).
-/
namespace Statechart

namespace StateTree

variable {t : StateTree}

/-! ## Descents, split and ordered -/

namespace Descends

theorem split {a b : Nat} : ∀ {l₁ l₂ : List Nat}, t.Descends a (l₁ ++ l₂) b →
    ∃ m, t.Descends a l₁ m ∧ t.Descends m l₂ b
  | [], _, h => ⟨a, .nil a, h⟩
  | _ :: _, _, .cons hx hrest =>
    let ⟨m, h₁, h₂⟩ := split hrest
    ⟨m, .cons hx h₁, h₂⟩

theorem end_eq {a b b' : Nat} {l : List Nat} (h : t.Descends a l b) (h' : t.Descends a l b') :
    b = b' :=
  h.isChain.2.symm.trans h'.isChain.2

theorem above_of_mem (hw : t.WellShaped) {a b x : Nat} {l : List Nat} (h : t.Descends a l b)
    (hx : x ∈ l) : t.Above a x := by
  induction h with
  | nil => cases hx
  | cons hc _ ih =>
    rcases List.mem_cons.1 hx with rfl | hx
    · exact .single (hw.parent_of_child hc)
    · exact Relation.TransGen.head (hw.parent_of_child hc) (ih hx)

theorem le_of_mem (hw : t.WellShaped) {a b x : Nat} {l : List Nat} (h : t.Descends a l b)
    (hx : x ∈ a :: l) : x ≤ b := by
  induction h generalizing x with
  | nil => rw [List.mem_singleton.1 hx]
  | cons hc _ ih =>
    rcases List.mem_cons.1 hx with rfl | hx
    · exact Nat.le_of_lt (Nat.lt_of_lt_of_le (hw.child_lt hc).1 (ih List.mem_cons_self))
    · exact ih hx

theorem lt_size_of_mem (hw : t.WellShaped) {a b x : Nat} {l : List Nat} (h : t.Descends a l b)
    (hx : x ∈ l) : x < t.nodes.size := by
  induction h with
  | nil => cases hx
  | cons hc _ ih =>
    rcases List.mem_cons.1 hx with rfl | hx
    · exact (hw.child_lt hc).2
    · exact ih hx

theorem mem_of_ne {a b : Nat} {l : List Nat} (h : t.Descends a l b) (hne : a ≠ b) : b ∈ l := by
  induction h with
  | nil => exact absurd rfl hne
  | @cons a c b l _ _ ih =>
    by_cases hcb : c = b
    · exact hcb ▸ List.mem_cons_self
    · exact List.mem_cons_of_mem _ (ih hcb)

end Descends

namespace WellShaped

/-- On a descent from `a`, the nodes strictly below `a` are the ones after it. -/
theorem filter_isAncestor_descends (hw : t.WellShaped) {a b : Nat} {l : List Nat}
    (h : t.Descends a l b) : l.filter (t.isAncestor a) = l :=
  List.filter_eq_self.2 fun _ hx =>
    (hw.isAncestor_iff (h.lt_size_of_mem hw hx)).2 (h.above_of_mem hw hx)

theorem filter_isAncestor_upto (hw : t.WellShaped) {a b : Nat} {l : List Nat}
    (h : t.Descends a l b) : (a :: l).filter (t.isAncestor b) = [] :=
  List.filter_eq_nil_iff.2 fun _ hx hanc =>
    absurd (h.le_of_mem hw hx) (Nat.not_le.2 (hw.lt_of_above (above_of_isAncestor hanc)))

end WellShaped

/-! ## Chains cut at a node -/

/-- A chain cut after one of its nodes `d`: what follows descends from `d`. -/
theorem RootToLeaf.descends_drop {c : List Nat} (hc : t.RootToLeaf c) {i d : Nat} {l : List Nat}
    (htake : c.take (i + 1) = root :: l) (hd : t.Descends root l d) :
    ∃ leaf, t.Descends d (c.drop (i + 1)) leaf := by
  obtain ⟨L, leaf, rfl, hL, -⟩ := hc.descends
  rw [List.take_succ_cons, List.cons.injEq] at htake
  rw [List.drop_succ_cons]
  rw [← L.take_append_drop i] at hL
  obtain ⟨m, h₁, h₂⟩ := hL.split
  exact ⟨leaf, (h₁.end_eq (htake.2 ▸ hd)) ▸ h₂⟩

/-- The prefix of a chain that ends at `d`, and everything strictly below `d`. -/
theorem RootToLeaf.filter_below (hw : t.WellShaped) {c : List Nat} (hc : t.RootToLeaf c)
    {i d : Nat} {l : List Nat} (htake : c.take (i + 1) = root :: l) (hd : t.Descends root l d) :
    c.filter (t.isAncestor d) = c.drop (i + 1) := by
  obtain ⟨leaf, hrest⟩ := hc.descends_drop htake hd
  calc c.filter (t.isAncestor d)
      = (c.take (i + 1)).filter (t.isAncestor d) ++ (c.drop (i + 1)).filter (t.isAncestor d) := by
        rw [← List.filter_append, List.take_append_drop]
    _ = c.drop (i + 1) := by
        rw [htake, hw.filter_isAncestor_upto hd, hw.filter_isAncestor_descends hrest, List.nil_append]

/-! ## Plans -/

/-- The plan of a targetless candidate runs the candidate's actions and keeps
the configuration. -/
theorem plan_targetless {c : List Nat} {s : Nat} {trigger : Trigger} {cand : Candidate}
    (ht : cand.target = none) :
    t.plan c s trigger cand =
      { source := (t.node s).id, trigger, exit := [], enter := [], actions := cand.actions,
        target := none, value := t.value c, configuration := c } := by
  simp only [plan, ht]

/-- The plan of a candidate with a target, once the domain's place in the
configuration is known. -/
theorem plan_of_target {c : List Nat} {s : Nat} {trigger : Trigger} {cand : Candidate}
    {r : Resolved} (ht : cand.target = some r) {i : Nat}
    (hi : c.idxOf? (t.transitionDomain s r) = some i) :
    t.plan c s trigger cand =
      { source := (t.node s).id, trigger, exit := t.idsOf (c.drop (i + 1)).reverse,
        enter := t.idsOf (t.pathBetween (t.transitionDomain s r) r.node ++ t.initialDescent r.node),
        actions := ((c.drop (i + 1)).reverse.map fun n => (t.node n).exit).flatten ++ cand.actions ++
          ((t.pathBetween (t.transitionDomain s r) r.node ++ t.initialDescent r.node).map
            fun n => (t.node n).entry).flatten,
        target := some ⟨(t.node r.node).path⟩,
        value := t.value (c.take (i + 1) ++
          (t.pathBetween (t.transitionDomain s r) r.node ++ t.initialDescent r.node)),
        configuration := c.take (i + 1) ++
          (t.pathBetween (t.transitionDomain s r) r.node ++ t.initialDescent r.node) } := by
  have hdom : (if r.internal then s else t.domain s r.node) = t.transitionDomain s r := rfl
  simp only [plan, ht, hdom, hi]

/-- How the plan `p` of a candidate with target `r`, made on the configuration
`c`, replaces what lies below the transition's domain `d`. -/
structure Reshapes (t : StateTree) (c : List Nat) (cand : Candidate) (r : Resolved) (d : Nat)
    (p : Plan) : Prop where
  /-- The states left are the active states strictly below the domain, innermost first. -/
  exit : p.exit = t.idsOf (c.filter (t.isAncestor d)).reverse
  /-- The states entered are those of the new configuration strictly below the
  domain, outermost first, -/
  enter : p.enter = t.idsOf (p.configuration.filter (t.isAncestor d))
  /-- namely the path down to the target, then the target's initial descent. -/
  entered : p.configuration.filter (t.isAncestor d) = t.pathBetween d r.node ++ t.initialDescent r.node
  /-- The old and the new configuration share the prefix that ends at the
  domain; what follows it in either lies strictly below the domain. -/
  shared : ∃ kept, kept.getLast? = some d ∧ c = kept ++ c.filter (t.isAncestor d) ∧
    p.configuration = kept ++ p.configuration.filter (t.isAncestor d)
  /-- The exit actions of the states left, in the order they are left, then the
  candidate's own, then the entry actions of the states entered, in order. -/
  actions : p.actions = ((c.filter (t.isAncestor d)).reverse.map fun n => (t.node n).exit).flatten ++
    cand.actions ++ ((p.configuration.filter (t.isAncestor d)).map fun n => (t.node n).entry).flatten

namespace WellFormed

/-- A candidate of a state of a chain, with a target, replaces what lies below
the transition's domain. -/
theorem reshapes (hw : t.WellFormed) {c : List Nat} (hc : t.RootToLeaf c) {s : Nat} (hs : s ∈ c)
    {trigger : Trigger} {cand : Candidate} (hcand : cand ∈ (t.node s).candidates trigger)
    {r : Resolved} (ht : cand.target = some r) :
    Reshapes t c cand r (t.transitionDomain s r) (t.plan c s trigger cand) := by
  obtain ⟨i, l, hi, htake, hkept, habove⟩ := hw.domain_idxOf hc hs hcand ht
  have hr := hw.target_lt hcand ht
  -- what is entered descends from the domain: down to the target, then on to a leaf
  obtain ⟨leaf, hdown, -⟩ := hw.descends_initialDescent hr
  have hent := (hw.descends_pathBetween hr habove).append hdown
  have hexit := hc.filter_below hw.toWellShaped htake hkept
  have hnew : (c.take (i + 1) ++ (t.pathBetween (t.transitionDomain s r) r.node ++
      t.initialDescent r.node)).filter (t.isAncestor (t.transitionDomain s r)) =
      t.pathBetween (t.transitionDomain s r) r.node ++ t.initialDescent r.node := by
    rw [List.filter_append, htake, hw.filter_isAncestor_upto hkept,
      hw.filter_isAncestor_descends hent, List.nil_append]
  have hlast : (c.take (i + 1)).getLast? = some (t.transitionDomain s r) := by
    rw [htake, List.getLast?_eq_some_getLast (List.cons_ne_nil _ _), hkept.isChain.2]
  rw [plan_of_target ht hi]
  refine ⟨?_, ?_, ?_, ⟨c.take (i + 1), hlast, ?_, ?_⟩, ?_⟩
  · rw [hexit]
  · rw [hnew]
  · exact hnew
  · rw [hexit, List.take_append_drop]
  · rw [hnew]
  · rw [hexit, hnew]

/-- The domain of a transition: the source for an internal target, otherwise the
deepest node above source and target, or the root. -/
theorem transitionDomain_spec (hw : t.WellFormed) {s : Nat} (hs : s < t.nodes.size)
    {trigger : Trigger} {cand : Candidate} (hcand : cand ∈ (t.node s).candidates trigger)
    {r : Resolved} (ht : cand.target = some r) :
    (r.internal = true → t.transitionDomain s r = s ∧ t.Above s r.node) ∧
      (r.internal = false → t.transitionDomain s r = t.domain s r.node ∧
        (s ≠ root → r.node ≠ root →
          t.Above (t.domain s r.node) s ∧ t.Above (t.domain s r.node) r.node ∧
          ∀ y, t.Above y s → t.Above y r.node → y = t.domain s r.node ∨ t.Above y (t.domain s r.node)) ∧
        (s = root ∨ r.node = root → t.domain s r.node = root)) := by
  have hr := hw.target_lt hcand ht
  refine ⟨fun hi => ⟨if_pos hi, hw.target_internal hcand ht hi⟩, fun hi => ⟨if_neg (by simp [hi]),
    fun hs' hr' => hw.domain_deepest hs hr ((hw.exists_common_iff hs hr).2 ⟨hs', hr'⟩), fun hroot => ?_⟩⟩
  refine hw.domain_of_no_common hs hr fun hcommon => ?_
  have := (hw.exists_common_iff hs hr).1 hcommon
  rcases hroot with h | h
  · exact this.1 h
  · exact this.2 h

end WellFormed

end StateTree

namespace MachineBuilder

variable {C E σ : Type}

open StateTree

/-- On any chain of a machine that builds, a targetless plan keeps the
configuration, and a plan with a target replaces exactly what lies below its
domain, which is never left. -/
theorem plan_shape {b : MachineBuilder C E σ} {mach : Machine C E σ} (h : b.build = .ok mach)
    {c : List Nat} (hc : mach.tree.RootToLeaf c) {s : Nat} (hs : s ∈ c) {trigger : Trigger}
    {cand : Candidate} (hcand : cand ∈ (mach.tree.node s).candidates trigger) :
    (cand.target = none → (mach.tree.plan c s trigger cand).exit = [] ∧
      (mach.tree.plan c s trigger cand).enter = [] ∧
      (mach.tree.plan c s trigger cand).actions = cand.actions ∧
      (mach.tree.plan c s trigger cand).configuration = c) ∧
    ∀ r, cand.target = some r →
      ((r.internal = true → mach.tree.transitionDomain s r = s ∧ mach.tree.Above s r.node) ∧
        (r.internal = false → mach.tree.transitionDomain s r = mach.tree.domain s r.node ∧
          (s ≠ root → r.node ≠ root →
            mach.tree.Above (mach.tree.domain s r.node) s ∧
            mach.tree.Above (mach.tree.domain s r.node) r.node ∧
            ∀ y, mach.tree.Above y s → mach.tree.Above y r.node →
              y = mach.tree.domain s r.node ∨ mach.tree.Above y (mach.tree.domain s r.node)) ∧
          (s = root ∨ r.node = root → mach.tree.domain s r.node = root))) ∧
      Reshapes mach.tree c cand r (mach.tree.transitionDomain s r) (mach.tree.plan c s trigger cand) ∧
      (r.internal = true → s ∉ c.filter (mach.tree.isAncestor (mach.tree.transitionDomain s r))) ∧
      (r.internal = false → r.node = s → s ≠ root →
        s ∈ c.filter (mach.tree.isAncestor (mach.tree.transitionDomain s r)) ∧
        s ∈ (mach.tree.plan c s trigger cand).configuration.filter
          (mach.tree.isAncestor (mach.tree.transitionDomain s r))) := by
  have hw := wellFormed_of_build_eq_ok h
  have hsz : s < mach.tree.nodes.size := by
    obtain ⟨l, leaf, rfl, hd, -⟩ := hc.descends
    rcases List.mem_cons.1 hs with rfl | hl
    · exact hw.root_lt
    · exact hd.lt_size_of_mem hw.toWellShaped hl
  refine ⟨fun ht => by simp [plan_targetless ht], fun r ht => ?_⟩
  have hdom := hw.transitionDomain_spec hsz hcand ht
  have hshape := hw.reshapes hc hs hcand ht
  refine ⟨hdom, hshape, fun hi hmem => ?_, fun hi hrs hroot => ?_⟩
  · -- an internal transition's domain is its source, which is not strictly below itself
    rw [(hdom.1 hi).1, List.mem_filter] at hmem
    exact hw.not_above_self s (above_of_isAncestor hmem.2)
  · -- a transition to itself: the domain is strictly above the source, and the
    -- path down from it ends at the source
    have hsd : mach.tree.Above (mach.tree.transitionDomain s r) s := by
      rw [(hdom.2 hi).1]
      exact ((hdom.2 hi).2.1 hroot (hrs ▸ hroot)).1
    have hne : mach.tree.transitionDomain s r ≠ s := fun e => hw.not_above_self s (by rwa [e] at hsd)
    refine ⟨List.mem_filter.2 ⟨hs, (hw.isAncestor_iff hsz).2 hsd⟩, ?_⟩
    have hpath := hw.descends_pathBetween hsz (.inr hsd)
    rw [hshape.entered, hrs]
    exact List.mem_append_left _ (hpath.mem_of_ne hne)

/-- A machine whose root `m`, with one child `a`, declares a transition to
itself on `E`. -/
def rootSelfLoop : MachineBuilder Unit Empty Empty :=
  { config := { root := { id := some "m", initial := some "a", on := [("E", [{ target := some "#m" }])],
                          states := [("a", {})] } },
    context := () }

/-- The root's transition to itself, from the initial configuration, has the
shape `plan_shape` gives. -/
theorem rootSelfLoop_reshapes :
    ∃ mach : Machine Unit Empty Empty, rootSelfLoop.build = .ok mach ∧
      Reshapes mach.tree mach.tree.initialConfiguration ⟨none, [], some ⟨root, false⟩⟩ ⟨root, false⟩
        (mach.tree.transitionDomain root ⟨root, false⟩)
        (mach.tree.plan mach.tree.initialConfiguration root (.event "E") ⟨none, [], some ⟨root, false⟩⟩) := by
  have hrun : rootSelfLoop.build.map (fun mach => (mach.tree.node root).candidates (.event "E")) =
      .ok [⟨none, [], some ⟨root, false⟩⟩] := by cbv
  cases hb : rootSelfLoop.build with
  | ok mach =>
    rw [hb] at hrun
    have hcand : (⟨none, [], some ⟨root, false⟩⟩ : Candidate) ∈ (mach.tree.node root).candidates (.event "E") := by
      simp only [Except.map, Except.ok.injEq] at hrun
      simp [hrun]
    have hc := (wellFormed_of_build_eq_ok hb).rootToLeaf_initialConfiguration
    exact ⟨mach, rfl, ((plan_shape hb hc List.mem_cons_self hcand).2 _ rfl).2.1⟩
  | error e =>
    rw [hb] at hrun
    cases hrun

/-- The root's transition to itself leaves and enters only its child `m.a`. -/
theorem rootSelfLoop_keeps_root :
    ∃ mach : Machine Unit Empty Empty, rootSelfLoop.build = .ok mach ∧
      (mach.tree.node root).candidates (.event "E") = [⟨none, [], some ⟨root, false⟩⟩] ∧
      mach.tree.initialConfiguration = [root, 1] ∧ (mach.tree.node root).id = "m" ∧
      (mach.tree.plan [root, 1] root (.event "E") ⟨none, [], some ⟨root, false⟩⟩).exit = ["m.a"] ∧
      (mach.tree.plan [root, 1] root (.event "E") ⟨none, [], some ⟨root, false⟩⟩).enter = ["m.a"] := by
  have hrun : rootSelfLoop.build.map (fun mach => ((mach.tree.node root).candidates (.event "E"),
      mach.tree.initialConfiguration, (mach.tree.node root).id,
      (mach.tree.plan [root, 1] root (.event "E") ⟨none, [], some ⟨root, false⟩⟩).exit,
      (mach.tree.plan [root, 1] root (.event "E") ⟨none, [], some ⟨root, false⟩⟩).enter)) =
      .ok ([⟨none, [], some ⟨root, false⟩⟩], [root, 1], "m", ["m.a"], ["m.a"]) := by cbv
  cases hb : rootSelfLoop.build with
  | ok mach =>
    rw [hb] at hrun
    simp only [Except.map, Except.ok.injEq, Prod.mk.injEq] at hrun
    exact ⟨mach, rfl, hrun⟩
  | error e =>
    rw [hb] at hrun
    cases hrun

end MachineBuilder

end Statechart
