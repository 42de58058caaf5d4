import Statechart.Proofs.Tree.Chains
/-!
# Ancestors and the domain of a transition

In a well-shaped tree the walk up from a node (`ancestors`) lists exactly its
proper ancestors, nearest first: the walk's budget, the number of nodes, is
never the reason it stops, since every step up lowers the index. So
`isAncestor` decides `Above`.

The domain of a transition from `s` to `r` takes the first ancestor of `s` on
that walk that is also above `r`. Ancestors of one node lie on one line, so the
first one found is the deepest node above both (`domain_deepest`); when no node
is above both, which happens exactly when one of them is the root, the domain
is the root.
-/
namespace Statechart

namespace StateTree

variable {t : StateTree}

namespace WellShaped

/-- Walking up from a node lists every proper ancestor, while the budget
covers the node's index. -/
theorem mem_ancestors_go (hw : t.WellShaped) {x : Nat} :
    ∀ (fuel n : Nat), n ≤ fuel → t.Above x n → x ∈ ancestors.go t (t.node n).parent fuel
  | 0, n, hn, h => absurd (hw.lt_of_above h) (by omega)
  | fuel + 1, n, hn, h => by
    obtain ⟨p, hp, hxp⟩ := parent_of_above h
    have hpn := hw.parent_lt hp
    rw [hp, ancestors.go, List.mem_cons]
    rcases hxp with rfl | hxp
    · exact .inl rfl
    · exact .inr (mem_ancestors_go hw fuel p (by omega) hxp)

theorem mem_ancestors_iff (hw : t.WellShaped) {x n : Nat} (hn : n < t.nodes.size) :
    x ∈ t.ancestors n ↔ t.Above x n :=
  ⟨above_of_mem_ancestors, hw.mem_ancestors_go _ n (Nat.le_of_lt hn)⟩

/-- `isAncestor` decides whether a node is a proper ancestor. -/
theorem isAncestor_iff (hw : t.WellShaped) {a n : Nat} (hn : n < t.nodes.size) :
    t.isAncestor a n = true ↔ t.Above a n := by
  rw [isAncestor, List.contains_iff_mem, hw.mem_ancestors_iff hn]

theorem not_above_self (hw : t.WellShaped) (n : Nat) : ¬ t.Above n n :=
  fun h => Nat.lt_irrefl n (hw.lt_of_above h)

/-- The first node on the walk up from `p` that is above `r` is below every other such node. -/
theorem find?_ancestors_go (hw : t.WellShaped) {r : Nat} (hr : r < t.nodes.size) :
    ∀ (fuel p : Nat) {a : Nat},
      (ancestors.go t (some p) (fuel + 1)).find? (fun a => t.isAncestor a r) = some a →
      t.Above a r ∧ (a = p ∨ t.Above a p) ∧
        ∀ y, (y = p ∨ t.Above y p) → t.Above y r → y = a ∨ t.Above y a
  | fuel, p, a, h => by
    rw [ancestors.go, List.find?_cons] at h
    split at h
    next hanc =>
      cases h
      refine ⟨(hw.isAncestor_iff hr).1 hanc, .inl rfl, fun y hy _ => ?_⟩
      rcases hy with rfl | hy
      · exact .inl rfl
      · exact .inr hy
    next hanc =>
      -- `p` is not above `r`: the answer comes from the walk above `p`
      have hpr : ¬ t.Above p r := fun h' => by simp [(hw.isAncestor_iff hr).2 h'] at hanc
      cases fuel with
      | zero => cases hq : (t.node p).parent <;> simp [hq, ancestors.go] at h
      | succ fuel =>
        cases hq : (t.node p).parent with
        | none => simp [hq, ancestors.go] at h
        | some q =>
          rw [hq] at h
          obtain ⟨har, haq, hdeep⟩ := find?_ancestors_go hw hr fuel q h
          refine ⟨har, .inr ?_, fun y hy hyr => ?_⟩
          · rcases haq with rfl | haq
            · exact .single hq
            · exact .tail haq hq
          · rcases hy with rfl | hy
            · exact absurd hyr hpr
            · obtain ⟨q', hq', hyq⟩ := parent_of_above hy
              rw [hq, Option.some.injEq] at hq'
              subst hq'
              exact hdeep y hyq hyr

/-- When some node is above both the source and the target, the domain is the
deepest such node: above both, and below every other node above both. -/
theorem domain_deepest (hw : t.WellShaped) {s r : Nat} (hs : s < t.nodes.size)
    (hr : r < t.nodes.size) (h : ∃ a, t.Above a s ∧ t.Above a r) :
    t.Above (t.domain s r) s ∧ t.Above (t.domain s r) r ∧
      ∀ y, t.Above y s → t.Above y r → y = t.domain s r ∨ t.Above y (t.domain s r) := by
  obtain ⟨a₀, has, har⟩ := h
  obtain ⟨p, hp, -⟩ := parent_of_above has
  have hps := hw.parent_lt hp
  -- a node above `s` is its parent or above it
  have hup : ∀ y, t.Above y s ↔ y = p ∨ t.Above y p := fun y =>
    ⟨fun hy => by
      obtain ⟨q, hq, hyq⟩ := parent_of_above hy
      rw [hp, Option.some.injEq] at hq
      exact hq ▸ hyq,
     fun hy => hy.elim (fun e => e ▸ .single hp) (fun hy => .tail hy hp)⟩
  have hsize : t.nodes.size = (t.nodes.size - 1) + 1 := by omega
  obtain ⟨a, hfind⟩ : ∃ a, (t.ancestors s).find? (fun a => t.isAncestor a r) = some a := by
    refine Option.isSome_iff_exists.1 (List.find?_isSome.2 ⟨a₀, ?_, ?_⟩)
    · exact (hw.mem_ancestors_iff hs).2 has
    · exact (hw.isAncestor_iff hr).2 har
  have hdom : t.domain s r = a := by rw [domain, hfind, Option.getD_some]
  rw [ancestors, hp, hsize] at hfind
  obtain ⟨har', hap, hdeep⟩ := hw.find?_ancestors_go hr _ p hfind
  rw [hdom]
  exact ⟨(hup a).2 hap, har', fun y hys hyr => hdeep y ((hup y).1 hys) hyr⟩

/-- When no node is above both the source and the target, the domain is the root. -/
theorem domain_of_no_common (hw : t.WellShaped) {s r : Nat} (hs : s < t.nodes.size)
    (hr : r < t.nodes.size) (h : ¬ ∃ a, t.Above a s ∧ t.Above a r) : t.domain s r = root := by
  have hnone : (t.ancestors s).find? (fun a => t.isAncestor a r) = none := by
    rw [List.find?_eq_none]
    intro a ha har
    exact h ⟨a, (hw.mem_ancestors_iff hs).1 ha, (hw.isAncestor_iff hr).1 har⟩
  rw [domain, hnone, Option.getD_none]

/-- Two nodes of the tree have a common proper ancestor exactly when neither is
the root. -/
theorem exists_common_iff (hw : t.WellShaped) {s r : Nat} (hs : s < t.nodes.size)
    (hr : r < t.nodes.size) : (∃ a, t.Above a s ∧ t.Above a r) ↔ s ≠ root ∧ r ≠ root := by
  constructor
  · rintro ⟨a, has, har⟩
    exact ⟨fun e => hw.not_above_root (e ▸ has), fun e => hw.not_above_root (e ▸ har)⟩
  · rintro ⟨hs', hr'⟩
    exact ⟨root, (hw.root_above hs).resolve_left hs', (hw.root_above hr).resolve_left hr'⟩

end WellShaped

end StateTree

end Statechart
