import Statechart.Proofs.Actor.RegistryTree
/-!
# Children tables in name order

A registry is `NameOrdered` when every table of children lists its names in
strictly increasing order, so that walking a table visits the children in
name order. A fresh registry has one empty table. Registering a child puts its
name where it belongs (`insertByName_pairwise`), and removing a subtree or the
descendants of an actor only drops pairs from tables
(`entry?_removeSubtree_sublist`), so every registry the system builds keeps its
tables in name order.
-/
namespace Statechart

/-- A table in name order. -/
def ByName (t : List (String × ActorId)) : Prop := t.Pairwise fun a b => a.1 < b.1

theorem mem_insertByName {name : String} {id : ActorId} {c : String × ActorId} :
    ∀ {t : List (String × ActorId)}, c ∈ insertByName name id t → c = (name, id) ∨ c ∈ t
  | [], h => .inl (List.mem_singleton.1 h)
  | (n, i) :: rest, h => by
    unfold insertByName at h
    split at h
    · exact List.mem_cons.1 h
    · split at h
      · rcases List.mem_cons.1 h with h | h
        · exact .inl h
        · exact .inr (List.mem_cons_of_mem _ h)
      · rcases List.mem_cons.1 h with rfl | h
        · exact .inr List.mem_cons_self
        · rcases mem_insertByName h with h | h
          · exact .inl h
          · exact .inr (List.mem_cons_of_mem _ h)

/-- Inserting into a table in name order keeps it in name order. -/
theorem insertByName_pairwise {name : String} {id : ActorId} :
    ∀ {t : List (String × ActorId)}, ByName t → ByName (insertByName name id t)
  | [], _ => List.pairwise_singleton _ _
  | (n, i) :: rest, h => by
    obtain ⟨hhead, hrest⟩ := List.pairwise_cons.1 h
    unfold insertByName
    split
    · next hlt =>
      -- the name goes first, before `n` and so before every later name
      refine List.Pairwise.cons (fun c hc => ?_) h
      rcases List.mem_cons.1 hc with rfl | hc
      · exact hlt
      · exact String.lt_trans hlt (hhead c hc)
    · next hge =>
      split
      · next heq =>
        -- the name is `n`'s: its pair takes the place of `n`'s
        rw [beq_iff_eq.1 heq]
        exact List.Pairwise.cons hhead hrest
      · next hne =>
        have hgt : n < name := String.not_le.1 fun hle =>
          hne (beq_iff_eq.2 (String.le_antisymm (String.not_lt.1 hge) hle).symm)
        refine List.Pairwise.cons (fun c hc => ?_) (insertByName_pairwise hrest)
        rcases mem_insertByName hc with rfl | hc
        · exact hgt
        · exact hhead c hc

/-- In a table in name order, a child with a smaller name stands in an earlier
part of the table than one with a larger name. -/
theorem ByName.split_of_lt {t : List (String × ActorId)} (ht : ByName t) {c c' : String × ActorId}
    (hc : c ∈ t) (hc' : c' ∈ t) (hlt : c.1 < c'.1) :
    ∃ t₁ t₂, t = t₁ ++ t₂ ∧ c ∈ t₁ ∧ c' ∈ t₂ := by
  obtain ⟨t₁, t₂, rfl⟩ := List.append_of_mem hc'
  refine ⟨t₁, c' :: t₂, rfl, ?_, List.mem_cons_self⟩
  rcases List.mem_append.1 hc with hc | hc
  · exact hc
  · -- at `c'` or after it, `c` would have a name no smaller than `c'`'s
    rcases List.mem_cons.1 hc with rfl | hc
    · exact absurd hlt (String.lt_irrefl _)
    · have hpw : ByName (c' :: t₂) := (List.pairwise_append.1 ht).2.1
      exact absurd (List.rel_of_pairwise_cons hpw hc) (String.lt_asymm hlt)

namespace Registry

/-- Every table lists its children in strictly increasing name order. -/
def NameOrdered (r : Registry) : Prop :=
  ∀ k e, r.entry? k = some e → ByName e.children

variable {r r' : Registry}

theorem nameOrdered_ofRoot (root : ActorRef) : (ofRoot root).NameOrdered := by
  intro k e h
  rw [entry?_ofRoot] at h
  split at h
  · cases h
    exact List.Pairwise.nil
  · cases h

theorem NameOrdered.register (hn : r.NameOrdered) {parent : ActorId} {child : ActorRef}
    (h : r.register parent child = .ok r') : r'.NameOrdered := by
  obtain ⟨pe, -, -, rfl⟩ := register_eq h
  intro k e hk
  rw [entry?_append] at hk
  change (Registry.entry? (r.modifyEntry parent _) k).or _ = some e at hk
  cases hm : Registry.entry? (r.modifyEntry parent fun e =>
      { e with children := insertByName child.name child.id e.children }) k with
  | some e' =>
    -- an old entry, the parent's with the child's name inserted
    rw [hm, Option.some_or] at hk
    cases hk
    rw [entry?_modifyEntry] at hm
    split at hm
    · obtain ⟨e₀, he₀, rfl⟩ := Option.map_eq_some_iff.1 hm
      exact insertByName_pairwise (hn k e₀ he₀)
    · exact hn k _ hm
  | none =>
    -- the child's new entry, with an empty table
    rw [hm, Option.none_or] at hk
    split at hk
    · cases hk
      exact List.Pairwise.nil
    · cases hk

theorem NameOrdered.removeSubtree (hn : r.NameOrdered) (id : ActorId) :
    (r.removeSubtree id).1.NameOrdered := by
  intro k e' he'
  obtain ⟨e, he, -, hsub⟩ := entry?_removeSubtree_sublist r id k he'
  exact List.Pairwise.sublist hsub (hn k e he)

theorem NameOrdered.removeStep_foldl :
    ∀ (kids : List (String × ActorId)) {r : Registry} (acc : List ActorRef), r.NameOrdered →
      (kids.foldl removeStep (r, acc)).1.NameOrdered
  | [], _, _, hn => hn
  | kid :: kids, _, acc, hn => by
    rw [List.foldl_cons, removeStep_eq]
    exact NameOrdered.removeStep_foldl kids _ (hn.removeSubtree kid.2)

theorem NameOrdered.removeDescendants (hn : r.NameOrdered) (id : ActorId) :
    (r.removeDescendants id).1.NameOrdered := by
  rw [removeDescendants_eq]
  exact NameOrdered.removeStep_foldl _ [] hn

end Registry

end Statechart
