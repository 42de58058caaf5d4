import Mathlib.Data.Finset.Card
import Statechart.Proofs.Actor.Registry
/-!
# The registry is a tree

The live actors of a system form a tree rooted at the interpreter's root
(`Tree`): every actor but the root is listed under its name in its parent's
table, names are unique in each table, and every actor is finitely many steps
below the root (`Depth`). Registering a child under a fresh id, removing a
subtree and removing the root's descendants keep the tree, and removing a
subtree removes exactly the live actors below it (`mem_removeSubtree`).
-/
namespace Statechart

namespace Registry

/-- `d` counts the steps down from the root: an actor is one deeper than its parent. -/
def Depth (root : ActorRef) (r : Registry) (d : ActorId → Nat) : Prop :=
  d root.id = 0 ∧ ∀ k e p, r.entry? k = some e → e.parent = some p → d k = d p + 1

/-- The registry is a tree of live actors rooted at `root`. -/
structure Tree (root : ActorRef) (r : Registry) : Prop where
  keyed : r.Keyed
  nodup : (r.entries.map (·.1)).Nodup
  rooted : ∃ e, r.entry? root.id = some e ∧ e.actor = root ∧ e.parent = none
  up : ∀ k e, r.entry? k = some e → k ≠ root.id →
    ∃ p pe, e.parent = some p ∧ r.entry? p = some pe ∧ (e.actor.name, k) ∈ pe.children
  down : ∀ k e, r.entry? k = some e → ∀ c ∈ e.children,
    ∃ ce, r.entry? c.2 = some ce ∧ ce.parent = some k ∧ ce.actor.name = c.1
  names : ∀ k e, r.entry? k = some e → (e.children.map (·.1)).Nodup
  depth : ∃ d, Depth root r d

theorem entry?_ofRoot (root : ActorRef) (k : ActorId) :
    Registry.entry? (ofRoot root) k = if root.id = k then some { actor := root, parent := none } else none := by
  simp [ofRoot, entry?, entry?.lookupId]

theorem tree_ofRoot (root : ActorRef) : (ofRoot root).Tree root where
  keyed := keyed_ofRoot root
  nodup := by simp [ofRoot]
  rooted := ⟨{ actor := root, parent := none }, by simp [entry?_ofRoot], rfl, rfl⟩
  up k e h hk := by
    rw [entry?_ofRoot] at h
    split at h
    · exact absurd (by assumption : root.id = k).symm hk
    · cases h
  down k e h c hc := by
    rw [entry?_ofRoot] at h
    split at h
    · cases h
      cases hc
    · cases h
  names k e h := by
    rw [entry?_ofRoot] at h
    split at h
    · cases h
      exact List.nodup_nil
    · cases h
  depth := ⟨fun _ => 0, rfl, fun k e p h hp => by
    rw [entry?_ofRoot] at h
    split at h
    · cases h
      cases hp
    · cases h⟩

/-! ## Subtrees -/

/-- `k` lies in the subtree of `a`, following the children tables down from `a`. -/
inductive Below (r : Registry) : ActorId → ActorId → Prop
  | self (a : ActorId) : Below r a a
  | step {a k : ActorId} {e : RegistryEntry} (c : String × ActorId) :
      r.entry? a = some e → c ∈ e.children → Below r c.2 k → Below r a k

theorem mem_postOrder {r : Registry} {fuel : Nat} {id : ActorId} {e : RegistryEntry}
    (h : r.entry? id = some e) (x : ActorRef) :
    x ∈ r.postOrder (fuel + 1) id ↔ x = e.actor ∨ ∃ c ∈ e.children, x ∈ r.postOrder fuel c.2 := by
  simp [postOrder, h, or_comm]

/-- What the post-order walk finds lies below where it starts. -/
theorem below_of_mem_postOrder {r : Registry} : ∀ {fuel : Nat} {id : ActorId} {x : ActorRef},
    x ∈ r.postOrder fuel id → ∃ k e, Below r id k ∧ r.entry? k = some e ∧ e.actor = x
  | 0, _, _, h => by simp [postOrder] at h
  | fuel + 1, id, x, h => by
    cases he : r.entry? id with
    | none => simp [postOrder, he] at h
    | some e =>
      rcases (mem_postOrder he x).1 h with rfl | ⟨c, hc, hx⟩
      · exact ⟨id, e, .self id, he, rfl⟩
      · obtain ⟨k, e', hk, he', rfl⟩ := below_of_mem_postOrder hx
        exact ⟨k, e', .step c he hc hk, he', rfl⟩

theorem Below.snoc {r : Registry} {a k : ActorId} {e : RegistryEntry} (h : Below r a k)
    (hk : r.entry? k = some e) {c : String × ActorId} (hc : c ∈ e.children) : Below r a c.2 := by
  induction h with
  | self a => exact .step c hk hc (.self c.2)
  | step c' ha hc' _ ih => exact .step c' ha hc' (ih hk)

theorem Below.last {r : Registry} {a k : ActorId} (h : Below r a k) :
    k = a ∨ ∃ y e c, Below r a y ∧ r.entry? y = some e ∧ c ∈ e.children ∧ c.2 = k := by
  induction h with
  | self a => exact .inl rfl
  | step c ha hc _ ih =>
    rcases ih with rfl | ⟨y, e, c', hy, he, hc', rfl⟩
    · exact .inr ⟨_, _, c, .self _, ha, hc, rfl⟩
    · exact .inr ⟨y, e, c', .step c ha hc hy, he, hc', rfl⟩


/-! ## Keys and lookups after a change -/

theorem keys_modifyEntry (r : Registry) (p : ActorId) (f : RegistryEntry → RegistryEntry) :
    (r.modifyEntry p f).entries.map (·.1) = r.entries.map (·.1) := by
  simp only [modifyEntry, List.map_map]
  refine List.map_congr_left fun q _ => ?_
  simp only [Function.comp_apply]
  split <;> rfl

theorem keys_unlink (r : Registry) (id : ActorId) : (r.unlink id).entries.map (·.1) = r.entries.map (·.1) := by
  unfold unlink
  split
  · exact keys_modifyEntry _ _ _
  · rfl

theorem keys_removeSubtree (r : Registry) (id : ActorId) :
    ((r.removeSubtree id).1.entries.map (·.1)).Sublist (r.entries.map (·.1)) := by
  rw [removeSubtree_eq, ← keys_unlink r id]
  exact List.filter_sublist.map _

theorem removeSubtree_of_none {r : Registry} {id : ActorId} (h : r.entry? id = none) :
    (r.removeSubtree id).1 = r := by
  have hwalk : r.postOrder r.entries.length id = [] := by
    cases r.entries.length <;> simp [postOrder, h]
  have hunlink : r.unlink id = r := by simp [unlink, parent?, actor?, h]
  rw [removeSubtree_eq, hwalk, hunlink]
  simp [outside]

theorem entry?_unlink_parent {r : Registry} {id p : ActorId} {ie : RegistryEntry}
    (hid : r.entry? id = some ie) (hp : ie.parent = some p) (k : ActorId) :
    Registry.entry? (r.unlink id) k =
      if k = p then (r.entry? k).map fun e => { e with children := e.children.filter (·.1 != ie.actor.name) }
      else r.entry? k := by
  have hpar : r.parent? id = some p := by simp [parent?, hid, hp]
  have hact : r.actor? id = some ie.actor := by simp [actor?, hid]
  unfold unlink
  rw [hpar, hact]
  exact entry?_modifyEntry _ _ _ _

theorem isSome_lookupId_of_mem {es : List (ActorId × RegistryEntry)} {k : ActorId} {e : RegistryEntry}
    (h : (k, e) ∈ es) : Option.isSome (Registry.entry?.lookupId es k) := by
  induction es with
  | nil => cases h
  | cons p rest ih =>
    obtain ⟨i, e'⟩ := p
    rw [lookupId_cons]
    split
    · rfl
    · next hik =>
      rcases List.mem_cons.1 h with h | h
      · cases h
        exact absurd rfl hik
      · exact ih h

theorem isSome_entry?_of_mem {r : Registry} {k : ActorId} {e : RegistryEntry} (h : (k, e) ∈ r.entries) :
    (r.entry? k).isSome :=
  isSome_lookupId_of_mem h

theorem not_mem_keys {r : Registry} {k : ActorId} (h : r.entry? k = none) : k ∉ r.entries.map (·.1) := by
  intro hk
  obtain ⟨⟨k', e⟩, he, rfl⟩ := List.mem_map.1 hk
  have hsome := isSome_entry?_of_mem he
  rw [h] at hsome
  cases hsome

/-! ## Registering a child -/

theorem insertByName_perm {name : String} {id : ActorId} :
    ∀ {l : List (String × ActorId)}, (∀ c ∈ l, c.1 ≠ name) → (insertByName name id l).Perm ((name, id) :: l)
  | [], _ => List.Perm.refl _
  | (n, i) :: rest, h => by
    unfold insertByName
    split
    · exact List.Perm.refl _
    · split
      · next heq => exact absurd (beq_iff_eq.1 heq).symm (h (n, i) List.mem_cons_self)
      · exact ((insertByName_perm fun c hc => h c (List.mem_cons_of_mem _ hc)).cons _).trans
          (List.Perm.swap _ _ _)

theorem register_eq {r r' : Registry} {parent : ActorId} {child : ActorRef}
    (h : r.register parent child = .ok r') :
    ∃ pe, r.entry? parent = some pe ∧ (∀ c ∈ pe.children, c.1 ≠ child.name) ∧
      r' = { entries := (r.modifyEntry parent fun e =>
        { e with children := insertByName child.name child.id e.children }).entries ++
          [(child.id, { actor := child, parent := some parent })] } := by
  unfold register at h
  split at h
  · cases h
  · next pe hpe =>
    split at h
    · cases h
    · next hany =>
      cases h
      refine ⟨pe, hpe, fun c hc hn => hany ?_, rfl⟩
      exact List.any_eq_true.2 ⟨c, hc, beq_iff_eq.2 hn⟩

theorem entry?_register {r r' : Registry} {parent : ActorId} {child : ActorRef} {pe : RegistryEntry}
    (h : r.register parent child = .ok r') (hpe : r.entry? parent = some pe) (hfresh : r.entry? child.id = none)
    (k : ActorId) :
    Registry.entry? r' k =
      if k = child.id then some { actor := child, parent := some parent }
      else if k = parent then some { pe with children := insertByName child.name child.id pe.children }
      else r.entry? k := by
  obtain ⟨pe', hpe', -, rfl⟩ := register_eq h
  rw [hpe] at hpe'
  cases hpe'
  rw [entry?_append]
  change (Registry.entry? (r.modifyEntry parent _) k).or _ = _
  rw [entry?_modifyEntry]
  by_cases hkc : k = child.id
  · subst hkc
    have hpc : child.id ≠ parent := fun hc => by rw [hc, hpe] at hfresh; cases hfresh
    simp [hpc, hfresh]
  · by_cases hkp : k = parent
    · subst hkp
      simp [hkc, hpe]
    · simp [hkc, hkp, Ne.symm hkc]

/-! ## Which actors stay live -/

theorem outside_append (l₁ l₂ : List ActorRef) (k : ActorId) :
    outside (l₁ ++ l₂) k = (outside l₁ k && outside l₂ k) := by
  simp [outside, List.any_append]

theorem contains_removeSubtree (r : Registry) (id k : ActorId) :
    (r.removeSubtree id).1.contains k = (outside (r.removeSubtree id).2 k && r.contains k) := by
  rw [removeSubtree_eq]
  unfold contains
  rw [entry?_filter]
  obtain ⟨f, -, hf⟩ := entry?_unlink r id k
  cases outside (r.postOrder r.entries.length id) k <;> simp [hf]

theorem removeStep_eq (acc : Registry × List ActorRef) (kid : String × ActorId) :
    removeStep acc kid = ((acc.1.removeSubtree kid.2).1, acc.2 ++ (acc.1.removeSubtree kid.2).2) := rfl

theorem contains_removeStep_foldl (kids : List (String × ActorId)) (r : Registry) (acc : List ActorRef) :
    ∃ removed, (kids.foldl removeStep (r, acc)).2 = acc ++ removed ∧
      ∀ k, (kids.foldl removeStep (r, acc)).1.contains k = (outside removed k && r.contains k) := by
  induction kids generalizing r acc with
  | nil => exact ⟨[], by simp, fun k => by simp [outside]⟩
  | cons kid kids ih =>
    rw [List.foldl_cons, removeStep_eq]
    obtain ⟨removed, hacc, hk⟩ := ih (r.removeSubtree kid.2).1 (acc ++ (r.removeSubtree kid.2).2)
    refine ⟨(r.removeSubtree kid.2).2 ++ removed, by rw [hacc, List.append_assoc], fun k => ?_⟩
    rw [hk, contains_removeSubtree, outside_append]
    cases outside removed k <;> cases outside (r.removeSubtree kid.2).2 k <;> rfl

theorem contains_removeDescendants (r : Registry) (id k : ActorId) :
    (r.removeDescendants id).1.contains k = (outside (r.removeDescendants id).2 k && r.contains k) := by
  rw [removeDescendants_eq]
  obtain ⟨removed, hacc, hk⟩ := contains_removeStep_foldl (((r.entry? id).map (·.children)).getD []) r []
  rw [hk, hacc, List.nil_append]

theorem contains_register {r r' : Registry} {parent : ActorId} {child : ActorRef}
    (h : r.register parent child = .ok r') (k : ActorId) : r'.contains k = (r.contains k || k == child.id) := by
  obtain ⟨pe, -, -, rfl⟩ := register_eq h
  unfold contains
  rw [entry?_append]
  change ((Registry.entry? (r.modifyEntry parent _) k).or _).isSome = _
  rw [entry?_modifyEntry]
  by_cases hkc : k = child.id
  · subst hkc
    split <;> cases r.entry? child.id <;> simp
  · rw [if_neg (Ne.symm hkc), Option.or_none, beq_false_of_ne hkc, Bool.or_false]
    split <;> simp

/-! ## What the tree keeps -/

section Tree

variable {root : ActorRef} {r : Registry} {d : ActorId → Nat}

theorem Tree.child (ht : r.Tree root) (hd : Depth root r d) {k : ActorId} {e : RegistryEntry}
    (hk : r.entry? k = some e) {c : String × ActorId} (hc : c ∈ e.children) :
    ∃ ce, r.entry? c.2 = some ce ∧ d c.2 = d k + 1 := by
  obtain ⟨ce, hce, hp, -⟩ := ht.down k e hk c hc
  exact ⟨ce, hce, hd.2 _ _ _ hce hp⟩

theorem Below.depth_le (ht : r.Tree root) (hd : Depth root r d) {a k : ActorId} (h : Below r a k) :
    d a ≤ d k := by
  induction h with
  | self => exact le_rfl
  | step c ha hc _ ih =>
    obtain ⟨-, -, hdc⟩ := ht.child hd ha hc
    omega

/-- Every live actor is fewer steps from the root than there are live actors. -/
theorem Tree.depth_lt (ht : r.Tree root) (hd : Depth root r d) {k : ActorId} {e : RegistryEntry}
    (hk : r.entry? k = some e) : d k < r.entries.length := by
  classical
  let keys := (r.entries.map (·.1)).toFinset
  let upto := fun n => keys.filter (d · ≤ n)
  -- an actor at depth `n` has an ancestor at every depth up to `n`
  have hcount : ∀ n k e, r.entry? k = some e → d k = n → n + 1 ≤ (upto n).card := by
    intro n
    induction n with
    | zero =>
      intro k e hk hdk
      have hmem : k ∈ upto 0 := by
        simp only [upto, keys, Finset.mem_filter, List.mem_toFinset, List.mem_map]
        exact ⟨⟨(k, e), mem_of_entry_eq hk, rfl⟩, hdk.le⟩
      exact Finset.card_pos.2 ⟨k, hmem⟩
    | succ n ih =>
      intro k e hk hdk
      have hne : k ≠ root.id := fun h => by simp [h, hd.1] at hdk
      obtain ⟨p, pe, hp, hpe, -⟩ := ht.up k e hk hne
      have hdp : d p = n := by have := hd.2 k e p hk hp; omega
      have hsub : insert k (upto n) ⊆ upto (n + 1) := by
        intro x hx
        simp only [upto, keys, Finset.mem_insert, Finset.mem_filter, List.mem_toFinset,
          List.mem_map] at hx ⊢
        rcases hx with rfl | ⟨hx, hle⟩
        · exact ⟨⟨(x, e), mem_of_entry_eq hk, rfl⟩, hdk.le⟩
        · exact ⟨hx, by omega⟩
      have hnot : k ∉ upto n := by
        simp only [upto, Finset.mem_filter, not_and, not_le]
        intro _
        omega
      calc n + 1 + 1 ≤ (upto n).card + 1 := by have := ih p pe hpe hdp; omega
        _ = (insert k (upto n)).card := (Finset.card_insert_of_notMem hnot).symm
        _ ≤ (upto (n + 1)).card := Finset.card_le_card hsub
  calc d k < d k + 1 := Nat.lt_succ_self _
    _ ≤ (upto (d k)).card := hcount _ k e hk rfl
    _ ≤ keys.card := Finset.card_filter_le _ _
    _ ≤ (r.entries.map (·.1)).length := List.toFinset_card_le _
    _ = r.entries.length := List.length_map _

/-- The walk from `a` with enough fuel finds every live actor below `a`. -/
theorem mem_postOrder_of_below (ht : r.Tree root) (hd : Depth root r d) {a k : ActorId}
    (h : Below r a k) : ∀ {e : RegistryEntry} {fuel : Nat}, r.entry? k = some e → d k < d a + fuel →
      e.actor ∈ r.postOrder fuel a := by
  induction h with
  | self a =>
    intro e fuel hk hlt
    obtain ⟨fuel, rfl⟩ : ∃ f, fuel = f + 1 := Nat.exists_eq_add_one.2 (by omega)
    exact mem_postOrder_self hk fuel
  | step c ha hc hb ih =>
    intro e fuel hk hlt
    obtain ⟨-, -, hdc⟩ := ht.child hd ha hc
    have hle := hb.depth_le ht hd
    obtain ⟨fuel, rfl⟩ : ∃ f, fuel = f + 1 := Nat.exists_eq_add_one.2 (by omega)
    exact (mem_postOrder ha _).2 (.inr ⟨c, hc, ih hk (by omega)⟩)

/-- Removing a subtree removes exactly the live actors below it. -/
theorem mem_removeSubtree (ht : r.Tree root) (hd : Depth root r d) (id : ActorId) (x : ActorRef) :
    x ∈ (r.removeSubtree id).2 ↔ ∃ k e, Below r id k ∧ r.entry? k = some e ∧ e.actor = x := by
  refine ⟨below_of_mem_postOrder, fun ⟨k, e, hb, hk, hx⟩ => hx ▸ ?_⟩
  have hlt := ht.depth_lt hd hk
  exact mem_postOrder_of_below ht hd hb hk (by omega)


theorem Tree.entry?_removeSubtree_below (ht : r.Tree root) (hd : Depth root r d) {id k : ActorId}
    (h : Below r id k) : Registry.entry? (r.removeSubtree id).1 k = none := by
  cases hk : r.entry? k with
  | none => exact entry?_removeSubtree_of_none id hk
  | some e =>
    have hmem : e.actor ∈ (r.removeSubtree id).2 := (mem_removeSubtree ht hd id e.actor).2 ⟨k, e, h, hk, rfl⟩
    have hkey : e.actor.id = k := ht.keyed k e (mem_of_entry_eq hk)
    rw [removeSubtree_eq, entry?_filter]
    have hout : outside (r.postOrder r.entries.length id) k = false := by
      simpa [outside] using ⟨e.actor, hmem, hkey⟩
    simp [hout]

theorem Tree.entry?_removeSubtree_not_below (ht : r.Tree root) (hd : Depth root r d) {id k : ActorId}
    (h : ¬Below r id k) : Registry.entry? (r.removeSubtree id).1 k = Registry.entry? (r.unlink id) k := by
  rw [removeSubtree_eq, entry?_filter]
  have hout : outside (r.postOrder r.entries.length id) k = true := by
    rw [outside_iff]
    intro a ha hak
    obtain ⟨k', e', hb, hk', rfl⟩ := (mem_removeSubtree ht hd id a).1 ha
    have hkk : k' = k := (ht.keyed k' e' (mem_of_entry_eq hk')).symm.trans hak
    exact h (hkk ▸ hb)
  simp [hout]


/-- What is left after removing a subtree was there before, outside the
subtree, with the same actor and parent and no more children. -/
theorem Tree.entry?_removeSubtree_some (ht : r.Tree root) (hd : Depth root r d) {id k : ActorId}
    {e' : RegistryEntry} (h : Registry.entry? (r.removeSubtree id).1 k = some e') :
    ¬Below r id k ∧ Registry.entry? (r.unlink id) k = some e' ∧ ∃ e, r.entry? k = some e ∧
      e'.actor = e.actor ∧ e'.parent = e.parent ∧ e'.children.Sublist e.children := by
  have hnb : ¬Below r id k := fun hb => by
    rw [ht.entry?_removeSubtree_below hd hb] at h
    cases h
  rw [ht.entry?_removeSubtree_not_below hd hnb] at h
  obtain ⟨f, hf, hfk⟩ := entry?_unlink r id k
  refine ⟨hnb, h, ?_⟩
  rw [hfk] at h
  obtain ⟨e, he, rfl⟩ := Option.map_eq_some_iff.1 h
  exact ⟨e, he, hf e⟩

theorem Tree.parent_eq (ht : r.Tree root) {k : ActorId} {e : RegistryEntry} (hk : r.entry? k = some e)
    {c : String × ActorId} (hc : c ∈ e.children) {ce : RegistryEntry} (hce : r.entry? c.2 = some ce) :
    ce.parent = some k := by
  obtain ⟨ce', hce', hp, -⟩ := ht.down k e hk c hc
  rw [hce] at hce'
  cases hce'
  exact hp

/-- Going up from inside a subtree stays inside it, until its top. -/
theorem Tree.below_parent (ht : r.Tree root) {a k p : ActorId} {e : RegistryEntry} (h : Below r a k)
    (hne : k ≠ a) (hk : r.entry? k = some e) (hp : e.parent = some p) : Below r a p := by
  rcases h.last with rfl | ⟨y, ey, c, hy, hey, hc, rfl⟩
  · exact absurd rfl hne
  · have := ht.parent_eq hey hc hk
    rw [hp] at this
    cases this
    exact hy

theorem Tree.not_below_root (ht : r.Tree root) (hd : Depth root r d) {id : ActorId} (hid : id ≠ root.id) :
    ¬Below r id root.id := by
  intro h
  cases h with
  | self => exact hid rfl
  | step c ha hc hb =>
    obtain ⟨p, -, hp, -⟩ := ht.up _ _ ha hid
    have hdepth := hd.2 _ _ _ ha hp
    have hle := (Below.step c ha hc hb).depth_le ht hd
    rw [hd.1] at hle
    omega

/-- An actor outside the removed subtree keeps its entry, with its actor and
its parent, as unlinking leaves it. -/
theorem Tree.entry?_removeSubtree_kept (ht : r.Tree root) (hd : Depth root r d) {id k : ActorId}
    {e : RegistryEntry} (hnb : ¬Below r id k) (he : r.entry? k = some e) :
    ∃ e', Registry.entry? (r.removeSubtree id).1 k = some e' ∧ Registry.entry? (r.unlink id) k = some e' ∧
      e'.actor = e.actor ∧ e'.parent = e.parent := by
  obtain ⟨f, hf, hfk⟩ := entry?_unlink r id k
  rw [he] at hfk
  refine ⟨f e, ?_, hfk, (hf e).1, (hf e).2.1⟩
  rw [ht.entry?_removeSubtree_not_below hd hnb, hfk]
  rfl

theorem Tree.mem_unlink_children (ht : r.Tree root) {id : ActorId} {ie : RegistryEntry}
    (hie : r.entry? id = some ie) (hid : id ≠ root.id) {k : ActorId} {e e' : RegistryEntry}
    (he : r.entry? k = some e) (he' : Registry.entry? (r.unlink id) k = some e') {c : String × ActorId}
    (hc : c ∈ e.children) (hcid : c.2 ≠ id) : c ∈ e'.children := by
  obtain ⟨p, pe, hp, hpe, hname⟩ := ht.up id ie hie hid
  rw [entry?_unlink_parent hie hp k, he] at he'
  split at he'
  · next hkp =>
    cases he'
    subst hkp
    rw [hpe] at he
    cases he
    -- names are unique in the table, so only `id` goes under the name of `id`
    refine List.mem_filter.2 ⟨hc, bne_iff_ne.2 fun hn => hcid ?_⟩
    exact List.inj_on_of_nodup_map (ht.names _ _ hpe) hc hname (by simpa using hn) ▸ rfl
  · cases he'
    exact hc

theorem Tree.removeSubtree (ht : r.Tree root) {id : ActorId} (hid : id ≠ root.id) :
    (r.removeSubtree id).1.Tree root := by
  obtain ⟨d, hd⟩ := ht.depth
  cases hie : r.entry? id with
  | none => rw [removeSubtree_of_none hie]; exact ht
  | some ie =>
  refine ⟨ht.keyed.removeSubtree id, (keys_removeSubtree r id).nodup ht.nodup, ?_, ?_, ?_, ?_, ?_⟩
  · obtain ⟨re, hre, hra, hrp⟩ := ht.rooted
    obtain ⟨re', hre', -, ha, hpar⟩ := ht.entry?_removeSubtree_kept hd (ht.not_below_root hd hid) hre
    exact ⟨re', hre', ha.trans hra, hpar.trans hrp⟩
  · intro k e' he' hk
    obtain ⟨hnb, -, e, he, ha, hpar, -⟩ := ht.entry?_removeSubtree_some hd he'
    obtain ⟨q, qe, hq, hqe, hmem⟩ := ht.up k e he hk
    -- the parent is outside the subtree too, and still lists `k`
    have hqnb : ¬Below r id q := fun hb => hnb (hb.snoc hqe hmem)
    obtain ⟨qe', hqe', hu, -, -⟩ := ht.entry?_removeSubtree_kept hd hqnb hqe
    refine ⟨q, qe', hpar.trans hq, hqe', ha ▸ ht.mem_unlink_children hie hid hqe hu hmem fun hki => hnb ?_⟩
    simp only at hki
    rw [hki]
    exact .self id
  · intro k e' he' c hc
    obtain ⟨hnb, hu, e, he, -, -, hsub⟩ := ht.entry?_removeSubtree_some hd he'
    obtain ⟨ce, hce, hcp, hcn⟩ := ht.down k e he c (hsub.subset hc)
    have hcnb : ¬Below r id c.2 := by
      intro hb
      by_cases hcid : c.2 = id
      · -- `c` is `id` itself, whose name the table of `k` lost
        obtain ⟨p, -, hp, -⟩ := ht.up id ie hie hid
        rw [hcid, hie] at hce
        cases hce
        have hkp : k = p := by rw [hp] at hcp; cases hcp; rfl
        subst hkp
        rw [entry?_unlink_parent hie hp, if_pos rfl, he] at hu
        cases hu
        have := (List.mem_filter.1 hc).2
        simp [hcn] at this
      · exact hnb (ht.below_parent hb hcid hce hcp)
    obtain ⟨ce', hce', -, ha, hpar⟩ := ht.entry?_removeSubtree_kept hd hcnb hce
    exact ⟨ce', hce', hpar.trans hcp, (congrArg ActorRef.name ha).trans hcn⟩
  · intro k e' he'
    obtain ⟨-, -, e, he, -, -, hsub⟩ := ht.entry?_removeSubtree_some hd he'
    exact (hsub.map _).nodup (ht.names k e he)
  · refine ⟨d, hd.1, fun k e' q he' hq => ?_⟩
    obtain ⟨-, -, e, he, -, hpar, -⟩ := ht.entry?_removeSubtree_some hd he'
    exact hd.2 k e q he (hpar ▸ hq)

theorem Tree.parent_live (ht : r.Tree root) {k p : ActorId} {e : RegistryEntry} (hk : r.entry? k = some e)
    (hp : e.parent = some p) : ∃ pe, r.entry? p = some pe := by
  by_cases hroot : k = root.id
  · obtain ⟨re, hre, -, hrp⟩ := ht.rooted
    rw [hroot, hre] at hk
    cases hk
    rw [hrp] at hp
    cases hp
  · obtain ⟨q, qe, hq, hqe, -⟩ := ht.up k e hk hroot
    rw [hp] at hq
    cases hq
    exact ⟨qe, hqe⟩

section Register

variable {r' : Registry} {parent : ActorId} {child : ActorRef}

/-- An actor live before a registration keeps its entry, with the new child
added to the parent's table. -/
theorem Tree.register_old (ht : r.Tree root) (h : r.register parent child = .ok r')
    (hfresh : r.entry? child.id = none) {k : ActorId} {e : RegistryEntry} (hk : r.entry? k = some e) :
    ∃ e', r'.entry? k = some e' ∧ e'.actor = e.actor ∧ e'.parent = e.parent ∧ e.children ⊆ e'.children ∧
      (k = parent → (child.name, child.id) ∈ e'.children) ∧ (e'.children.map (·.1)).Nodup := by
  obtain ⟨pe, hpe, hfree, -⟩ := register_eq h
  have hkc : k ≠ child.id := fun hkc => by rw [hkc, hfresh] at hk; cases hk
  rw [entry?_register h hpe hfresh, if_neg hkc]
  by_cases hkp : k = parent
  · subst hkp
    rw [hpe] at hk
    cases hk
    have hperm : (insertByName child.name child.id e.children).Perm ((child.name, child.id) :: e.children) :=
      insertByName_perm hfree
    refine ⟨{ e with children := insertByName child.name child.id e.children }, by rw [if_pos rfl], rfl, rfl,
      fun c hc => hperm.mem_iff.2 (List.mem_cons_of_mem _ hc),
      fun _ => hperm.mem_iff.2 List.mem_cons_self, (hperm.map _).nodup_iff.2 ?_⟩
    refine List.nodup_cons.2 ⟨fun hmem => ?_, ht.names _ _ hpe⟩
    obtain ⟨c, hc, hcn⟩ := List.mem_map.1 hmem
    exact hfree c hc hcn
  · rw [if_neg hkp]
    exact ⟨e, hk, rfl, rfl, List.Subset.refl _, fun h => absurd h hkp, ht.names k e hk⟩

theorem entry?_register_some (h : r.register parent child = .ok r')
    (hfresh : r.entry? child.id = none) {k : ActorId} {e' : RegistryEntry} (hk : r'.entry? k = some e') :
    (k = child.id ∧ e' = { actor := child, parent := some parent }) ∨
      ∃ e, r.entry? k = some e ∧ e'.actor = e.actor ∧ e'.parent = e.parent ∧
        ∀ c ∈ e'.children, (k = parent ∧ c = (child.name, child.id)) ∨ c ∈ e.children := by
  obtain ⟨pe, hpe, hfree, -⟩ := register_eq h
  rw [entry?_register h hpe hfresh] at hk
  split at hk
  · next hkc =>
    cases hk
    exact .inl ⟨hkc, rfl⟩
  · split at hk
    · next hkp =>
      cases hk
      subst hkp
      refine .inr ⟨pe, hpe, rfl, rfl, fun c hc => ?_⟩
      rcases List.mem_cons.1 ((insertByName_perm hfree).mem_iff.1 hc) with rfl | hc
      · exact .inl ⟨rfl, rfl⟩
      · exact .inr hc
    · exact .inr ⟨e', hk, rfl, rfl, fun c hc => .inr hc⟩

theorem Tree.register (ht : r.Tree root) (h : r.register parent child = .ok r')
    (hfresh : r.entry? child.id = none) : r'.Tree root := by
  obtain ⟨pe, hpe, -, hr'⟩ := register_eq h
  obtain ⟨d, hd⟩ := ht.depth
  have hlive : ∀ {k e}, r.entry? k = some e → k ≠ child.id := fun hk hkc => by
    rw [hkc, hfresh] at hk
    cases hk
  obtain ⟨pe', hpe', -, -, -, hpin, -⟩ := ht.register_old h hfresh hpe
  refine ⟨ht.keyed.register h, ?_, ?_, ?_, ?_, ?_, ?_⟩
  · rw [hr', List.map_append, keys_modifyEntry, List.map_singleton, ← List.concat_eq_append]
    exact ht.nodup.concat (not_mem_keys hfresh)
  · obtain ⟨re, hre, hra, hrp⟩ := ht.rooted
    obtain ⟨re', hre', hra', hrp', -⟩ := ht.register_old h hfresh hre
    exact ⟨re', hre', hra'.trans hra, hrp'.trans hrp⟩
  · intro k e' he' hk
    rcases entry?_register_some h hfresh he' with ⟨rfl, rfl⟩ | ⟨e, he, ha, hpar, -⟩
    · exact ⟨parent, pe', rfl, hpe', hpin rfl⟩
    · obtain ⟨q, qe, hq, hqe, hmem⟩ := ht.up k e he hk
      obtain ⟨qe', hqe', -, -, hsub, -⟩ := ht.register_old h hfresh hqe
      exact ⟨q, qe', hpar.trans hq, hqe', ha ▸ hsub hmem⟩
  · intro k e' he' c hc
    rcases entry?_register_some h hfresh he' with ⟨rfl, rfl⟩ | ⟨e, he, -, -, hch⟩
    · cases hc
    · rcases hch c hc with ⟨rfl, rfl⟩ | hc
      · exact ⟨_, by rw [entry?_register h hpe hfresh, if_pos rfl], rfl, rfl⟩
      · obtain ⟨ce, hce, hcp, hcn⟩ := ht.down k e he c hc
        obtain ⟨ce', hce', ha, hpar, -⟩ := ht.register_old h hfresh hce
        exact ⟨ce', hce', hpar.trans hcp, ha ▸ hcn⟩
  · intro k e' he'
    rcases entry?_register_some h hfresh he' with ⟨rfl, rfl⟩ | ⟨e, he, -, -, -⟩
    · exact List.nodup_nil
    · obtain ⟨e'', he'', -, -, -, -, hnd⟩ := ht.register_old h hfresh he
      rw [he'] at he''
      cases he''
      exact hnd
  · -- the child is one deeper than its parent; every other depth stays
    refine ⟨fun k => if k = child.id then d parent + 1 else d k, ?_, fun k e' q he' hq => ?_⟩
    · obtain ⟨re, hre, -⟩ := ht.rooted
      simp only [if_neg (hlive hre), hd.1]
    · rcases entry?_register_some h hfresh he' with ⟨rfl, rfl⟩ | ⟨e, he, -, hpar, -⟩
      · cases hq
        simp [hlive hpe]
      · obtain ⟨qe, hqe⟩ := ht.parent_live he (hpar ▸ hq)
        simp only [if_neg (hlive he), if_neg (hlive hqe)]
        exact hd.2 k e q he (hpar ▸ hq)

end Register

theorem Tree.child_ne_root (ht : r.Tree root) {e : RegistryEntry} (hk : r.entry? root.id = some e)
    {c : String × ActorId} (hc : c ∈ e.children) : c.2 ≠ root.id := by
  intro hcr
  obtain ⟨ce, hce, hcp, -⟩ := ht.down _ e hk c hc
  obtain ⟨re, hre, -, hrp⟩ := ht.rooted
  rw [hcr, hre] at hce
  cases hce
  rw [hrp] at hcp
  cases hcp

/-- Removing subtrees below the root, one after another, keeps the tree. -/
theorem Tree.removeStep_foldl (ht : r.Tree root) (kids : List (String × ActorId))
    (hkids : ∀ kid ∈ kids, kid.2 ≠ root.id) (acc : List ActorRef) :
    (kids.foldl removeStep (r, acc)).1.Tree root := by
  induction kids generalizing r acc with
  | nil => exact ht
  | cons kid kids ih =>
    simp only [List.foldl_cons]
    exact ih (ht.removeSubtree (hkids kid List.mem_cons_self)) (fun k hk => hkids k (List.mem_cons_of_mem _ hk)) _

theorem Tree.removeDescendants (ht : r.Tree root) : (r.removeDescendants root.id).1.Tree root := by
  rw [removeDescendants_eq]
  obtain ⟨re, hre, -⟩ := ht.rooted
  refine ht.removeStep_foldl _ (fun kid hkid => ht.child_ne_root hre ?_) []
  simpa [hre] using hkid

end Tree

end Registry

end Statechart
