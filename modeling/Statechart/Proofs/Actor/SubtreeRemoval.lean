import Statechart.Proofs.Actor.NameOrder
/-!
# Removing a subtree, children first

Removing an actor walks its subtree depth first and lists each actor after its
children. `PostOrder` states the walk without fuel; in a tree the fuel, one
per entry, never runs out (`Tree.postOrder_removeSubtree`). Subtrees at one
depth are disjoint (`Tree.eq_of_below`), so the walk lists every actor once and
none before its descendants (`Tree.postOrder_nodup_pairwise`), and with tables
in name order the smaller name comes first (`Tree.postOrder_by_name`).
Removing the root's descendants removes each child's subtree in turn and
leaves the root alone (`PrunesToRoot`).
-/
namespace Statechart

namespace Registry

variable {r : Registry}

/-! ## The walk without fuel -/

/-- `l` lists the subtrees of the actors `ids` one after another: for each
actor, the subtrees of its children in table order, then the actor itself. -/
inductive PostOrder (r : Registry) : List ActorId → List ActorRef → Prop
  | nil : PostOrder r [] []
  | gone {a : ActorId} {as : List ActorId} {l : List ActorRef} :
      r.entry? a = none → PostOrder r as l → PostOrder r (a :: as) l
  | node {a : ActorId} {as : List ActorId} {e : RegistryEntry} {below rest : List ActorRef} :
      r.entry? a = some e → PostOrder r (e.children.map (·.2)) below → PostOrder r as rest →
      PostOrder r (a :: as) (below ++ e.actor :: rest)

theorem below_iff_of_entry {a k : ActorId} {e : RegistryEntry} (he : r.entry? a = some e) :
    Below r a k ↔ k = a ∨ ∃ c ∈ e.children, Below r c.2 k := by
  constructor
  · intro h
    cases h with
    | self => exact .inl rfl
    | step c ha hc hb =>
      rw [he] at ha
      cases ha
      exact .inr ⟨c, hc, hb⟩
  · rintro (rfl | ⟨c, hc, hb⟩)
    · exact .self k
    · exact .step c he hc hb

theorem below_of_entry_eq_none {a k : ActorId} (he : r.entry? a = none) (h : Below r a k) : k = a := by
  cases h with
  | self => rfl
  | step c ha =>
    rw [he] at ha
    cases ha

theorem Below.trans {a b c : ActorId} (h₁ : Below r a b) (h₂ : Below r b c) : Below r a c := by
  induction h₁ with
  | self => exact h₂
  | step c' ha hc _ ih => exact .step c' ha hc (ih h₂)

/-- The walk lists the actors of the subtrees of `ids`, and nothing else. -/
theorem PostOrder.mem_iff {ids : List ActorId} {l : List ActorRef} (h : PostOrder r ids l)
    (x : ActorRef) : x ∈ l ↔ ∃ a ∈ ids, ∃ k e, Below r a k ∧ r.entry? k = some e ∧ e.actor = x := by
  induction h with
  | nil => simp
  | @gone a as l ha _ ih =>
    rw [ih]
    constructor
    · rintro ⟨b, hb, hx⟩
      exact ⟨b, List.mem_cons_of_mem _ hb, hx⟩
    · rintro ⟨b, hb, k, e, hbk, hk, hx⟩
      rcases List.mem_cons.1 hb with rfl | hb
      · -- nothing lies below an actor without an entry
        rw [below_of_entry_eq_none ha hbk, ha] at hk
        cases hk
      · exact ⟨b, hb, k, e, hbk, hk, hx⟩
  | @node a as e below rest ha _ _ ihb ihr =>
    constructor
    · intro hx
      rcases List.mem_append.1 hx with hx | hx
      · obtain ⟨c2, hc2, k, e', hk, he', hx⟩ := ihb.1 hx
        obtain ⟨c, hc, rfl⟩ := List.mem_map.1 hc2
        exact ⟨a, List.mem_cons_self, k, e', .step c ha hc hk, he', hx⟩
      · rcases List.mem_cons.1 hx with rfl | hx
        · exact ⟨a, List.mem_cons_self, a, e, .self a, ha, rfl⟩
        · obtain ⟨b, hb, hbx⟩ := ihr.1 hx
          exact ⟨b, List.mem_cons_of_mem _ hb, hbx⟩
    · rintro ⟨b, hb, k, e', hbk, he', hx⟩
      rcases List.mem_cons.1 hb with rfl | hb
      · rcases (below_iff_of_entry ha).1 hbk with rfl | ⟨c, hc, hk⟩
        · -- the actor itself, listed after its children
          rw [ha] at he'
          cases he'
          exact List.mem_append_right _ (hx ▸ List.mem_cons_self)
        · exact List.mem_append_left _ (ihb.2 ⟨c.2, List.mem_map_of_mem hc, k, e', hk, he', hx⟩)
      · exact List.mem_append_right _ (List.mem_cons_of_mem _ (ihr.2 ⟨b, hb, k, e', hbk, he', hx⟩))

theorem PostOrder.unique {ids : List ActorId} {l l' : List ActorRef} (h : PostOrder r ids l)
    (h' : PostOrder r ids l') : l = l' := by
  induction h generalizing l' with
  | nil =>
    cases h'
    rfl
  | gone ha _ ih =>
    cases h' with
    | gone _ h' => exact ih h'
    | node ha' =>
      rw [ha] at ha'
      cases ha'
  | node ha _ _ ihb ihr =>
    cases h' with
    | gone ha' =>
      rw [ha] at ha'
      cases ha'
    | node ha' hb' hr' =>
      rw [ha] at ha'
      cases ha'
      rw [ihb hb', ihr hr']

/-- The walk only reads the entries below where it starts. -/
theorem PostOrder.of_agree {r' : Registry} {ids : List ActorId} {l : List ActorRef}
    (h : PostOrder r ids l) (hagree : ∀ a ∈ ids, ∀ k, Below r a k → r.entry? k = r'.entry? k) :
    PostOrder r' ids l := by
  induction h with
  | nil => exact .nil
  | @gone a as l ha _ ih =>
    refine .gone ?_ (ih fun b hb => hagree b (List.mem_cons_of_mem _ hb))
    rw [← hagree a List.mem_cons_self a (.self a), ha]
  | @node a as e below rest ha _ _ ihb ihr =>
    refine .node ?_ (ihb fun c hc k hk => ?_) (ihr fun b hb => hagree b (List.mem_cons_of_mem _ hb))
    · rw [← hagree a List.mem_cons_self a (.self a), ha]
    · obtain ⟨c', hc', rfl⟩ := List.mem_map.1 hc
      exact hagree a List.mem_cons_self k (.step c' ha hc' hk)

theorem PostOrder.append {as₁ as₂ : List ActorId} {l : List ActorRef} (h : PostOrder r (as₁ ++ as₂) l) :
    ∃ l₁ l₂, l = l₁ ++ l₂ ∧ PostOrder r as₁ l₁ ∧ PostOrder r as₂ l₂ := by
  induction as₁ generalizing l with
  | nil => exact ⟨[], l, rfl, .nil, h⟩
  | cons a as ih =>
    cases h with
    | gone ha h =>
      obtain ⟨l₁, l₂, rfl, h₁, h₂⟩ := ih h
      exact ⟨l₁, l₂, rfl, .gone ha h₁, h₂⟩
    | node ha hb h =>
      obtain ⟨l₁, l₂, rfl, h₁, h₂⟩ := ih h
      exact ⟨_ ++ _ :: l₁, l₂, by simp, .node ha hb h₁, h₂⟩

/-- For every live actor below where the walk starts, the walk of its children
is one stretch of the whole walk. -/
theorem PostOrder.infix_of_below {ids : List ActorId} {l : List ActorRef} (h : PostOrder r ids l)
    {p : ActorId} {pe : RegistryEntry} (hpe : r.entry? p = some pe) :
    ∀ a ∈ ids, Below r a p → ∃ l', PostOrder r (pe.children.map (·.2)) l' ∧ l' <:+: l := by
  induction h with
  | nil => exact fun a ha => absurd ha List.not_mem_nil
  | @gone a as l ha _ ih =>
    intro b hb hbp
    rcases List.mem_cons.1 hb with rfl | hb
    · -- nothing lies below an actor without an entry
      rw [below_of_entry_eq_none ha hbp, ha] at hpe
      cases hpe
    · exact ih b hb hbp
  | @node a as e below rest ha hb hr ihb ihr =>
    intro b hb' hbp
    have hbelow : below <:+: below ++ e.actor :: rest := (List.prefix_append _ _).isInfix
    have hrest : rest <:+: below ++ e.actor :: rest := ⟨below ++ [e.actor], [], by simp⟩
    rcases List.mem_cons.1 hb' with rfl | hb'
    · rcases (below_iff_of_entry ha).1 hbp with rfl | ⟨c, hc, hcp⟩
      · -- the actor itself: its children's walk opens its stretch
        rw [ha] at hpe
        cases hpe
        exact ⟨below, hb, hbelow⟩
      · obtain ⟨l', hl', hinf⟩ := ihb c.2 (List.mem_map_of_mem hc) hcp
        exact ⟨l', hl', hinf.trans hbelow⟩
    · obtain ⟨l', hl', hinf⟩ := ihr b hb' hbp
      exact ⟨l', hl', hinf.trans hrest⟩

/-! ## The walk in a tree -/

section Tree

variable {root : ActorRef} {d : ActorId → Nat}

/-- With fuel past the depth of everything below the actors, the fuelled walk
is the walk without fuel. -/
theorem Tree.postOrder_walks (ht : r.Tree root) (hd : Depth root r d) :
    ∀ (fuel : Nat) (ids : List ActorId),
      (∀ a ∈ ids, ∀ k e, Below r a k → r.entry? k = some e → d k < d a + fuel) →
      PostOrder r ids (ids.flatMap (r.postOrder fuel))
  | _, [], _ => .nil
  | fuel, a :: as, hfuel => by
    have hrest := Tree.postOrder_walks ht hd fuel as fun b hb => hfuel b (List.mem_cons_of_mem _ hb)
    rw [List.flatMap_cons]
    cases ha : r.entry? a with
    | none =>
      have hnil : r.postOrder fuel a = [] := by cases fuel <;> simp [postOrder, ha]
      rw [hnil, List.nil_append]
      exact .gone ha hrest
    | some e =>
      -- the actor is live, so the fuel is not spent
      obtain ⟨fuel, rfl⟩ : ∃ f, fuel = f + 1 :=
        Nat.exists_eq_add_one.2 (by have := hfuel a List.mem_cons_self a e (.self a) ha; omega)
      have hkids : PostOrder r (e.children.map (·.2)) ((e.children.map (·.2)).flatMap (r.postOrder fuel)) := by
        refine Tree.postOrder_walks ht hd fuel _ fun c hc k ek hk hek => ?_
        obtain ⟨c', hc', rfl⟩ := List.mem_map.1 hc
        obtain ⟨-, -, hdc⟩ := ht.child hd ha hc'
        have := hfuel a List.mem_cons_self k ek (.step c' ha hc' hk) hek
        omega
      have hwalk : r.postOrder (fuel + 1) a =
          (e.children.map (·.2)).flatMap (r.postOrder fuel) ++ [e.actor] := by
        simp [postOrder, ha, List.flatMap, Function.comp_def]
      rw [hwalk, List.append_assoc, List.singleton_append]
      exact .node ha hkids hrest

/-- Removing a subtree walks it as `PostOrder` says: the fuel, one per entry,
always suffices. -/
theorem Tree.postOrder_removeSubtree (ht : r.Tree root) (id : ActorId) :
    PostOrder r [id] (r.removeSubtree id).2 := by
  obtain ⟨d, hd⟩ := ht.depth
  have h := ht.postOrder_walks hd r.entries.length [id] fun a ha k e _ hk => by
    have := ht.depth_lt hd hk
    omega
  rwa [List.flatMap_singleton] at h

theorem Tree.depth_lt_of_below (ht : r.Tree root) (hd : Depth root r d) {a k : ActorId}
    (h : Below r a k) (hne : a ≠ k) : d a < d k := by
  rcases h.last with rfl | ⟨y, e, c, hy, hey, hc, rfl⟩
  · exact absurd rfl hne
  · obtain ⟨-, -, hdc⟩ := ht.child hd hey hc
    have := hy.depth_le ht hd
    omega

/-- The actors above a given one lie on one line: of two, the shallower is
above the deeper. -/
theorem Tree.below_of_below (ht : r.Tree root) (hd : Depth root r d) {x y k : ActorId}
    (hx : Below r x k) (hy : Below r y k) (hle : d y ≤ d x) : Below r y x := by
  induction hx with
  | self => exact hy
  | @step x k e c hxe hc hb ih =>
    -- `y` lies above the child `c`, which is not `y`, so it lies above its parent `x`
    obtain ⟨ce, hce, hdc⟩ := ht.child hd hxe hc
    have hyc : Below r y c.2 := ih hy (by omega)
    have hne : c.2 ≠ y := fun h => by rw [h] at hdc; omega
    exact ht.below_parent hyc hne hce (ht.parent_eq hxe hc hce)

/-- Two actors at the same depth above a third are the same. -/
theorem Tree.eq_of_below (ht : r.Tree root) (hd : Depth root r d) {x y k : ActorId}
    (hx : Below r x k) (hy : Below r y k) (hxy : d x = d y) : x = y := by
  by_contra hne
  have := ht.depth_lt_of_below hd (ht.below_of_below hd hx hy (by omega)) (Ne.symm hne)
  omega

theorem Tree.nodup_children {k : ActorId} {e : RegistryEntry} (ht : r.Tree root) (he : r.entry? k = some e) :
    (e.children.map (·.2)).Nodup := by
  have hnames := ht.names k e he
  refine List.Nodup.map_on (fun c₁ hc₁ c₂ hc₂ hid => ?_) hnames.of_map
  -- one id has one entry, whose name is the name both pairs give
  obtain ⟨ce₁, hce₁, -, hn₁⟩ := ht.down k e he c₁ hc₁
  obtain ⟨ce₂, hce₂, -, hn₂⟩ := ht.down k e he c₂ hc₂
  rw [hid, hce₂] at hce₁
  cases hce₁
  exact List.inj_on_of_nodup_map hnames hc₁ hc₂ (hn₁.symm.trans hn₂)

/-- What the walk lists is the actor of a live entry, and lies below one of the
actors it starts from. -/
theorem PostOrder.below_of_mem (ht : r.Tree root) {ids : List ActorId} {l : List ActorRef}
    (h : PostOrder r ids l) {x : ActorRef} (hx : x ∈ l) :
    ∃ a ∈ ids, Below r a x.id ∧ ∃ e, r.entry? x.id = some e ∧ e.actor = x := by
  obtain ⟨a, ha, k, e, hk, he, rfl⟩ := (h.mem_iff x).1 hx
  rw [ht.keyed k e (mem_of_entry_eq he)]
  exact ⟨a, ha, hk, e, he, rfl⟩

/-- A walk from distinct actors at one depth lists every actor once, and none
before an actor below it. -/
theorem Tree.postOrder_nodup_pairwise (ht : r.Tree root) (hd : Depth root r d) {ids : List ActorId}
    {l : List ActorRef} (h : PostOrder r ids l) :
    ids.Nodup → (∀ a ∈ ids, ∀ b ∈ ids, d a = d b) →
      (l.map (·.id)).Nodup ∧ l.Pairwise fun x y => ¬Below r x.id y.id := by
  induction h with
  | nil => intro _ _; simp
  | gone _ _ ih =>
    intro hnd hdepth
    exact ih (List.nodup_cons.1 hnd).2 fun a ha b hb =>
      hdepth a (List.mem_cons_of_mem _ ha) b (List.mem_cons_of_mem _ hb)
  | @node a as e below rest ha hb hr ihb ihr =>
    intro hnd hdepth
    obtain ⟨hnotin, hnd'⟩ := List.nodup_cons.1 hnd
    have hid : e.actor.id = a := ht.keyed a e (mem_of_entry_eq ha)
    -- the children are distinct and one deeper than `a`
    have hkids : ∀ c ∈ e.children.map (·.2), d c = d a + 1 := by
      intro c hc
      obtain ⟨c', hc', rfl⟩ := List.mem_map.1 hc
      obtain ⟨-, -, hdc⟩ := ht.child hd ha hc'
      exact hdc
    obtain ⟨hbnd, hbpw⟩ := ihb (ht.nodup_children ha) fun x hx y hy => by rw [hkids x hx, hkids y hy]
    obtain ⟨hrnd, hrpw⟩ := ihr hnd' fun x hx y hy =>
      hdepth x (List.mem_cons_of_mem _ hx) y (List.mem_cons_of_mem _ hy)
    -- what the children's walk lists is strictly below `a`
    have hbelow : ∀ x ∈ below, Below r a x.id ∧ d a < d x.id := by
      intro x hx
      obtain ⟨c, hc, hcx, -⟩ := hb.below_of_mem ht hx
      obtain ⟨c', hc', rfl⟩ := List.mem_map.1 hc
      have hle := hcx.depth_le ht hd
      have hdc := hkids _ (List.mem_map_of_mem hc')
      exact ⟨.step c' ha hc' hcx, by omega⟩
    -- nothing the rest of the walk lists is below `a`
    have hrest : ∀ y ∈ rest, ¬Below r a y.id := by
      intro y hy hay
      obtain ⟨b, hb', hby, -⟩ := hr.below_of_mem ht hy
      have hab := ht.eq_of_below hd hay hby (hdepth a List.mem_cons_self b (List.mem_cons_of_mem _ hb'))
      exact hnotin (hab ▸ hb')
    refine ⟨?_, ?_⟩
    · rw [List.map_append, List.map_cons, List.nodup_append, List.nodup_cons]
      refine ⟨hbnd, ⟨fun hmem => ?_, hrnd⟩, fun x hx y hy hxy => ?_⟩
      · obtain ⟨y, hy, hya⟩ := List.mem_map.1 hmem
        exact hrest y hy (hya ▸ hid ▸ .self _)
      · obtain ⟨x', hx', rfl⟩ := List.mem_map.1 hx
        have hxa := hbelow x' hx'
        rcases List.mem_cons.1 hy with hy' | hy'
        · -- `a` is not strictly below itself
          have hxid : x'.id = a := hxy.trans (hy'.trans hid)
          rw [hxid] at hxa
          omega
        · obtain ⟨y', hy'', rfl⟩ := List.mem_map.1 hy'
          exact hrest y' hy'' (hxy ▸ hxa.1)
    · rw [List.pairwise_append, List.pairwise_cons]
      refine ⟨hbpw, ⟨fun y hy hay => hrest y hy (hid ▸ hay), hrpw⟩, fun x hx y hy hxy => ?_⟩
      have hxa := hbelow x hx
      rcases List.mem_cons.1 hy with rfl | hy
      · -- `a` is not below what lies strictly below it
        have := hxy.depth_le ht hd
        rw [hid] at this
        omega
      · exact hrest y hy (hxa.1.trans hxy)

/-- In a registry in name order, of two children of an actor below where the
walk starts, the walk lists the subtree of the one with the smaller name first. -/
theorem Tree.postOrder_by_name (ht : r.Tree root) (hn : r.NameOrdered) {ids : List ActorId}
    {l : List ActorRef} (h : PostOrder r ids l) {a p : ActorId} {pe : RegistryEntry} (ha : a ∈ ids)
    (hap : Below r a p) (hpe : r.entry? p = some pe) {c c' : String × ActorId} (hc : c ∈ pe.children)
    (hc' : c' ∈ pe.children) (hlt : c.1 < c'.1) {x y : ActorRef} (hx : x ∈ l) (hy : y ∈ l)
    (hcx : Below r c.2 x.id) (hcy : Below r c'.2 y.id) : [x, y].Sublist l := by
  obtain ⟨l', hl', hinf⟩ := h.infix_of_below hpe a ha hap
  obtain ⟨t₁, t₂, hsplit, hc₁, hc₂⟩ := (hn p pe hpe).split_of_lt hc hc' hlt
  rw [hsplit, List.map_append] at hl'
  obtain ⟨l₁, l₂, rfl, h₁, h₂⟩ := hl'.append
  -- each lies in the walk of the part of the table that holds its ancestor
  obtain ⟨-, -, -, ex, hex, hxe⟩ := h.below_of_mem ht hx
  obtain ⟨-, -, -, ey, hey, hye⟩ := h.below_of_mem ht hy
  have hx₁ : x ∈ l₁ := (h₁.mem_iff x).2 ⟨c.2, List.mem_map_of_mem hc₁, x.id, ex, hcx, hex, hxe⟩
  have hy₂ : y ∈ l₂ := (h₂.mem_iff y).2 ⟨c'.2, List.mem_map_of_mem hc₂, y.id, ey, hcy, hey, hye⟩
  exact ((List.singleton_sublist.2 hx₁).append (List.singleton_sublist.2 hy₂)).trans hinf.sublist

end Tree


/-! ## Removing a subtree -/

/-- What removing the subtree of `id` from `r` does, leaving `r'` and listing
`removed`. -/
structure RemovesSubtree (r : Registry) (id : ActorId) (r' : Registry) (removed : List ActorRef) :
    Prop where
  /-- The subtree, each actor after the subtrees of its children in table order. -/
  walk : PostOrder r [id] removed
  mem_iff : ∀ x, x ∈ removed ↔ ∃ k e, Below r id k ∧ r.entry? k = some e ∧ e.actor = x
  nodup : (removed.map (·.id)).Nodup
  /-- No actor is listed before an actor below it. -/
  children_first : removed.Pairwise fun x y => ¬Below r x.id y.id
  /-- Of two children of an actor in the subtree, the subtree of the one with
  the smaller name is listed first. -/
  by_name : ∀ p pe, Below r id p → r.entry? p = some pe → ∀ c ∈ pe.children, ∀ c' ∈ pe.children,
    c.1 < c'.1 → ∀ x ∈ removed, ∀ y ∈ removed, Below r c.2 x.id → Below r c'.2 y.id → [x, y].Sublist removed
  /-- Exactly the subtree is unregistered. -/
  contains_iff : ∀ k, r'.contains k = true ↔ r.contains k = true ∧ ¬Below r id k
  /-- The parent's table loses the actor's name. -/
  unlinked : ∀ ie p pe, r.entry? id = some ie → ie.parent = some p → r.entry? p = some pe →
    r'.entry? p = some { pe with children := pe.children.filter (·.1 != ie.actor.name) }
  /-- Every other entry is as it was. -/
  others : ∀ k, ¬Below r id k → (∀ ie, r.entry? id = some ie → ie.parent ≠ some k) →
    r'.entry? k = r.entry? k

section Tree

variable {root : ActorRef} {d : ActorId → Nat}

theorem Tree.not_below_parent (ht : r.Tree root) (hd : Depth root r d) {id p : ActorId}
    {ie : RegistryEntry} (hie : r.entry? id = some ie) (hp : ie.parent = some p) : ¬Below r id p := by
  intro h
  have hle := h.depth_le ht hd
  have hdp := hd.2 id ie p hie hp
  omega

theorem Tree.contains_removeSubtree_iff (ht : r.Tree root) (id k : ActorId) :
    (r.removeSubtree id).1.contains k = true ↔ r.contains k = true ∧ ¬Below r id k := by
  obtain ⟨d, hd⟩ := ht.depth
  by_cases hb : Below r id k
  · simp [contains, ht.entry?_removeSubtree_below hd hb, hb]
  · cases hk : r.entry? k with
    | none => simp [contains, entry?_removeSubtree_of_none id hk, hk]
    | some e =>
      obtain ⟨e', he', -⟩ := ht.entry?_removeSubtree_kept hd hb hk
      simp [contains, he', hk, hb]

theorem Tree.entry?_removeSubtree_parent (ht : r.Tree root) {id p : ActorId} {ie pe : RegistryEntry}
    (hie : r.entry? id = some ie) (hp : ie.parent = some p) (hpe : r.entry? p = some pe) :
    Registry.entry? (r.removeSubtree id).1 p =
      some { pe with children := pe.children.filter (·.1 != ie.actor.name) } := by
  obtain ⟨d, hd⟩ := ht.depth
  rw [ht.entry?_removeSubtree_not_below hd (ht.not_below_parent hd hie hp), entry?_unlink_parent hie hp,
    if_pos rfl, hpe, Option.map_some]

theorem Tree.entry?_removeSubtree_other (ht : r.Tree root) {id k : ActorId} (hnb : ¬Below r id k)
    (hpar : ∀ ie, r.entry? id = some ie → ie.parent ≠ some k) :
    Registry.entry? (r.removeSubtree id).1 k = r.entry? k := by
  obtain ⟨d, hd⟩ := ht.depth
  rw [ht.entry?_removeSubtree_not_below hd hnb]
  cases hie : r.entry? id with
  | none => simp [unlink, parent?, hie]
  | some ie =>
    cases hp : ie.parent with
    | none => simp [unlink, parent?, hie, hp]
    | some p =>
      rw [entry?_unlink_parent hie hp, if_neg]
      rintro rfl
      exact hpar ie hie hp

theorem Tree.removesSubtree (ht : r.Tree root) (hn : r.NameOrdered) (id : ActorId) :
    RemovesSubtree r id (r.removeSubtree id).1 (r.removeSubtree id).2 := by
  obtain ⟨d, hd⟩ := ht.depth
  have hwalk := ht.postOrder_removeSubtree id
  obtain ⟨hnd, hpw⟩ := ht.postOrder_nodup_pairwise hd hwalk (List.nodup_singleton id) (by simp)
  exact ⟨hwalk, mem_removeSubtree ht hd id, hnd, hpw,
    fun _ _ hp hpe _ hc _ hc' hlt _ hx _ hy hcx hcy =>
      ht.postOrder_by_name hn hwalk List.mem_cons_self hp hpe hc hc' hlt hx hy hcx hcy,
    ht.contains_removeSubtree_iff id,
    fun _ _ _ hie hp hpe => ht.entry?_removeSubtree_parent hie hp hpe,
    fun _ hnb hpar => ht.entry?_removeSubtree_other hnb hpar⟩

/-! ## Removing the descendants of the root -/

theorem Tree.live_of_below (ht : r.Tree root) {a k : ActorId} (h : Below r a k) :
    ∀ {ea : RegistryEntry}, r.entry? a = some ea → ∃ e, r.entry? k = some e := by
  induction h with
  | self => exact fun ha => ⟨_, ha⟩
  | step c ha' hc _ ih =>
    intro _ _
    obtain ⟨ce, hce, -, -⟩ := ht.down _ _ ha' c hc
    exact ih hce

theorem Tree.entry?_eq_none_of_childless (ht : r.Tree root) {re : RegistryEntry}
    (hre : r.entry? root.id = some re) (hnil : re.children = []) :
    ∀ k, k ≠ root.id → r.entry? k = none := by
  obtain ⟨d, hd⟩ := ht.depth
  -- by induction on the depth: a live actor's parent is live and one step shallower
  suffices h : ∀ n k, d k = n → k ≠ root.id → r.entry? k = none from fun k hk => h _ k rfl hk
  intro n
  induction n using Nat.strong_induction_on with
  | _ n ih =>
    intro k hdk hk
    cases he : r.entry? k with
    | none => rfl
    | some e =>
      obtain ⟨p, pe, hp, hpe, hmem⟩ := ht.up k e he hk
      by_cases hpr : p = root.id
      · subst hpr
        rw [hre] at hpe
        cases hpe
        rw [hnil] at hmem
        cases hmem
      · have hdp := hd.2 k e p he hp
        rw [ih (d p) (by omega) p rfl hpr] at hpe
        cases hpe

theorem filter_name_ne_cons {c : String × ActorId} {rest : List (String × ActorId)}
    (h : ((c :: rest).map (·.1)).Nodup) : (c :: rest).filter (·.1 != c.1) = rest := by
  rw [List.filter_cons_of_neg (by simp), List.filter_eq_self]
  intro x hx
  have hne : x.1 ≠ c.1 := fun hx' => (List.nodup_cons.1 h).1 (List.mem_map.2 ⟨x, hx, hx'⟩)
  simpa using hne

/-- The rounds of removing the root's descendants, from a registry that agrees
with `r` but for the entries already removed: each lists what removing that
child's subtree from `r` lists. -/
theorem Tree.removeStep_foldl_prunes (ht : r.Tree root) {re : RegistryEntry}
    (hre : r.entry? root.id = some re) :
    ∀ (rest : List (String × ActorId)) (r₀ : Registry) (acc : List ActorRef), r₀.Tree root →
      (∀ k, k ≠ root.id → r₀.entry? k = none ∨ r₀.entry? k = r.entry? k) →
      r₀.entry? root.id = some { re with children := rest } →
      (rest.foldl removeStep (r₀, acc)).2 = acc ++ rest.flatMap (fun c => (r.removeSubtree c.2).2) ∧
        (rest.foldl removeStep (r₀, acc)).1.Tree root ∧
        Registry.entry? (rest.foldl removeStep (r₀, acc)).1 root.id = some { re with children := [] }
  | [], r₀, acc, ht₀, _, hroot => by simpa using ⟨ht₀, hroot⟩
  | c :: rest, r₀, acc, ht₀, hagree, hroot => by
    obtain ⟨d₀, hd₀⟩ := ht₀.depth
    rw [List.foldl_cons, removeStep_eq, List.flatMap_cons, ← List.append_assoc]
    have hc : c ∈ ({ re with children := c :: rest } : RegistryEntry).children := List.mem_cons_self
    have hcroot := ht₀.child_ne_root hroot hc
    obtain ⟨ce, hce, hcp, hcn⟩ := ht₀.down _ _ hroot c hc
    -- the child's subtree is live, holds no root, and so is as it was in `r`
    have hsame : (r₀.removeSubtree c.2).2 = (r.removeSubtree c.2).2 := by
      refine ((ht₀.postOrder_removeSubtree c.2).of_agree fun a ha k hk => ?_).unique
        (ht.postOrder_removeSubtree c.2)
      rw [List.mem_singleton] at ha
      subst ha
      obtain ⟨ek, hek⟩ := ht₀.live_of_below hk hce
      have hkroot : k ≠ root.id := fun h => ht₀.not_below_root hd₀ hcroot (h ▸ hk)
      rcases hagree k hkroot with h | h
      · rw [hek] at h
        cases h
      · exact h
    rw [hsame]
    refine Tree.removeStep_foldl_prunes ht hre rest _ _ (ht₀.removeSubtree hcroot) (fun k hk => ?_) ?_
    · -- an entry goes with the subtree, or stays as it was
      by_cases hb : Below r₀ c.2 k
      · exact .inl (ht₀.entry?_removeSubtree_below hd₀ hb)
      · rw [ht₀.entry?_removeSubtree_other hb fun ie hie hp => ?_]
        · exact hagree k hk
        · rw [hce] at hie
          cases hie
          rw [hcp] at hp
          cases hp
          exact hk rfl
    · -- the root's table loses the name of `c`
      rw [ht₀.entry?_removeSubtree_parent hce hcp hroot, hcn, filter_name_ne_cons (ht₀.names _ _ hroot)]

/-- Removing every descendant of the root lists what removing each child's
subtree would, in table order, and leaves the root alone and childless. -/
structure PrunesToRoot (r : Registry) (root : ActorRef) (r' : Registry) (removed : List ActorRef) :
    Prop where
  removed_eq : ∀ re, r.entry? root.id = some re →
    removed = re.children.flatMap fun c => (r.removeSubtree c.2).2
  only_root : ∀ k, r'.entry? k = Registry.entry? (ofRoot root) k

theorem Tree.prunesToRoot (ht : r.Tree root) :
    PrunesToRoot r root (r.removeDescendants root.id).1 (r.removeDescendants root.id).2 := by
  obtain ⟨re, hre, hra, hrp⟩ := ht.rooted
  obtain ⟨hremoved, htree, hroot⟩ :=
    ht.removeStep_foldl_prunes hre re.children r [] ht (fun _ _ => .inr rfl) hre
  rw [removeDescendants_eq, hre, Option.map_some, Option.getD_some]
  refine ⟨fun re' hre' => ?_, fun k => ?_⟩
  · rw [hre] at hre'
    cases hre'
    rw [hremoved, List.nil_append]
  rw [entry?_ofRoot]
  by_cases hk : k = root.id
  · subst hk
    rw [if_pos rfl, hroot]
    obtain ⟨actor, parent, children⟩ := re
    simp only at hra hrp
    rw [hra, hrp]
  · rw [if_neg (Ne.symm hk), htree.entry?_eq_none_of_childless hroot rfl k hk]

/-- In a tree with tables in name order, removing a subtree lists it children
first, in name order, each actor once, and unregisters exactly it; removing the
root's descendants leaves the root alone. -/
theorem Tree.remove_subtree_and_descendants (ht : r.Tree root) (hn : r.NameOrdered) (id : ActorId) :
    RemovesSubtree r id (r.removeSubtree id).1 (r.removeSubtree id).2 ∧
      PrunesToRoot r root (r.removeDescendants root.id).1 (r.removeDescendants root.id).2 :=
  ⟨ht.removesSubtree hn id, ht.prunesToRoot⟩

end Tree


/-- A game with a player, who has a scout and a helper, registered in that order. -/
def family : Registry :=
  { entries := [(0, { actor := ⟨0, "game"⟩, parent := none, children := [("player", 1)] }),
                (1, { actor := ⟨1, "player"⟩, parent := some 0, children := [("helper", 3), ("scout", 2)] }),
                (2, { actor := ⟨2, "scout"⟩, parent := some 1 }),
                (3, { actor := ⟨3, "helper"⟩, parent := some 1 })] }

/-- Removing the player from the game's registry, and removing everything below
the game, behave as `remove_subtree_and_descendants` says. -/
theorem family_removes_player :
    family.Tree ⟨0, "game"⟩ ∧ family.NameOrdered ∧
      RemovesSubtree family 1 (family.removeSubtree 1).1 (family.removeSubtree 1).2 ∧
      PrunesToRoot family ⟨0, "game"⟩ (family.removeDescendants 0).1 (family.removeDescendants 0).2 := by
  have hplayer : (ofRoot ⟨0, "game"⟩).register 0 ⟨1, "player"⟩ =
      .ok { entries := [(0, { actor := ⟨0, "game"⟩, parent := none, children := [("player", 1)] }),
                        (1, { actor := ⟨1, "player"⟩, parent := some 0 })] } := by decide
  have hscout : Registry.register
      { entries := [(0, { actor := ⟨0, "game"⟩, parent := none, children := [("player", 1)] }),
                    (1, { actor := ⟨1, "player"⟩, parent := some 0 })] } 1 ⟨2, "scout"⟩ =
      .ok { entries := [(0, { actor := ⟨0, "game"⟩, parent := none, children := [("player", 1)] }),
                        (1, { actor := ⟨1, "player"⟩, parent := some 0, children := [("scout", 2)] }),
                        (2, { actor := ⟨2, "scout"⟩, parent := some 1 })] } := by decide
  have hhelper : Registry.register
      { entries := [(0, { actor := ⟨0, "game"⟩, parent := none, children := [("player", 1)] }),
                    (1, { actor := ⟨1, "player"⟩, parent := some 0, children := [("scout", 2)] }),
                    (2, { actor := ⟨2, "scout"⟩, parent := some 1 })] } 1 ⟨3, "helper"⟩ = .ok family := by
    decide
  have ht : family.Tree ⟨0, "game"⟩ :=
    (((tree_ofRoot ⟨0, "game"⟩).register hplayer (by decide)).register hscout (by decide)).register hhelper
      (by decide)
  have hn : family.NameOrdered :=
    (((nameOrdered_ofRoot ⟨0, "game"⟩).register hplayer).register hscout).register hhelper
  exact ⟨ht, hn, Tree.remove_subtree_and_descendants ht hn 1⟩

end Registry

end Statechart
