import Statechart.Proofs.Tree.Layout
import Statechart.Proofs.Tree.WellFormed
/-!
# Built trees are well shaped

When adding the root records no problem, its layout covers the whole node
array (`TreeBuilder.addNode_clean`). Every node then heads a layout of its own
inside the root's block: the root has no parent, every other node is a child
of an earlier one (`Lays.sub`), and each node's children are the blocks that
follow it, one per configured child, with the configured keys. That gives
every link of a well-shaped tree except the ids.

Ids are registered in index order, an id already taken being a problem; when
there is none, the registered pairs are exactly the nodes' ids with their
indices, each id once, so an id names a node exactly when it is that node's id.
-/
namespace Statechart

/-- The configured state a path of keys leads to from `c`: at each step the
first child with the key. -/
def StateConfig.at (c : StateConfig) : List String → Option StateConfig
  | [] => some c
  | k :: ks => ((c.states.find? fun e => e.1 == k).map Prod.snd).bind fun c' => c'.at ks

theorem find?_fst_eq_some {β : Type} {l : List (String × β)} (hl : (l.map Prod.fst).Nodup)
    {k : String} {v : β} : (l.find? fun e => e.1 == k) = some (k, v) ↔ (k, v) ∈ l := by
  induction l with
  | nil => simp
  | cons e l ih =>
    obtain ⟨a, b⟩ := e
    rw [List.map_cons, List.nodup_cons] at hl
    by_cases hak : a = k
    · subst hak
      have hnot : (a, v) ∉ l := fun h => hl.1 (List.mem_map.2 ⟨(a, v), h, rfl⟩)
      simp [hnot, eq_comm]
    · simp [hak, Ne.symm hak, ih hl.2]

/-- A path to a state, followed by the key of one of its configured children,
leads to that child, when the children's keys are distinct. -/
theorem StateConfig.at_append_child {root config cfg : StateConfig} {path : List String}
    {k : String} (hat : root.at path = some config) (hkeys : (config.states.map Prod.fst).Nodup)
    (hmem : (k, cfg) ∈ config.states) : root.at (path ++ [k]) = some cfg := by
  induction path generalizing root with
  | nil =>
    simp only [StateConfig.at, Option.some.injEq] at hat
    subst hat
    simp [StateConfig.at, (find?_fst_eq_some hkeys).2 hmem]
  | cons k' ks ih =>
    simp only [StateConfig.at, List.cons_append, Option.bind_eq_some_iff] at hat ⊢
    obtain ⟨c', hc', hrest⟩ := hat
    exact ⟨c', hc', ih hrest⟩

namespace TreeBuilder

section Sub

variable {nodes : Array Node} {srcs : List (Nat × StateConfig)} {mid : String}

mutual
/-- Every node of a layout heads a layout of its own inside the block, of the
configured state its path leads to. -/
theorem Lays.sub (root : StateConfig) : ∀ {parent : Option Nat} {path : List String}
    {key : String} (config : StateConfig) {lo hi : Nat},
    Lays nodes srcs mid parent path key config lo hi → root.at path = some config →
    ∀ j, lo ≤ j → j < hi → ∃ par pth k cfg hj, Lays nodes srcs mid par pth k cfg j hj ∧ hj ≤ hi ∧
      root.at pth = some cfg ∧ ((j = lo ∧ par = parent) ∨
        ∃ q, par = some q ∧ lo ≤ q ∧ q < j ∧ j ∈ (nodes[q]?.getD default).children)
  | parent, path, key, ⟨_, _, _, _, _, _, _, states⟩, lo, hi, h, hat, j, hlo, hhi => by
    by_cases hj : j = lo
    · subst hj
      exact ⟨parent, path, key, _, hi, h, Nat.le_refl _, hat, .inl ⟨rfl, rfl⟩⟩
    · obtain ⟨n, hget, -, hfresh, hb⟩ := h
      obtain ⟨par, pth, k, cfg, hj', hl, hle, hat', hrel⟩ := LaysBelow.sub root states hb
        (fun _ _ hmem => StateConfig.at_append_child hat hfresh.keys_nodup hmem) j (by omega) hhi
      refine ⟨par, pth, k, cfg, hj', hl, hle, hat', .inr ?_⟩
      rcases hrel with ⟨hpar, hmem⟩ | ⟨q, hpar, hq, hqj, hmem⟩
      · refine ⟨lo, hpar, Nat.le_refl _, by omega, ?_⟩
        rw [hget, Option.getD_some]
        exact hmem
      · exact ⟨q, hpar, by omega, hqj, hmem⟩

/-- Every node of the blocks of a state's children heads a layout of its own
inside them: a child of the state, or of an earlier node of the blocks. -/
theorem LaysBelow.sub (root : StateConfig) {p : Nat} {path : List String} : ∀ {cs : List Nat}
    (states : List (String × StateConfig)) {lo hi : Nat},
    LaysBelow nodes srcs mid p path cs states lo hi →
    (∀ k cfg, (k, cfg) ∈ states → root.at (path ++ [k]) = some cfg) →
    ∀ j, lo ≤ j → j < hi → ∃ par pth k cfg hj, Lays nodes srcs mid par pth k cfg j hj ∧ hj ≤ hi ∧
      root.at pth = some cfg ∧ ((par = some p ∧ j ∈ cs) ∨
        ∃ q, par = some q ∧ lo ≤ q ∧ q < j ∧ j ∈ (nodes[q]?.getD default).children)
  | [], [], lo, hi, h, _, j, hlo, hhi => by
    have : lo = hi := h
    omega
  | c :: cs, (k, config) :: rest, lo, hi, ⟨hc, m, hl, hb⟩, hat, j, hlo, hhi => by
    have hmhi := LaysBelow.le rest hb
    have hlom := Lays.lt config hl
    by_cases hjm : j < m
    · obtain ⟨par, pth, k', cfg, hj', hl', hle, hat', hrel⟩ :=
        Lays.sub root config hl (hat k config List.mem_cons_self) j hlo hjm
      refine ⟨par, pth, k', cfg, hj', hl', by omega, hat', ?_⟩
      rcases hrel with ⟨hjlo, hpar⟩ | hdeep
      · refine .inl ⟨hpar, ?_⟩
        rw [hjlo, ← hc]
        exact List.mem_cons_self
      · exact .inr hdeep
    · obtain ⟨par, pth, k', cfg, hj', hl', hle, hat', hrel⟩ := LaysBelow.sub root rest hb
        (fun k cfg hmem => hat k cfg (List.mem_cons_of_mem _ hmem)) j (by omega) hhi
      refine ⟨par, pth, k', cfg, hj', hl', hle, hat', ?_⟩
      rcases hrel with ⟨hpar, hmem⟩ | ⟨q, hpar, hq, hqj, hmem⟩
      · exact .inl ⟨hpar, List.mem_cons_of_mem _ hmem⟩
      · exact .inr ⟨q, hpar, by omega, hqj, hmem⟩
  | [], _ :: _, _, _, h, _, _, _, _ => h.elim
  | _ :: _, [], _, _, h, _, _, _, _ => h.elim
end

theorem LaysBelow.mem {p : Nat} {path : List String} : ∀ {cs : List Nat}
    {states : List (String × StateConfig)} {lo hi : Nat},
    LaysBelow nodes srcs mid p path cs states lo hi → ∀ {c : Nat}, c ∈ cs →
      ∃ k cfg m, Lays nodes srcs mid (some p) (path ++ [k]) k cfg c m ∧ m ≤ hi
  | [], [], _, _, _, _, hc => nomatch hc
  | _ :: _, (k, config) :: rest, _, _, ⟨hc, m, hl, hb⟩, _, hmem => by
    rcases List.mem_cons.1 hmem with rfl | hmem
    · exact ⟨k, config, m, hc ▸ hl, LaysBelow.le rest hb⟩
    · exact LaysBelow.mem hb hmem
  | [], _ :: _, _, _, h, _, _ => h.elim
  | _ :: _, [], _, _, h, _, _ => h.elim

theorem LaysBelow.keys {p : Nat} {path : List String} : ∀ {cs : List Nat}
    {states : List (String × StateConfig)} {lo hi : Nat},
    LaysBelow nodes srcs mid p path cs states lo hi →
      cs.map (fun c => (nodes[c]?.getD default).key) = states.map Prod.fst
  | [], [], _, _, _ => rfl
  | _ :: _, (k, config) :: rest, _, _, ⟨hc, _, hl, hb⟩ => by
    obtain ⟨n, hget, -, hfresh, -⟩ := lays_iff.1 hl
    rw [List.map_cons, List.map_cons, hc, hget, Option.getD_some, hfresh.key, LaysBelow.keys hb]
  | [], _ :: _, _, _, h => h.elim
  | _ :: _, [], _, _, h => h.elim

theorem LaysBelow.eq_nil_iff {p : Nat} {path : List String} : ∀ {cs : List Nat}
    {states : List (String × StateConfig)} {lo hi : Nat},
    LaysBelow nodes srcs mid p path cs states lo hi → (cs = [] ↔ states = [])
  | [], [], _, _, _ => by simp
  | _ :: _, _ :: _, _, _, _ => by simp
  | [], _ :: _, _, _, h => h.elim
  | _ :: _, [], _, _, h => h.elim

/-- What the root's layout says of each node: its configuration, its children's
blocks and where it hangs. -/
theorem lays_root_node {config : StateConfig}
    (h : Lays nodes srcs mid none [] "" config 0 nodes.size) {j : Nat} (hj : j < nodes.size) :
    ∃ n par pth k cfg hi, nodes[j]? = some n ∧ (j, cfg) ∈ srcs ∧ Fresh mid par pth k cfg n ∧
      LaysBelow nodes srcs mid j pth n.children cfg.states (j + 1) hi ∧ hi ≤ nodes.size ∧
      config.at pth = some cfg ∧ ((j = 0 ∧ par = none) ∨
        ∃ q, par = some q ∧ q < j ∧ j ∈ (nodes[q]?.getD default).children) := by
  obtain ⟨par, pth, k, cfg, hi, hl, hle, hat, hrel⟩ :=
    Lays.sub config config h rfl j (Nat.zero_le _) hj
  obtain ⟨n, hget, hsrc, hfresh, hb⟩ := lays_iff.1 hl
  refine ⟨n, par, pth, k, cfg, hi, hget, hsrc, hfresh, hb, hle, hat, ?_⟩
  rcases hrel with hroot | ⟨q, hpar, -, hqj, hmem⟩
  · exact .inl hroot
  · exact .inr ⟨q, hpar, hqj, hmem⟩

end Sub

/-! ## The shape of a built tree -/

section Shape

variable {nodes : Array Node} {srcs : List (Nat × StateConfig)} {mid : String}
  {config : StateConfig} {ids : List (String × Nat)}

private theorem getD_of_getElem? {j : Nat} {n : Node} (h : nodes[j]? = some n) :
    nodes[j]?.getD default = n := by
  rw [h, Option.getD_some]

private theorem getD_of_size_le {j : Nat} (h : nodes.size ≤ j) :
    nodes[j]?.getD default = default := by
  rw [Array.getElem?_eq_none h, Option.getD_none]

private theorem child_of_lays (h : Lays nodes srcs mid none [] "" config 0 nodes.size) {p c : Nat}
    (hc : c ∈ (nodes[p]?.getD default).children) :
    ∃ n pth k cfg m, nodes[c]? = some n ∧ Fresh mid (some p) (pth ++ [k]) k cfg n ∧
      (nodes[p]?.getD default).path = pth ∧ c < nodes.size ∧
      (nodes[p]?.getD default).children.map (fun c => (nodes[c]?.getD default).key) =
        (m : List (String × StateConfig)).map Prod.fst ∧ (m.map Prod.fst).Nodup ∧
        ∀ k ∈ m.map Prod.fst, validKey k = true := by
  by_cases hp : p < nodes.size
  · obtain ⟨np, par, pth, kp, cfg, hi, hget, -, hfresh, hb, hle, -, -⟩ := lays_root_node h hp
    rw [getD_of_getElem? hget] at hc ⊢
    obtain ⟨k, cfgc, m, hl, hm⟩ := hb.mem hc
    obtain ⟨n, hgetc, -, hfreshc, hbc⟩ := lays_iff.1 hl
    have hcm := Lays.lt cfgc hl
    refine ⟨n, pth, k, cfgc, cfg.states, hgetc, ?_, hfresh.path, by omega, hb.keys,
      hfresh.keys_nodup, hfresh.keys_valid⟩
    exact hfreshc
  · rw [getD_of_size_le (by omega)] at hc
    cases hc

/-- A layout of the root over the whole node array, with ids that name
exactly their nodes, is a well-shaped tree. -/
theorem wellShaped_of_lays (h : Lays nodes srcs mid none [] "" config 0 nodes.size)
    (hids : ∀ id n, (⟨nodes, ids⟩ : StateTree).byId id = some n ↔
      n < nodes.size ∧ (nodes[n]?.getD default).id = id) :
    (⟨nodes, ids⟩ : StateTree).WellShaped := by
  obtain ⟨n₀, hget₀, -, hfresh₀, -⟩ := lays_iff.1 h
  refine ⟨Lays.lt config h, ?_, ?_, ?_, ?_, ?_, ?_, ?_, ?_, ?_, ?_, ?_, ?_, ?_, ?_⟩
  · -- the root
    show (nodes[0]?.getD default).parent = none
    rw [getD_of_getElem? hget₀, hfresh₀.parent]
  · show (nodes[0]?.getD default).path = []
    rw [getD_of_getElem? hget₀, hfresh₀.path]
  · -- parents come first
    intro i p hp
    change (nodes[i]?.getD default).parent = some p at hp
    by_cases hi : i < nodes.size
    · obtain ⟨n, par, _, _, _, _, hget, -, hfresh, -, -, -, hrel⟩ := lays_root_node h hi
      rw [getD_of_getElem? hget, hfresh.parent] at hp
      rcases hrel with ⟨-, rfl⟩ | ⟨q, rfl, hq, -⟩
      · cases hp
      · cases hp
        exact hq
    · rw [getD_of_size_le (by omega)] at hp
      cases hp
  · -- every node but the root hangs from a parent
    intro i hi hroot
    obtain ⟨n, par, _, _, _, _, hget, -, hfresh, -, -, -, hrel⟩ := lays_root_node h hi
    show ∃ p, (nodes[i]?.getD default).parent = some p
    rw [getD_of_getElem? hget, hfresh.parent]
    rcases hrel with ⟨hi0, -⟩ | ⟨q, hq, -⟩
    · exact absurd hi0 hroot
    · exact ⟨q, hq⟩
  · -- children lists and parent links agree
    intro p c
    show c ∈ (nodes[p]?.getD default).children ↔
      c < nodes.size ∧ (nodes[c]?.getD default).parent = some p
    constructor
    · intro hc
      obtain ⟨n, _, _, _, _, hgetc, hfreshc, -, hlt, -⟩ := child_of_lays h hc
      rw [getD_of_getElem? hgetc, hfreshc.parent]
      exact ⟨hlt, rfl⟩
    · rintro ⟨hc, hp⟩
      obtain ⟨n, par, _, _, _, _, hget, -, hfresh, -, -, -, hrel⟩ := lays_root_node h hc
      rw [getD_of_getElem? hget, hfresh.parent] at hp
      rcases hrel with ⟨-, rfl⟩ | ⟨q, rfl, -, hmem⟩
      · cases hp
      · cases hp
        exact hmem
  · -- a child's path extends its parent's by its key
    intro p c hc
    obtain ⟨n, pth, k, _, _, hgetc, hfreshc, hpath, -⟩ := child_of_lays h hc
    show (nodes[c]?.getD default).path =
      (nodes[p]?.getD default).path ++ [(nodes[c]?.getD default).key]
    rw [getD_of_getElem? hgetc, hfreshc.path, hfreshc.key, hpath]
  · -- sibling keys
    intro p
    show ((nodes[p]?.getD default).children.map fun c => (nodes[c]?.getD default).key).Nodup
    cases hc : (nodes[p]?.getD default).children with
    | nil => exact List.nodup_nil
    | cons c cs =>
      obtain ⟨_, _, _, _, m, -, -, -, -, hkeys, hnodup, -⟩ :=
        child_of_lays h (hc ▸ List.mem_cons_self : c ∈ (nodes[p]?.getD default).children)
      rw [hc] at hkeys
      rw [hkeys]
      exact hnodup
  · intro p c hc
    obtain ⟨_, _, _, _, m, -, -, -, -, hkeys, -, hvalid⟩ := child_of_lays h hc
    show validKey (nodes[c]?.getD default).key = true
    apply hvalid
    rw [← hkeys]
    exact List.mem_map_of_mem hc
  · -- a final state is a leaf
    intro i hk
    change (nodes[i]?.getD default).kind = .final at hk
    show (nodes[i]?.getD default).children = []
    by_cases hi : i < nodes.size
    · obtain ⟨n, _, _, _, cfg, _, hget, -, hfresh, hb, -⟩ := lays_root_node h hi
      rw [getD_of_getElem? hget] at hk ⊢
      have hfinal : cfg.kind = some .final := by
        rw [hfresh.kind, kindOf] at hk
        split at hk
        next hf => exact beq_iff_eq.1 hf
        next => split at hk <;> cases hk
      exact (hb.eq_nil_iff).2 (hfresh.final hfinal)
    · rw [getD_of_size_le (by omega)]
      rfl
  · -- a compound state is one with children
    intro i
    show (nodes[i]?.getD default).kind = .compound ↔ (nodes[i]?.getD default).children ≠ []
    by_cases hi : i < nodes.size
    · obtain ⟨n, _, _, _, cfg, _, hget, -, hfresh, hb, -⟩ := lays_root_node h hi
      rw [getD_of_getElem? hget, hfresh.kind, Ne, hb.eq_nil_iff, kindOf]
      by_cases hf : (cfg.kind == some .final) = true
      · rw [if_pos hf, hfresh.final (beq_iff_eq.1 hf)]
        simp
      · rw [if_neg hf]
        by_cases he : cfg.states.isEmpty = true
        · rw [if_pos he, List.isEmpty_iff.1 he]
          simp
        · rw [if_neg he]
          simpa using he
    · rw [getD_of_size_le (by omega)]
      constructor
      · intro hk
        cases hk
      · intro hne
        exact absurd rfl hne
  · -- initial children
    intro i hk
    change (nodes[i]?.getD default).kind = .compound at hk
    show ∃ c ∈ (nodes[i]?.getD default).children, (nodes[i]?.getD default).initial = some c
    by_cases hi : i < nodes.size
    · obtain ⟨n, _, _, _, _, _, hget, -, hfresh, -⟩ := lays_root_node h hi
      rw [getD_of_getElem? hget] at hk ⊢
      exact hfresh.initial_mem hk
    · rw [getD_of_size_le (by omega)] at hk
      cases hk
  · intro i hk
    change (nodes[i]?.getD default).kind ≠ .compound at hk
    show (nodes[i]?.getD default).initial = none
    by_cases hi : i < nodes.size
    · obtain ⟨n, _, _, _, _, _, hget, -, hfresh, -⟩ := lays_root_node h hi
      rw [getD_of_getElem? hget] at hk ⊢
      exact hfresh.initial_leaf hk
    · rw [getD_of_size_le (by omega)]
      rfl
  · -- ids
    intro i hi
    exact (hids _ i).2 ⟨hi, rfl⟩
  · intro id n hn
    exact (hids id n).1 hn

end Shape

/-! ## Ids -/

section Ids

theorem errors_prefix_indexIds_go : ∀ (ns : List Node) (i : Nat) (ids : List (String × Nat))
    (errs : List ConfigError), errs <+: (indexIds.go ns i ids errs).2
  | [], _, _, _ => List.prefix_refl _
  | n :: ns, i, ids, errs => by
    unfold indexIds.go
    split
    · exact (List.prefix_append _ _).trans (errors_prefix_indexIds_go ns _ _ _)
    · exact errors_prefix_indexIds_go ns _ _ _

/-- The pairs registered from index `i` on: those registered before, and each
node's id with its index. -/
theorem mem_indexIds_go : ∀ (ns : List Node) (i : Nat) (ids : List (String × Nat))
    (errs : List ConfigError) (k : String) (v : Nat),
    (k, v) ∈ (indexIds.go ns i ids errs).1 ↔
      (k, v) ∈ ids ∨ ∃ j n, ns[j]? = some n ∧ v = i + j ∧ k = n.id
  | [], _, _, _, _, _ => by simp [indexIds.go]
  | n :: ns, i, ids, errs, k, v => by
    -- the head's pair joins those registered before
    have step : ((k, v) ∈ (n.id, i) :: ids ∨ ∃ j n', ns[j]? = some n' ∧ v = i + 1 + j ∧ k = n'.id) ↔
        (k, v) ∈ ids ∨ ∃ j n', (n :: ns)[j]? = some n' ∧ v = i + j ∧ k = n'.id := by
      simp only [List.mem_cons, Prod.mk.injEq]
      constructor
      · rintro ((⟨rfl, rfl⟩ | h) | ⟨j, n', hj, rfl, rfl⟩)
        · exact .inr ⟨0, n, rfl, by omega, rfl⟩
        · exact .inl h
        · exact .inr ⟨j + 1, n', by simpa using hj, by omega, rfl⟩
      · rintro (h | ⟨_ | j, n', hj, rfl, rfl⟩)
        · exact .inl (.inr h)
        · simp only [List.getElem?_cons_zero, Option.some.injEq] at hj
          subst hj
          exact .inl (.inl ⟨rfl, by omega⟩)
        · exact .inr ⟨j, n', by simpa using hj, by omega, rfl⟩
    unfold indexIds.go
    split <;> rw [mem_indexIds_go ns (i + 1) ((n.id, i) :: ids) _ k v, step]

theorem nodup_indexIds_go : ∀ (ns : List Node) (i : Nat) (ids : List (String × Nat))
    (errs : List ConfigError), (ids.map Prod.fst).Nodup → (indexIds.go ns i ids errs).2 = errs →
      ((indexIds.go ns i ids errs).1.map Prod.fst).Nodup
  | [], _, _, _, h, _ => h
  | n :: ns, i, ids, errs, h, herr => by
    unfold indexIds.go at herr ⊢
    split at herr
    · have hpre :=
        errors_prefix_indexIds_go ns (i + 1) ((n.id, i) :: ids) (errs ++ [.duplicateId n.id])
      rw [herr] at hpre
      have := hpre.length_le
      simp only [List.length_append, List.length_singleton] at this
      omega
    next hany =>
      rw [if_neg hany]
      refine nodup_indexIds_go ns (i + 1) _ errs ?_ herr
      rw [List.map_cons, List.nodup_cons]
      refine ⟨fun hmem => hany ?_, h⟩
      obtain ⟨⟨k, v⟩, hkv, hk⟩ := List.mem_map.1 hmem
      exact List.any_eq_true.2 ⟨(k, v), hkv, by simpa using hk⟩

/-- When no id is taken twice, an id names a node of the tree exactly when it
is that node's id. -/
theorem byId_indexIds {nodes : Array Node} (h : (indexIds nodes.toList).2 = []) (id : String)
    (n : Nat) : (⟨nodes, (indexIds nodes.toList).1⟩ : StateTree).byId id = some n ↔
      n < nodes.size ∧ (nodes[n]?.getD default).id = id := by
  have hnodup := nodup_indexIds_go nodes.toList 0 [] [] List.nodup_nil h
  show ((indexIds.go nodes.toList 0 [] []).1.find? fun e => e.1 == id).map Prod.snd = some n ↔ _
  rw [Option.map_eq_some_iff]
  constructor
  · rintro ⟨⟨k, v⟩, hfind, rfl⟩
    have hk : k = id := by simpa using List.find?_some hfind
    subst hk
    rw [find?_fst_eq_some hnodup, mem_indexIds_go] at hfind
    rcases hfind with hnil | ⟨j, node, hj, rfl, rfl⟩
    · cases hnil
    · rw [Array.getElem?_toList] at hj
      rw [Nat.zero_add, hj, Option.getD_some]
      exact ⟨(Array.getElem?_eq_some_iff.1 hj).1, rfl⟩
  · rintro ⟨hn, hid⟩
    refine ⟨(id, n), (find?_fst_eq_some hnodup).2 ?_, rfl⟩
    rw [mem_indexIds_go]
    refine .inr ⟨n, nodes[n], by rw [Array.getElem?_toList, Array.getElem?_eq_getElem hn],
      (Nat.zero_add n).symm, ?_⟩
    rw [Array.getElem?_eq_getElem hn, Option.getD_some] at hid
    exact hid.symm

end Ids

end TreeBuilder

end Statechart
