import Statechart.Proofs.Json.Values
import Statechart.Config.Read
import Statechart.Config.Write
/-!
# Configurations read back from their JSON

Reading what `MachineConfig.toJson` wrote gives the configuration back, with
one change: a candidate list is written as an array, and the empty array reads
as one candidate without fields. `always` is left out when empty, so reading
back gives `readBack`, with every empty `on` list replaced by `[{}]`
(`ofJson?_toJson`). The proof follows the reader: a state object is read member
by member (`stateMembers_go_gives`), the fields read so far being those of the
written state whose names were met (`readFields`).
-/
namespace Statechart

open Json Json.Pretty ConfigReader

/-! ## What reading gives back -/

/-- A candidate list as reading its written form gives it back: the empty list
becomes the one candidate without fields. -/
def candidatesReadBack (cs : List CandidateConfig) : List CandidateConfig :=
  if cs.isEmpty then [{}] else cs

namespace StateConfig

/-- A state as reading its written form gives it back: in it and below it,
every empty candidate list of `on` becomes the one candidate without fields. -/
def readBack : StateConfig → StateConfig
  | ⟨id, kind, initial, entry, exit, on, always, states⟩ =>
    ⟨id, kind, initial, entry, exit, on.map fun p => (p.1, candidatesReadBack p.2), always,
      readBackChildren states⟩
where
  /-- Child states as reading gives them back. -/
  readBackChildren : List (String × StateConfig) → List (String × StateConfig)
    | [] => []
    | (k, s) :: rest => (k, readBack s) :: readBackChildren rest

/-- The candidate lists of `on`, in the state and below it. -/
def onLists : StateConfig → List (List CandidateConfig)
  | ⟨_, _, _, _, _, on, _, states⟩ => on.map Prod.snd ++ onListsChildren states
where
  /-- The candidate lists of `on` in some child states and below them. -/
  onListsChildren : List (String × StateConfig) → List (List CandidateConfig)
    | [] => []
    | (_, s) :: rest => onLists s ++ onListsChildren rest

theorem candidatesReadBack_eq_self {cs : List CandidateConfig} :
    candidatesReadBack cs = cs ↔ cs ≠ [] := by
  cases cs <;> simp [candidatesReadBack]

theorem map_readBack_on_eq_self {on : List (String × List CandidateConfig)} :
    (on.map fun p => (p.1, candidatesReadBack p.2)) = on ↔ [] ∉ on.map Prod.snd := by
  induction on with
  | nil => simp
  | cons p on ih =>
    simp only [List.map_cons, List.cons.injEq, ih, List.mem_cons, not_or, Prod.ext_iff,
      candidatesReadBack_eq_self, true_and]
    exact and_congr ⟨fun h he => h he.symm, fun h he => h he.symm⟩ Iff.rfl

mutual
/-- Reading back changes a state exactly when one of its `on` lists is empty. -/
theorem readBack_eq_self : ∀ s : StateConfig, s.readBack = s ↔ [] ∉ s.onLists
  | ⟨id, kind, initial, entry, exit, on, always, states⟩ => by
    simp only [readBack, onLists, mk.injEq, true_and, map_readBack_on_eq_self,
      readBackChildren_eq_self states, List.mem_append, not_or]

theorem readBackChildren_eq_self :
    ∀ states : List (String × StateConfig),
      readBack.readBackChildren states = states ↔ [] ∉ onLists.onListsChildren states
  | [] => by simp [readBack.readBackChildren, onLists.onListsChildren]
  | (k, s) :: rest => by
    simp only [readBack.readBackChildren, onLists.onListsChildren, List.cons.injEq, Prod.mk.injEq,
      true_and, readBack_eq_self s, readBackChildren_eq_self rest, List.mem_append, not_or]
end

end StateConfig

/-- A configuration as reading its written form gives it back. -/
def MachineConfig.readBack (m : MachineConfig) : MachineConfig := ⟨m.root.readBack⟩

/-! ## Candidate and action lists -/

namespace ConfigReader

theorem toContent_strs (l : List String) :
    (Pretty.arr (l.map .str)).toContent = .seq (l.map .string) := by
  simp [Function.comp_def]

theorem actionsOf?_strs (l : List String) : actionsOf? (.seq (l.map .string)) = some l := by
  induction l with
  | nil => rfl
  | cons x l ih =>
    simp only [actionsOf?, List.map_cons, List.mapM_cons, Content.string?] at ih ⊢
    simp [ih]

/-- A written candidate reads back as itself. -/
theorem candidateOf?_toPretty (c : CandidateConfig) :
    candidateOf? c.toPretty.toContent = some c := by
  obtain ⟨t, g, a⟩ := c
  by_cases ha : a = []
  · subst ha
    cases t <;> cases g <;>
      simp [CandidateConfig.toPretty, candidateOf?, fieldsOfMembers, fieldsOfMembers.go,
        Content.optString?]
  · have ha' : a.isEmpty = false := by simpa using ha
    cases t <;> cases g <;>
      simp [CandidateConfig.toPretty, candidateOf?, fieldsOfMembers, fieldsOfMembers.go,
        Content.optString?, ha', Function.comp_def, actionsOf?_strs]

theorem fieldsOfItems_map (ms : List (String × Content)) (rest : List Content) :
    fieldsOfItems (.map ms :: rest) = none := by
  rcases rest with _ | ⟨_, _ | ⟨_, _ | ⟨_, _⟩⟩⟩ <;> rfl

theorem mapM_candidateOf? (cs : List CandidateConfig) :
    (cs.map fun c => c.toPretty.toContent).mapM candidateOf? = some cs := by
  induction cs with
  | nil => rfl
  | cons c cs ih => simp [List.mapM_cons, candidateOf?_toPretty, ih]

/-- A written candidate list reads back as itself, but for the empty one. -/
theorem candidatesOf?_candidatesPretty (cs : List CandidateConfig) :
    candidatesOf? (candidatesPretty cs).toContent = some (candidatesReadBack cs) := by
  have hc : (candidatesPretty cs).toContent = .seq (cs.map fun c => c.toPretty.toContent) := by
    rw [candidatesPretty, toContent_arr, List.map_map]
    rfl
  rw [hc]
  cases cs with
  | nil => rfl
  | cons c cs =>
    -- a written candidate is an object, and an array that starts with one is a list
    obtain ⟨ms, hms⟩ : ∃ ms, c.toPretty.toContent = .map ms := ⟨_, rfl⟩
    have hone : candidateOf? (.seq ((c :: cs).map fun c => c.toPretty.toContent)) = none := by
      rw [List.map_cons, hms]
      exact fieldsOfItems_map ms _
    unfold candidatesOf?
    rw [hone]
    exact mapM_candidateOf? (c :: cs)

end ConfigReader

/-! ## The field readers -/

namespace ConfigReader

section Readers

variable {bytes : ByteArray} {room level : Nat}

theorem spans_quote_open {s : String} {i : Nat} (h : Spans bytes i (utf8 (quote s))) :
    Spans bytes i ([] ++ [34]) := by
  rw [utf8_quote, List.cons_append] at h
  exact spans_cons.2 ⟨h.head, spans_nil⟩

theorem string_gives (expected s : String) {i : Nat} (h : Spans bytes i (utf8 (quote s))) :
    Gives (string expected) ⟨bytes, i, room⟩ s ⟨bytes, i + (utf8 (quote s)).length, room⟩ :=
  fixPlace_gives (Gives.bind (peekValue_gives (spans_quote_open h) nofun rfl) (key_gives s h))

theorem ofName?_name (k : StateKind) : StateKind.ofName? k.name = some k := by
  cases k <;> decide

theorem kind_gives (k : StateKind) {i : Nat} (h : Spans bytes i (utf8 (quote k.name))) :
    Gives kind ⟨bytes, i, room⟩ k ⟨bytes, i + (utf8 (quote k.name)).length, room⟩ := by
  refine Gives.bind (peekValue_gives (spans_quote_open h) nofun rfl) ?_
  refine Gives.bind (string_gives "variant identifier" k.name h) ?_
  rw [ofName?_name]
  exact Gives.pure

theorem option_reads {α : Type} {some_ : Reader α} (s : String) (a : α)
    (h : ∀ {i : Nat}, Spans bytes i (utf8 (quote s)) →
      Gives some_ ⟨bytes, i, room⟩ a ⟨bytes, i + (utf8 (quote s)).length, room⟩) :
    ∀ {i : Nat} {w : List UInt8}, Spans bytes i (w ++ utf8 (render level (.str s))) → Blank w →
      Gives (option some_) ⟨bytes, i, room⟩ (some a)
        ⟨bytes, i + w.length + (utf8 (render level (.str s))).length, room⟩ := by
  intro i w hs hw
  rw [utf8_render_str] at hs ⊢
  have hq : Spans bytes (i + w.length) (utf8 (quote s)) := Spans.after hs rfl
  have hopen : Spans bytes i (w ++ [34]) :=
    spans_append.2 ⟨(spans_append.1 hs).1, spans_quote_open hq⟩
  exact Gives.bind (peekValue_gives hopen hw rfl) (Gives.bind (h hq) Gives.pure)

theorem option_string_reads (s : String) :
    Reads (option string) room (utf8 (render level (.str s))) (some s) :=
  fun _ _ _ hs hw => option_reads s s (string_gives "a string" s) hs hw

theorem option_kind_reads (k : StateKind) :
    Reads (option kind) room (utf8 (render level (.str k.name))) (some k) :=
  fun _ _ _ hs hw => option_reads k.name k (kind_gives k) hs hw

theorem actions_reads (l : List String) (hr : (Pretty.arr (l.map .str)).depth < room)
    (hd : (Pretty.arr (l.map .str)).depth < contentDepth) :
    Reads actions room (utf8 (render level (.arr (l.map .str)))) l := fun bytes i w hs hw => by
  refine Gives.bind (read_render contentDepth _ level room hd hr bytes i w hs hw) ?_
  rw [toContent_strs, actionsOf?_strs]
  exact Gives.pure

/-- A candidate list reads back, the empty one as the one candidate without fields. -/
theorem candidates_reads (cs : List CandidateConfig) (hr : (candidatesPretty cs).depth < room)
    (hd : (candidatesPretty cs).depth < contentDepth) :
    Reads candidates room (utf8 (render level (candidatesPretty cs))) (candidatesReadBack cs) :=
  fun bytes i w hs hw => by
    refine Gives.bind (read_render contentDepth _ level room hd hr bytes i w hs hw) ?_
    rw [candidatesOf?_candidatesPretty]
    exact Gives.pure

/-- An object of entries reads as its keys, each with what the value reader
reads of its value. -/
theorem entries_reads {α β : Type} {value : Reader α} (name : β → String) (val : β → Pretty)
    (res : β → α) (xs : List β) {r : Nat} (hr : 0 < r)
    (hread : ∀ x ∈ xs, Reads value r (utf8 (render (level + 1) (val x))) (res x)) :
    Reads (entries value) (r + 1) (utf8 (render level (.obj (xs.map fun x => (name x, val x)))))
      (xs.map fun x => (name x, res x)) := fun bytes i w h hw => by
  obtain ⟨w', hw', hbytes⟩ := utf8_render_obj level (xs.map fun x => (name x, val x))
  rw [hbytes] at h ⊢
  rw [List.append_cons] at h
  have hinner := Spans.after h (j := i + w.length + 1) (by simp; omega)
  have hmem : Gives (members key fun _ => value) ⟨bytes, i + w.length + 1, r⟩
      (xs.map fun x => (name x, res x)) _ := members_gives name val res xs hread hinner hw'
  have hclose : Gives closeObject ⟨bytes, _, r + 1⟩ () _ := closeObject_gives (w := [])
    (Spans.after hinner (j := i + w.length + 1 +
      (utf8 (renderMembers (level + 1) true (xs.map fun x => (name x, val x)))).length + w'.length)
      (by simp; omega)) nofun
  refine fixPlace_gives (Gives.bind (peekValue_gives (spans_append.1 h).1 hw rfl) ?_)
  refine Gives.congr (closedBy_gives (nested_gives hr hmem) hclose) rfl ?_
  simp
  omega

end Readers

end ConfigReader

/-! ## State fields -/

namespace StateConfig

/-- The members of a state's object, in the order `toPretty` writes them. -/
def written (s : StateConfig) : List (String × Pretty) :=
  match s.toPretty with
  | .obj ms => ms
  | _ => []

theorem toPretty_eq_obj (s : StateConfig) : s.toPretty = .obj s.written := by
  obtain ⟨id, kind, initial, entry, exit, on, always, states⟩ := s
  rfl

/-- The fields of state `s` named in `names`, as reading its written form
fills them in; the fields not named are still absent. -/
def readFields (s : StateConfig) (names : List String) : Fields where
  id := if "id" ∈ names then some s.id else none
  kind := if "type" ∈ names then some s.kind else none
  initial := if "initial" ∈ names then some s.initial else none
  entry := if "entry" ∈ names then some s.entry else none
  exit := if "exit" ∈ names then some s.exit else none
  on := if "on" ∈ names then some (s.on.map fun p => (p.1, candidatesReadBack p.2)) else none
  always := if "always" ∈ names then some s.always else none
  states := if "states" ∈ names then some (readBack.readBackChildren s.states) else none

theorem readFields_nil (s : StateConfig) : s.readFields [] = {} := by
  simp [readFields]

theorem has_readFields (s : StateConfig) {n : String} (hn : n ∈ stateFields)
    (names : List String) : (s.readFields names).has n = decide (n ∈ names) := by
  simp only [stateFields, List.mem_cons, List.not_mem_nil, or_false] at hn
  rcases hn with rfl | rfl | rfl | rfl | rfl | rfl | rfl | rfl <;>
    simp only [readFields, Fields.has] <;> split <;> simp_all

theorem getD_if_nil {α β : Type} {l : List α} {l' : List β} (h : l = [] → l' = []) :
    (if l = [] then none else some l').getD [] = l' := by
  by_cases hl : l = []
  · rw [if_pos hl, Option.getD_none, h hl]
  · rw [if_neg hl, Option.getD_some]

theorem toState_readFields (s : StateConfig) :
    (s.readFields (s.written.map Prod.fst)).toState = s.readBack := by
  obtain ⟨id, kind, initial, entry, exit, on, always, states⟩ := s
  have hstates : (if states = [] then none else some (readBack.readBackChildren states)).getD [] =
      readBack.readBackChildren states := getD_if_nil (by rintro rfl; rfl)
  -- the three optional fields are written when present, the five lists when not empty
  cases id <;> cases kind <;> cases initial <;>
    simp [readFields, written, toPretty, Fields.toState, readBack, getD_if_nil, hstates]

theorem childrenPretty_eq_map (states : List (String × StateConfig)) :
    toPretty.childrenPretty states = states.map fun p => (p.1, p.2.toPretty) := by
  induction states with
  | nil => rfl
  | cons p states ih => rw [toPretty.childrenPretty, ih, List.map_cons]

theorem readBackChildren_eq_map (states : List (String × StateConfig)) :
    readBack.readBackChildren states = states.map fun p => (p.1, p.2.readBack) := by
  induction states with
  | nil => rfl
  | cons p states ih => rw [readBack.readBackChildren, ih, List.map_cons]

theorem written_names_sublist (s : StateConfig) : (s.written.map Prod.fst).Sublist stateFields := by
  obtain ⟨id, kind, initial, entry, exit, on, always, states⟩ := s
  have hopt : ∀ {α : Type} (o : Option α) (n : String) (f : α → Pretty),
      ((o.map fun a => (n, f a)).toList.map Prod.fst).Sublist [n] := by
    intro α o n f
    cases o <;> simp
  have hlist : ∀ (c : Bool) (n : String) (v : Pretty),
      ((if c = true then [] else [(n, v)]).map Prod.fst).Sublist [n] := by
    intro c n v
    cases c <;> simp
  simp only [written, toPretty, List.map_append]
  exact (((((((hopt id "id" _).append (hopt kind "type" _)).append
    (hopt initial "initial" _)).append (hlist _ _ _)).append (hlist _ _ _)).append
    (hlist _ _ _)).append (hlist _ _ _)).append (hlist _ _ _)

/-- The states below a state nest at least two levels less deep: one for the
state's own object, one for the object of its children. -/
theorem depth_child_lt {s : StateConfig} {p : String × StateConfig} (hp : p ∈ s.states) :
    p.2.toPretty.depth + 2 ≤ s.toPretty.depth := by
  obtain ⟨id, kind, initial, entry, exit, on, always, states⟩ := s
  have hne : states.isEmpty = false := List.isEmpty_eq_false_iff.2 (List.ne_nil_of_mem hp)
  have hmem : ("states", Pretty.obj (states.map fun p => (p.1, p.2.toPretty))) ∈
      written ⟨id, kind, initial, entry, exit, on, always, states⟩ := by
    simp [written, toPretty, hne, childrenPretty_eq_map]
  have houter := le_depthMembers hmem
  have hinner := le_depthMembers_map Prod.fst (fun p => p.2.toPretty) hp
  rw [toPretty_eq_obj ⟨id, kind, initial, entry, exit, on, always, states⟩]
  simp only [Pretty.depth] at houter hinner ⊢
  omega

/-- Every member a state writes is read by the reader of its field, which
fills that field in as reading back gives it. -/
theorem written_reads {child : Reader StateConfig} (s : StateConfig) {level room : Nat}
    (hroom : ∀ x ∈ s.written, x.2.depth < room) (hcd : room ≤ contentDepth)
    (hchild : ∀ p ∈ s.states,
      Reads child (room - 1) (utf8 (render (level + 1 + 1) p.2.toPretty)) p.2.readBack) :
    ∀ x ∈ s.written, ∀ zs, Reads (field child (s.readFields zs) x.1) room
      (utf8 (render (level + 1) x.2)) (s.readFields (zs ++ [x.1])) := by
  obtain ⟨id, kind, initial, entry, exit, on, always, states⟩ := s
  intro x hx zs
  have hd := hroom x hx
  simp only [written, toPretty, List.mem_append] at hx
  rcases hx with ((((((hx | hx) | hx) | hx) | hx) | hx) | hx) | hx
  · -- the id
    cases id with
    | none => simp at hx
    | some i =>
      obtain rfl : x = ("id", .str i) := by simpa using hx
      exact Reads.congr (Reads.map _ (option_string_reads i)) (by simp [readFields])
  · -- the kind
    cases kind with
    | none => simp at hx
    | some k =>
      obtain rfl : x = ("type", .str k.name) := by simpa using hx
      exact Reads.congr (Reads.map _ (option_kind_reads k)) (by simp [readFields])
  · -- the initial child
    cases initial with
    | none => simp at hx
    | some i =>
      obtain rfl : x = ("initial", .str i) := by simpa using hx
      exact Reads.congr (Reads.map _ (option_string_reads i)) (by simp [readFields])
  · -- the entry actions
    split at hx
    · simp at hx
    · obtain rfl : x = ("entry", .arr (entry.map .str)) := by simpa using hx
      exact Reads.congr (Reads.map _ (actions_reads entry hd (by dsimp only at hd; omega)))
        (by simp [readFields])
  · -- the exit actions
    split at hx
    · simp at hx
    · obtain rfl : x = ("exit", .arr (exit.map .str)) := by simpa using hx
      exact Reads.congr (Reads.map _ (actions_reads exit hd (by dsimp only at hd; omega)))
        (by simp [readFields])
  · -- the candidate lists by event type, in an object one level deeper
    split at hx
    · simp at hx
    · obtain rfl : x = ("on", .obj (on.map fun p => (p.1, candidatesPretty p.2))) := by
        simpa using hx
      obtain ⟨r, rfl⟩ : ∃ r, room = r + 1 := ⟨room - 1, by simp only [Pretty.depth] at hd; omega⟩
      have hread : ∀ p ∈ on, Reads candidates r
          (utf8 (render (level + 1 + 1) (candidatesPretty p.2))) (candidatesReadBack p.2) :=
        fun p hp => by
          have := le_depthMembers_map Prod.fst (fun p => candidatesPretty p.2) hp
          simp only [Pretty.depth] at hd
          exact candidates_reads p.2 (by omega) (by omega)
      exact Reads.congr (Reads.map _ (entries_reads Prod.fst (fun p => candidatesPretty p.2)
        (fun p => candidatesReadBack p.2) on (by simp only [Pretty.depth] at hd; omega) hread))
        (by simp [readFields])
  · -- the eventless candidates, never an empty list when written
    split at hx
    next => simp at hx
    next hne =>
      obtain rfl : x = ("always", candidatesPretty always) := by simpa using hx
      have hback : candidatesReadBack always = always :=
        candidatesReadBack_eq_self.2 (by simpa using hne)
      exact Reads.congr (Reads.map _ (candidates_reads always hd (by dsimp only at hd; omega)))
        (by simp [readFields, hback])
  · -- the child states, in an object one level deeper
    split at hx
    · simp at hx
    · obtain rfl : x = ("states", .obj (states.map fun p => (p.1, p.2.toPretty))) := by
        simpa [childrenPretty_eq_map] using hx
      obtain ⟨r, rfl⟩ : ∃ r, room = r + 1 := ⟨room - 1, by simp only [Pretty.depth] at hd; omega⟩
      have hpos : 0 < r := by
        rename_i hne
        obtain ⟨p, hp⟩ := List.exists_mem_of_ne_nil states (by simpa using hne)
        have := le_depthMembers_map Prod.fst (fun p => p.2.toPretty) hp
        simp only [Pretty.depth] at hd this
        omega
      exact Reads.congr (Reads.map _ (entries_reads Prod.fst (fun p => p.2.toPretty)
        (fun p => p.2.readBack) states hpos hchild))
        (by simp [readFields, readBackChildren_eq_map])

section Members

variable {child : Reader StateConfig} {bytes : ByteArray} {room level : Nat}

/-- The member loop of a state reads the members written for `s`, each a field not met before. -/
theorem stateMembers_go_gives (s : StateConfig) :
    ∀ (xs : List (String × Pretty)) (zs : List String) (fuel : Nat) (first : Bool) {i : Nat}
      {w : List UInt8},
    (∀ x ∈ xs, ∀ zs, Reads (field child (s.readFields zs) x.1) room (utf8 (render level x.2))
      (s.readFields (zs ++ [x.1]))) →
    (∀ x ∈ xs, x.1 ∈ stateFields) →
    (zs ++ xs.map Prod.fst).Nodup →
    xs.length < fuel →
    Spans bytes i (utf8 (renderMembers level first xs) ++ w ++ [125]) →
    Blank w →
    Gives (stateMembers.go child fuel first (s.readFields zs)) ⟨bytes, i, room⟩
      (s.readFields (zs ++ xs.map Prod.fst))
      ⟨bytes, i + (utf8 (renderMembers level first xs)).length + w.length, room⟩
  | _, _, 0, _, _, _, _, _, _, hfuel, _, _ => absurd hfuel (Nat.not_lt_zero _)
  | [], zs, fuel + 1, first, i, w, _, _, _, _, h, hw => by
    simp only [utf8_renderMembers_nil, List.nil_append] at h
    simp only [List.map_nil, List.append_nil, utf8_renderMembers_nil, List.length_nil, Nat.add_zero]
    exact Gives.bind (moreMembers_end h hw) Gives.pure
  | (n, v) :: xs, zs, fuel + 1, first, i, w, hread, hnames, hnodup, hfuel, h, hw => by
    rw [List.append_assoc] at h
    obtain ⟨hmore, hk, hcolon, hval, h⟩ := member_parts first n v xs rfl h
    -- the name is a field, and not one read before
    have hfield : stateFields.contains n = true :=
      List.contains_iff_mem.2 (hnames _ List.mem_cons_self)
    have hnew : (s.readFields zs).has n = false := by
      rw [has_readFields s (hnames _ List.mem_cons_self), decide_eq_false_iff_not]
      exact fun hz => (List.nodup_append.1 hnodup).2.2 n hz n List.mem_cons_self rfl
    have hvalue := hread (n, v) List.mem_cons_self zs bytes _ [32] hval blank_space
    have hrest := stateMembers_go_gives s xs (zs ++ [n]) fuel false
      (fun u hu => hread u (List.mem_cons_of_mem _ hu))
      (fun u hu => hnames u (List.mem_cons_of_mem _ hu))
      (by simpa using hnodup) (by simp at hfuel; omega) (by simpa [List.append_assoc] using h) hw
    refine Gives.bind hmore (Gives.bind hk ?_)
    dsimp only
    simp only [hfield, hnew, Bool.not_true, Bool.false_eq_true, ↓reduceIte]
    refine Gives.congr (Gives.bind hcolon (Gives.bind hvalue hrest)) (by simp) ?_
    simp [utf8_renderMembers_cons]
    omega

theorem stateFields_nodup : stateFields.Nodup := by decide

theorem stateMembers_gives (s : StateConfig) {i : Nat} {w : List UInt8}
    (hread : ∀ x ∈ s.written, ∀ zs, Reads (field child (s.readFields zs) x.1) room
      (utf8 (render level x.2)) (s.readFields (zs ++ [x.1])))
    (h : Spans bytes i (utf8 (renderMembers level true s.written) ++ w ++ [125])) (hw : Blank w) :
    Gives (stateMembers child) ⟨bytes, i, room⟩ (s.readFields (s.written.map Prod.fst))
      ⟨bytes, i + (utf8 (renderMembers level true s.written)).length + w.length, room⟩ := by
  have hnames : ∀ x ∈ s.written, x.1 ∈ stateFields := fun x hx =>
    s.written_names_sublist.subset (List.mem_map_of_mem hx)
  have hfuel : s.written.length < bytes.size - i + 1 := by
    have := h.lt_size
    have := length_le_renderMembers level true s.written
    simp only [List.length_append] at *
    omega
  refine Gives.bind Gives.get ?_
  rw [← readFields_nil s]
  exact stateMembers_go_gives s s.written [] _ true hread hnames
    (s.written_names_sublist.nodup stateFields_nodup) hfuel h hw

end Members

/-- Reading a written state gives its read-back, when the reader may follow as
many levels as the state nests. -/
theorem state_reads : ∀ (d : Nat) (s : StateConfig) (level room : Nat), s.toPretty.depth < d →
    s.toPretty.depth < room → room ≤ contentDepth + 1 →
    Reads (state d) room (utf8 (render level s.toPretty)) s.readBack
  | 0, _, _, _, hd, _, _ => absurd hd (Nat.not_lt_zero _)
  | d + 1, s, level, room, hd, hroom, hcd => fun bytes i w h hw => by
    obtain ⟨w', hw', hbytes⟩ := utf8_render_obj level s.written
    have hdepth : s.toPretty.depth = depthMembers s.written + 1 := by rw [toPretty_eq_obj]; rfl
    obtain ⟨r, rfl⟩ : ∃ r, room = r + 1 := ⟨room - 1, by omega⟩
    rw [toPretty_eq_obj, hbytes] at h ⊢
    rw [List.append_cons] at h
    -- each child state nests two levels below, with two levels less of room
    have hchild : ∀ p ∈ s.states,
        Reads (state d) (r - 1) (utf8 (render (level + 1 + 1) p.2.toPretty)) p.2.readBack :=
      fun p hp => by
        have := depth_child_lt hp
        exact state_reads d p.2 (level + 1 + 1) (r - 1) (by omega) (by omega) (by omega)
    have hread := @written_reads (state d) s level r
      (fun x hx => by have := le_depthMembers hx; omega) (by omega) hchild
    have hinner := Spans.after h (j := i + w.length + 1) (by simp; omega)
    have hmem := stateMembers_gives s hread (by simpa using hinner) hw'
    have hclose : Gives closeObject ⟨bytes, _, r + 1⟩ () _ := closeObject_gives (w := [])
      (Spans.after hinner (j := i + w.length + 1 +
        (utf8 (renderMembers (level + 1) true s.written)).length + w'.length) (by simp; omega))
      nofun
    refine fixPlace_gives (Gives.bind (peekValue_gives (spans_append.1 h).1 hw rfl) ?_)
    refine Gives.congr
      (Gives.bind (closedBy_gives (nested_gives (by omega) hmem) hclose) Gives.pure)
      (toState_readFields s) ?_
    simp
    omega

end StateConfig

namespace ConfigReader

theorem finish_end {bytes : ByteArray} {room : Nat} :
    Gives finish ⟨bytes, bytes.size, room⟩ () ⟨bytes, bytes.size, room⟩ :=
  Gives.bind peekValue_end Gives.pure

end ConfigReader

namespace MachineConfig

/-- The text written for a configuration nesting less than 128 levels reads back
as its read-back. -/
theorem ofJson?_toJson (m : MachineConfig) (h : m.root.toPretty.depth < 128) :
    ofJson? m.toJson = .ok m.readBack := by
  have hs := StateConfig.state_reads 200 m.root 0 128 (by omega) h (by decide)
    m.toJson.toUTF8 0 [] (by rw [List.nil_append]; exact spans_data m.toJson.toUTF8) nofun
  have hsize : 0 + ([] : List UInt8).length + (utf8 (render 0 m.root.toPretty)).length =
      m.toJson.toUTF8.size := by
    simp only [Nat.zero_add, List.length_nil, utf8, Array.length_toList]
    rfl
  rw [hsize] at hs
  have hrun : Gives (do let s ← ConfigReader.state 200; ConfigReader.finish; pure s)
      ⟨m.toJson.toUTF8, 0, 128⟩ m.root.readBack ⟨m.toJson.toUTF8, m.toJson.toUTF8.size, 128⟩ :=
    Gives.bind hs (Gives.bind ConfigReader.finish_end Gives.pure)
  unfold Gives at hrun
  unfold ofJson?
  dsimp only
  rw [hrun]
  rfl

/-- A written configuration nesting less than 128 levels reads back as itself
exactly when no state maps an event type to an empty list. -/
theorem ofJson?_toJson_eq_iff (m : MachineConfig) (h : m.root.toPretty.depth < 128) :
    ofJson? m.toJson = .ok m.readBack ∧ (ofJson? m.toJson = .ok m ↔ [] ∉ m.root.onLists) := by
  refine ⟨ofJson?_toJson m h, ?_⟩
  rw [ofJson?_toJson m h, ← StateConfig.readBack_eq_self]
  constructor
  · intro hm
    exact congrArg root (Except.ok.inj hm)
  · intro hm
    rw [readBack, hm]

end MachineConfig

end Statechart
