import Statechart.Proofs.Json.Quote
import Statechart.Json.Content
/-!
# Written values read back

`Pretty.render` writes a value as indented text. Reading that text back with
`Content.read` gives the value again, as long as the reader is allowed to nest
as deep as the value does (`read_render`). `Pretty.depth` counts the levels:
every array and object, empty or not, takes one.

The two loops of the reader, over array elements and over object members, are
proved once for any reader of the items (`elements_gives`, `members_gives`):
each separator is the comma, a line feed and the indentation of the level,
all of which the loops pass over, and the loops stop on the closing bracket.
The fuel the loops start with, one more than the bytes left, is more than the
items written, since each item takes at least one byte.
-/
namespace Statechart.Json

namespace Pretty

mutual
/-- How deep a value nests: one level for each array or object around it. -/
def depth : Pretty → Nat
  | .str _ => 0
  | .arr items => depthItems items + 1
  | .obj members => depthMembers members + 1

def depthItems : List Pretty → Nat
  | [] => 0
  | v :: vs => max v.depth (depthItems vs)

def depthMembers : List (String × Pretty) → Nat
  | [] => 0
  | (_, v) :: ms => max v.depth (depthMembers ms)
end

mutual
/-- A value as the reader buffers it. -/
def toContent : Pretty → Content
  | .str s => .string s
  | .arr items => .seq (contentItems items)
  | .obj members => .map (contentMembers members)

def contentItems : List Pretty → List Content
  | [] => []
  | v :: vs => v.toContent :: contentItems vs

def contentMembers : List (String × Pretty) → List (String × Content)
  | [] => []
  | (k, v) :: ms => (k, v.toContent) :: contentMembers ms
end

theorem le_depthItems : ∀ {items : List Pretty} {v : Pretty}, v ∈ items → v.depth ≤ depthItems items
  | _ :: _, _, .head _ => Nat.le_max_left _ _
  | _ :: _, _, .tail _ hv => Nat.le_trans (le_depthItems hv) (Nat.le_max_right _ _)

theorem le_depthMembers : ∀ {ms : List (String × Pretty)} {k : String} {v : Pretty},
    (k, v) ∈ ms → v.depth ≤ depthMembers ms
  | _ :: _, _, _, .head _ => Nat.le_max_left _ _
  | (_, _) :: _, _, _, .tail _ hv => Nat.le_trans (le_depthMembers hv) (Nat.le_max_right _ _)

theorem le_depthMembers_map {γ : Type} (name : γ → String) (val : γ → Pretty) {l : List γ} {x : γ}
    (hx : x ∈ l) : (val x).depth ≤ depthMembers (l.map fun y => (name y, val y)) :=
  le_depthMembers (List.mem_map_of_mem hx)

theorem contentItems_eq_map : ∀ items : List Pretty, contentItems items = items.map toContent
  | [] => rfl
  | v :: vs => by rw [contentItems, contentItems_eq_map vs, List.map_cons]

theorem contentMembers_eq_map :
    ∀ ms : List (String × Pretty), contentMembers ms = ms.map fun p => (p.1, p.2.toContent)
  | [] => rfl
  | (k, v) :: ms => by rw [contentMembers, contentMembers_eq_map ms, List.map_cons]

@[simp] theorem toContent_str (s : String) : (str s).toContent = .string s := rfl

@[simp] theorem toContent_arr (items : List Pretty) :
    (arr items).toContent = .seq (items.map toContent) := by
  rw [toContent, contentItems_eq_map]

@[simp] theorem toContent_obj (ms : List (String × Pretty)) :
    (obj ms).toContent = .map (ms.map fun p => (p.1, p.2.toContent)) := by
  rw [toContent, contentMembers_eq_map]

/-! ## The bytes written -/

theorem blank_pad (level : Nat) : Blank (utf8 (pad level)) := by
  intro b hb
  rw [utf8_eq_flatMap, List.mem_flatMap] at hb
  obtain ⟨c, hc, hb⟩ := hb
  rw [pad, String.toList_ofList, List.mem_replicate] at hc
  rw [hc.2, show String.utf8EncodeChar ' ' = [32] from rfl, List.mem_singleton] at hb
  rw [hb]
  rfl

theorem blank_newline_pad (level : Nat) : Blank (10 :: utf8 (pad level)) := by
  intro b hb
  rcases List.mem_cons.1 hb with rfl | hb
  · rfl
  · exact blank_pad level b hb

theorem utf8_render_str (level : Nat) (s : String) :
    utf8 (render level (.str s)) = utf8 (quote s) := by
  simp only [render]

/-- An array is its items between brackets, the closing one after blanks. -/
theorem utf8_render_arr (level : Nat) (items : List Pretty) : ∃ w, Blank w ∧
    utf8 (render level (.arr items)) =
      91 :: (utf8 (renderItems (level + 1) true items) ++ w ++ [93]) := by
  cases items with
  | nil => exact ⟨[], nofun, rfl⟩
  | cons v vs =>
    refine ⟨10 :: utf8 (pad level), blank_newline_pad level, ?_⟩
    simp only [render, utf8_append, List.append_assoc, show utf8 "[" = [91] from rfl,
      show utf8 "\n" = [10] from rfl, show utf8 "]" = [93] from rfl, List.cons_append,
      List.nil_append]

/-- An object is its members between braces, the closing one after blanks. -/
theorem utf8_render_obj (level : Nat) (ms : List (String × Pretty)) : ∃ w, Blank w ∧
    utf8 (render level (.obj ms)) =
      123 :: (utf8 (renderMembers (level + 1) true ms) ++ w ++ [125]) := by
  cases ms with
  | nil => exact ⟨[], nofun, rfl⟩
  | cons m ms =>
    refine ⟨10 :: utf8 (pad level), blank_newline_pad level, ?_⟩
    simp only [render, utf8_append, List.append_assoc, show utf8 "\x7b" = [123] from rfl,
      show utf8 "\n" = [10] from rfl, show utf8 "\x7d" = [125] from rfl, List.cons_append,
      List.nil_append]

/-- Every written value starts with a quote or an opening bracket. -/
theorem render_opens (level : Nat) (v : Pretty) :
    ∃ b rest, utf8 (render level v) = b :: rest ∧ Opens b := by
  cases v with
  | str s => exact ⟨34, _, by rw [utf8_render_str, utf8_quote, List.cons_append], Or.inl rfl⟩
  | arr items =>
    obtain ⟨w, -, h⟩ := utf8_render_arr level items
    exact ⟨91, _, h, Or.inr (Or.inl rfl)⟩
  | obj ms =>
    obtain ⟨w, -, h⟩ := utf8_render_obj level ms
    exact ⟨123, _, h, Or.inr (Or.inr rfl)⟩

/-- What comes before an item: a line feed, after a comma unless it is the first. -/
def sep (first : Bool) : List UInt8 := if first then [10] else [44, 10]

theorem utf8_renderItems_nil (level : Nat) (first : Bool) :
    utf8 (renderItems level first []) = [] :=
  rfl

theorem utf8_renderMembers_nil (level : Nat) (first : Bool) :
    utf8 (renderMembers level first []) = [] :=
  rfl

theorem utf8_renderItems_cons (level : Nat) (first : Bool) (v : Pretty) (vs : List Pretty) :
    utf8 (renderItems level first (v :: vs)) =
      sep first ++ utf8 (pad level) ++ utf8 (render level v) ++
        utf8 (renderItems level false vs) := by
  cases first <;> rfl

theorem utf8_renderMembers_cons (level : Nat) (first : Bool) (k : String) (v : Pretty)
    (ms : List (String × Pretty)) :
    utf8 (renderMembers level first ((k, v) :: ms)) =
      sep first ++ utf8 (pad level) ++ utf8 (quote k) ++ [58, 32] ++ utf8 (render level v) ++
        utf8 (renderMembers level false ms) := by
  cases first <;> simp only [renderMembers, utf8_append] <;> rfl

theorem length_le_renderItems (level : Nat) :
    ∀ (first : Bool) (items : List Pretty),
      items.length ≤ (utf8 (renderItems level first items)).length
  | _, [] => Nat.zero_le _
  | first, v :: vs => by
    have := length_le_renderItems level false vs
    rw [utf8_renderItems_cons]
    cases first <;> simp [sep] <;> omega

theorem length_le_renderMembers (level : Nat) :
    ∀ (first : Bool) (ms : List (String × Pretty)),
      ms.length ≤ (utf8 (renderMembers level first ms)).length
  | _, [] => Nat.zero_le _
  | first, (k, v) :: ms => by
    have := length_le_renderMembers level false ms
    rw [utf8_renderMembers_cons]
    cases first <;> simp [sep] <;> omega

end Pretty

open Pretty

/-! ## The loops -/

section Loops

variable {α β : Type} {bytes : ByteArray} {room level : Nat}

theorem moreElements_sep (first : Bool) {b : UInt8} (hb : Opens b) {i : Nat}
    (h : Spans bytes i (sep first ++ (utf8 (pad level) ++ [b]))) :
    Gives (moreElements first) ⟨bytes, i, room⟩ true
      ⟨bytes, i + (sep first).length + (utf8 (pad level)).length, room⟩ := by
  cases first with
  | true =>
    have h' : Spans bytes i ((10 :: utf8 (pad level)) ++ [b]) := by simpa [sep] using h
    refine (moreElements_first hb h' (blank_newline_pad level)).congr rfl ?_
    simp [sep]
    omega
  | false =>
    have h' : Spans bytes i ([] ++ [44] ++ (10 :: utf8 (pad level)) ++ [b]) := by
      simpa [sep] using h
    refine (moreElements_comma hb h' nofun (blank_newline_pad level)).congr rfl ?_
    simp [sep]
    omega

theorem moreMembers_sep (first : Bool) {i : Nat}
    (h : Spans bytes i (sep first ++ (utf8 (pad level) ++ [34]))) :
    Gives (moreMembers first) ⟨bytes, i, room⟩ true
      ⟨bytes, i + (sep first).length + (utf8 (pad level)).length, room⟩ := by
  cases first with
  | true =>
    have h' : Spans bytes i ((10 :: utf8 (pad level)) ++ [34]) := by simpa [sep] using h
    refine (moreMembers_first h' (blank_newline_pad level)).congr rfl ?_
    simp [sep]
    omega
  | false =>
    have h' : Spans bytes i ([] ++ [44] ++ (10 :: utf8 (pad level)) ++ [34]) := by
      simpa [sep] using h
    refine (moreMembers_comma h' nofun (blank_newline_pad level)).congr rfl ?_
    simp [sep]
    omega

/-- The element loop reads the written items, each with the element reader,
and stops on the closing bracket. -/
theorem elements_go_gives {elem : Reader α} (res : Pretty → α) :
    ∀ (items : List Pretty) (fuel : Nat) (first : Bool) (acc : List α) {i : Nat} {w : List UInt8},
    (∀ v ∈ items, Reads elem room (utf8 (render level v)) (res v)) → items.length < fuel →
    Spans bytes i (utf8 (renderItems level first items) ++ w ++ [93]) → Blank w →
    Gives (elements.go elem fuel first acc) ⟨bytes, i, room⟩ (acc.reverse ++ items.map res)
      ⟨bytes, i + (utf8 (renderItems level first items)).length + w.length, room⟩
  | _, 0, _, _, _, _, _, hfuel, _, _ => absurd hfuel (Nat.not_lt_zero _)
  | [], fuel + 1, first, acc, i, w, _, _, h, hw => by
    rw [utf8_renderItems_nil, List.nil_append] at h
    rw [utf8_renderItems_nil, List.map_nil, List.append_nil, List.length_nil, Nat.add_zero]
    exact Gives.bind (moreElements_end h hw) Gives.pure
  | v :: vs, fuel + 1, first, acc, i, w, hread, hfuel, h, hw => by
    obtain ⟨b, rest, hv, hb⟩ := render_opens level v
    rw [utf8_renderItems_cons] at h ⊢
    simp only [List.append_assoc] at h
    obtain ⟨hsep, h⟩ := spans_append.1 h
    obtain ⟨hpad, h⟩ := spans_append.1 h
    obtain ⟨hitem, h⟩ := spans_append.1 h
    have hopen : Spans bytes (i + (sep first).length + (utf8 (pad level)).length) [b] := by
      rw [hv] at hitem
      exact spans_cons.2 ⟨hitem.head, spans_nil⟩
    -- the separator, then the item, then the loop on the items after it
    have hmore : Gives (moreElements first) ⟨bytes, i, room⟩ true _ :=
      moreElements_sep first hb (spans_append.2 ⟨hsep, spans_append.2 ⟨hpad, hopen⟩⟩)
    have hread_v := hread v List.mem_cons_self bytes
      (i + (sep first).length + (utf8 (pad level)).length) [] hitem nofun
    have hrest := elements_go_gives res vs fuel false (res v :: acc)
      (fun u hu => hread u (List.mem_cons_of_mem _ hu)) (by simp at hfuel; omega)
      (by simpa [List.append_assoc] using h) hw
    refine (Gives.bind hmore (Gives.bind hread_v hrest)).congr (by simp) ?_
    simp
    omega

theorem elements_gives {elem : Reader α} (res : Pretty → α) (items : List Pretty) {i : Nat}
    {w : List UInt8} (hread : ∀ v ∈ items, Reads elem room (utf8 (render level v)) (res v))
    (h : Spans bytes i (utf8 (renderItems level true items) ++ w ++ [93])) (hw : Blank w) :
    Gives (elements elem) ⟨bytes, i, room⟩ (items.map res)
      ⟨bytes, i + (utf8 (renderItems level true items)).length + w.length, room⟩ := by
  have hfuel : items.length < bytes.size - i + 1 := by
    have := h.lt_size
    have := length_le_renderItems level true items
    simp only [List.length_append] at *
    omega
  exact Gives.bind Gives.get
    ((elements_go_gives res items _ true [] hread hfuel h hw).congr (by simp) rfl)

/-- One written member, taken apart as the member loops read it: separator, key,
colon, value and the members after it. -/
theorem member_parts (first : Bool) (k : String) (v : Pretty) (ms : List (String × Pretty))
    {i j : Nat} {tail : List UInt8} (hj : i + (sep first).length + (utf8 (pad level)).length = j)
    (h : Spans bytes i (utf8 (renderMembers level first ((k, v) :: ms)) ++ tail)) :
    Gives (moreMembers first) ⟨bytes, i, room⟩ true ⟨bytes, j, room⟩ ∧
    Gives key ⟨bytes, j, room⟩ k ⟨bytes, j + (utf8 (quote k)).length, room⟩ ∧
    Gives colon ⟨bytes, j + (utf8 (quote k)).length, room⟩ ()
      ⟨bytes, j + (utf8 (quote k)).length + 1, room⟩ ∧
    Spans bytes (j + (utf8 (quote k)).length + 1) ([32] ++ utf8 (render level v)) ∧
    Spans bytes (j + (utf8 (quote k)).length + 1 + 1 + (utf8 (render level v)).length)
      (utf8 (renderMembers level false ms) ++ tail) := by
  subst hj
  rw [utf8_renderMembers_cons] at h
  simp only [List.append_assoc] at h
  obtain ⟨hsep, h⟩ := spans_append.1 h
  obtain ⟨hpad, h⟩ := spans_append.1 h
  obtain ⟨hkey, h⟩ := spans_append.1 h
  have hquote : Spans bytes (i + (sep first).length + (utf8 (pad level)).length) [34] := by
    rw [utf8_quote, List.cons_append] at hkey
    exact spans_cons.2 ⟨hkey.head, spans_nil⟩
  rw [List.cons_append, List.cons_append, List.nil_append, spans_cons, spans_cons] at h
  obtain ⟨h58, h32, h⟩ := h
  obtain ⟨hval, h⟩ := spans_append.1 h
  exact ⟨moreMembers_sep first (spans_append.2 ⟨hsep, spans_append.2 ⟨hpad, hquote⟩⟩),
    key_gives k hkey, colon_gives (w := []) (spans_cons.2 ⟨h58, spans_nil⟩) nofun,
    spans_cons.2 ⟨h32, hval⟩, h⟩

theorem blank_space : Blank [32] := fun b hb => by
  rw [List.mem_singleton.1 hb]
  rfl

/-- The member loop reads the written members, each key with `key` and each
value with the reader for its key, and stops on the closing brace. -/
theorem members_go_gives {value : String → Reader α} (name : β → String) (val : β → Pretty)
    (res : β → α) :
    ∀ (xs : List β) (fuel : Nat) (first : Bool) (acc : List (String × α)) {i : Nat}
      {w : List UInt8},
    (∀ x ∈ xs, Reads (value (name x)) room (utf8 (render level (val x))) (res x)) →
    xs.length < fuel →
    Spans bytes i
      (utf8 (renderMembers level first (xs.map fun x => (name x, val x))) ++ w ++ [125]) →
    Blank w →
    Gives (members.go key value fuel first acc) ⟨bytes, i, room⟩
      (acc.reverse ++ xs.map fun x => (name x, res x))
      ⟨bytes, i + (utf8 (renderMembers level first (xs.map fun x => (name x, val x)))).length +
        w.length, room⟩
  | _, 0, _, _, _, _, _, hfuel, _, _ => absurd hfuel (Nat.not_lt_zero _)
  | [], fuel + 1, first, acc, i, w, _, _, h, hw => by
    simp only [List.map_nil, utf8_renderMembers_nil, List.nil_append] at h
    simp only [List.map_nil, utf8_renderMembers_nil, List.append_nil, List.length_nil, Nat.add_zero]
    exact Gives.bind (moreMembers_end h hw) Gives.pure
  | x :: xs, fuel + 1, first, acc, i, w, hread, hfuel, h, hw => by
    rw [List.map_cons, List.append_assoc] at h
    obtain ⟨hmore, hk, hcolon, hval, h⟩ := member_parts first (name x) (val x) _ rfl h
    -- the separator, the key, the colon, the value, then the loop on the members after it
    have hvalue := hread x List.mem_cons_self bytes _ [32] hval blank_space
    have hrest := members_go_gives name val res xs fuel false ((name x, res x) :: acc)
      (fun u hu => hread u (List.mem_cons_of_mem _ hu)) (by simp at hfuel; omega)
      (by simpa [List.append_assoc] using h) hw
    refine Gives.congr
      (Gives.bind hmore (Gives.bind hk (Gives.bind hcolon (Gives.bind hvalue hrest)))) (by simp) ?_
    simp [utf8_renderMembers_cons]
    omega

theorem members_gives {value : String → Reader α} (name : β → String) (val : β → Pretty)
    (res : β → α) (xs : List β) {i : Nat} {w : List UInt8}
    (hread : ∀ x ∈ xs, Reads (value (name x)) room (utf8 (render level (val x))) (res x))
    (h : Spans bytes i
      (utf8 (renderMembers level true (xs.map fun x => (name x, val x))) ++ w ++ [125]))
    (hw : Blank w) :
    Gives (members key value) ⟨bytes, i, room⟩ (xs.map fun x => (name x, res x))
      ⟨bytes, i + (utf8 (renderMembers level true (xs.map fun x => (name x, val x)))).length +
        w.length, room⟩ := by
  have hfuel : xs.length < bytes.size - i + 1 := by
    have := h.lt_size
    have := length_le_renderMembers level true (xs.map fun x => (name x, val x))
    simp only [List.length_append, List.length_map] at *
    omega
  exact Gives.bind Gives.get
    ((members_go_gives name val res xs _ true [] hread hfuel h hw).congr (by simp) rfl)

end Loops

/-! ## Values -/

/-- Reading a written value gives it back, when the reader may follow and the
cursor has room for as many levels as the value nests. -/
theorem read_render : ∀ (d : Nat) (v : Pretty) (level room : Nat), v.depth < d → v.depth < room →
    Reads (Content.read d) room (utf8 (render level v)) v.toContent
  | 0, _, _, _, hd, _ => absurd hd (Nat.not_lt_zero _)
  | d + 1, .str s, level, room, _, _ => fun bytes i w h hw => by
    rw [utf8_render_str, utf8_quote, List.cons_append] at h ⊢
    rw [List.append_cons] at h
    have hbody : Spans bytes (i + w.length + 1) (escaped s ++ [34]) :=
      Spans.after h (by simp; omega)
    refine fixPlace_gives (Gives.bind (peekValue_gives (spans_append.1 h).1 hw rfl) ?_)
    refine Gives.congr (Gives.bind advance_gives (Gives.bind (stringBody_gives s hbody) Gives.pure))
      rfl ?_
    simp
    omega
  | d + 1, .arr items, level, room, hd, hroom => fun bytes i w h hw => by
    obtain ⟨w', hw', hbytes⟩ := utf8_render_arr level items
    have hdepth : (Pretty.arr items).depth = depthItems items + 1 := rfl
    obtain ⟨r, rfl⟩ : ∃ r, room = r + 1 := ⟨room - 1, by omega⟩
    rw [hbytes] at h ⊢
    rw [List.append_cons] at h
    -- each item nests less deep than the array, and has one level less of room
    have hread : ∀ v ∈ items, Reads (Content.read d) r (utf8 (render (level + 1) v)) v.toContent :=
      fun v hv => read_render d v (level + 1) r (by have := le_depthItems hv; omega)
        (by have := le_depthItems hv; omega)
    have hinner := Spans.after h (j := i + w.length + 1) (by simp; omega)
    have hel := elements_gives toContent items hread hinner hw'
    have hclose : Gives closeList ⟨bytes, _, r + 1⟩ () _ := closeList_gives (w := [])
      (Spans.after hinner
        (j := i + w.length + 1 + (utf8 (renderItems (level + 1) true items)).length + w'.length)
        (by simp; omega)) nofun
    refine fixPlace_gives (Gives.bind (peekValue_gives (spans_append.1 h).1 hw rfl) ?_)
    refine Gives.congr (closedBy_gives (nested_gives (by omega) (Gives.bind hel Gives.pure)) hclose)
      (toContent_arr items).symm ?_
    simp
    omega
  | d + 1, .obj ms, level, room, hd, hroom => fun bytes i w h hw => by
    obtain ⟨w', hw', hbytes⟩ := utf8_render_obj level ms
    have hdepth : (Pretty.obj ms).depth = depthMembers ms + 1 := rfl
    obtain ⟨r, rfl⟩ : ∃ r, room = r + 1 := ⟨room - 1, by omega⟩
    rw [hbytes] at h ⊢
    rw [List.append_cons] at h
    have hread : ∀ p ∈ ms, Reads (Content.read d) r (utf8 (render (level + 1) p.2)) p.2.toContent :=
      fun p hp => read_render d p.2 (level + 1) r (by have := le_depthMembers hp; omega)
        (by have := le_depthMembers hp; omega)
    have hinner := Spans.after h (j := i + w.length + 1) (by simp; omega)
    have hmem : Gives (members key fun _ => Content.read d) ⟨bytes, i + w.length + 1, r⟩
        (ms.map fun p => (p.1, p.2.toContent))
        ⟨bytes, i + w.length + 1 + (utf8 (renderMembers (level + 1) true ms)).length + w'.length,
          r⟩ :=
      Gives.congr (members_gives Prod.fst Prod.snd (fun p => p.2.toContent) ms hread
        (by simpa using hinner) hw') rfl (by simp)
    have hclose : Gives closeObject ⟨bytes, _, r + 1⟩ () _ := closeObject_gives (w := [])
      (Spans.after hinner
        (j := i + w.length + 1 + (utf8 (renderMembers (level + 1) true ms)).length + w'.length)
        (by simp; omega)) nofun
    refine fixPlace_gives (Gives.bind (peekValue_gives (spans_append.1 h).1 hw rfl) ?_)
    refine Gives.congr
      (closedBy_gives (nested_gives (by omega) (Gives.bind hmem Gives.pure)) hclose)
      (toContent_obj ms).symm ?_
    simp
    omega

end Statechart.Json
