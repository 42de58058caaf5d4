import Statechart.Config.Read
/-!
# Readers that succeed

A reader runs over a cursor: a fixed array of bytes, a position in it and the
nesting room left. `Gives r c a c'` says that `r`, run from `c`, succeeds with
`a` and leaves the cursor at `c'`. The monad's own rules (`Gives.pure`,
`Gives.bind`) let a proof follow a reader's code one step at a time.

What lies ahead of the cursor is described by `Spans bytes i l`: the bytes
from index `i` on start with the list `l`. Each primitive of the cursor gets
one lemma that says what it gives on such bytes: blank skipping, peeking,
taking a byte, the separators between members and elements, opening a level
of nesting and closing a bracket.
-/
namespace Statechart.Json

/-- Run from cursor `c`, reader `r` succeeds with `a` and leaves the cursor at `c'`. -/
def Gives {α : Type} (r : Reader α) (c : Cursor) (a : α) (c' : Cursor) : Prop :=
  r.run.run c = (.ok a, c')

namespace Gives

variable {α β : Type} {c c₁ c₂ : Cursor}

theorem pure {a : α} : Gives (Pure.pure a) c a c := rfl

theorem bind {x : Reader α} {f : α → Reader β} {a : α} {b : β} (hx : Gives x c a c₁)
    (hf : Gives (f a) c₁ b c₂) : Gives (x >>= f) c b c₂ := by
  unfold Gives at *
  simp only [ExceptT.run_bind, StateT.run_bind, hx]
  exact hf

theorem lift {x : Reader α} {a : α} (hx : Gives x c a c₁) :
    Gives (ExceptT.lift x.run : Reader (Except ReadError α)) c (.ok a) c₁ := by
  unfold Gives at *
  simp only [ExceptT.run_lift, StateT.run_map, hx]
  rfl

theorem congr {r : Reader α} {a a' : α} {c' : Cursor} (h : Gives r c a c₁) (ha : a = a')
    (hc : c₁ = c') : Gives r c a' c' :=
  ha ▸ hc ▸ h

theorem get : Gives (MonadState.get : Reader Cursor) c c c := rfl

theorem set {c' : Cursor} : Gives (MonadState.set c' : Reader PUnit) c ⟨⟩ c' := rfl

theorem modify {f : Cursor → Cursor} : Gives (modify f : Reader PUnit) c ⟨⟩ (f c) := rfl

end Gives

/-! ## Bytes ahead of the cursor -/

/-- The bytes from index `i` on start with `l`. -/
def Spans (bytes : ByteArray) (i : Nat) (l : List UInt8) : Prop :=
  ∀ k (h : k < l.length), bytes[i + k]? = some l[k]

section Spans

variable {bytes : ByteArray} {i : Nat}

theorem spans_nil : Spans bytes i [] := nofun

theorem spans_cons {b : UInt8} {l : List UInt8} :
    Spans bytes i (b :: l) ↔ bytes[i]? = some b ∧ Spans bytes (i + 1) l := by
  constructor
  · intro h
    refine ⟨h 0 (by simp), fun k hk => ?_⟩
    have := h (k + 1) (by simp; omega)
    rwa [show i + (k + 1) = i + 1 + k by omega] at this
  · rintro ⟨hb, hl⟩ k hk
    cases k with
    | zero => exact hb
    | succ k =>
      have := hl k (by simp at hk; omega)
      rwa [show i + 1 + k = i + (k + 1) by omega] at this

theorem spans_append {l l' : List UInt8} :
    Spans bytes i (l ++ l') ↔ Spans bytes i l ∧ Spans bytes (i + l.length) l' := by
  induction l generalizing i with
  | nil => simp [spans_nil]
  | cons b l ih =>
    rw [List.cons_append, spans_cons, spans_cons, ih, List.length_cons,
      show i + 1 + l.length = i + (l.length + 1) by omega, and_assoc]

theorem Spans.head {b : UInt8} {l : List UInt8} (h : Spans bytes i (b :: l)) :
    bytes[i]? = some b :=
  (spans_cons.1 h).1

theorem Spans.after {l l' : List UInt8} (h : Spans bytes i (l ++ l')) {j : Nat}
    (hj : i + l.length = j) : Spans bytes j l' :=
  hj ▸ (spans_append.1 h).2

theorem Spans.lt_size {l : List UInt8} {b : UInt8} (h : Spans bytes i (l ++ [b])) :
    i + l.length < bytes.size :=
  (getElem?_eq_some_iff.1 ((spans_append.1 h).2.head)).1

theorem spans_data (bytes : ByteArray) : Spans bytes 0 bytes.data.toList := by
  intro k hk
  rw [Nat.zero_add, getElem?_pos bytes k (by simpa using hk), Array.getElem_toList]
  rfl

end Spans

/-! ## Blanks -/

/-- A list of white space bytes. -/
def Blank (w : List UInt8) : Prop := ∀ b ∈ w, Cursor.isBlank b = true

/-- Blank skipping stops at the first byte that is not white space. -/
theorem skipBlank_spans {bytes : ByteArray} {room : Nat} :
    ∀ {w : List UInt8} {i : Nat} {b : UInt8}, Spans bytes i (w ++ [b]) → Blank w →
      Cursor.isBlank b = false →
      Cursor.skipBlank ⟨bytes, i, room⟩ = ⟨bytes, i + w.length, room⟩
  | [], i, b, h, _, hb => by
    obtain ⟨hlt, hget⟩ := getElem?_eq_some_iff.1 h.head
    rw [Cursor.skipBlank, dif_pos hlt]
    simp only [hget, hb]
    rfl
  | x :: w, i, b, h, hw, hb => by
    rw [List.cons_append, spans_cons] at h
    obtain ⟨hlt, hget⟩ := getElem?_eq_some_iff.1 h.1
    rw [Cursor.skipBlank, dif_pos hlt]
    simp only [hget, hw x List.mem_cons_self, if_true]
    rw [skipBlank_spans h.2 (fun y hy => hw y (List.mem_cons_of_mem _ hy)) hb, List.length_cons,
      Nat.add_assoc, Nat.add_comm 1]

/-! ## The cursor's primitives -/

section Primitives

variable {bytes : ByteArray} {i room : Nat}

theorem peek_gives : Gives peek ⟨bytes, i, room⟩ bytes[i]? ⟨bytes, i, room⟩ := rfl

theorem advance_gives : Gives advance ⟨bytes, i, room⟩ () ⟨bytes, i + 1, room⟩ := rfl

/-- Peeking past blanks at the byte after them. -/
theorem peekValue_gives {w : List UInt8} {b : UInt8} (h : Spans bytes i (w ++ [b]))
    (hw : Blank w) (hb : Cursor.isBlank b = false) :
    Gives peekValue ⟨bytes, i, room⟩ (some b) ⟨bytes, i + w.length, room⟩ := by
  have hat : bytes[i + w.length]? = some b := (spans_append.1 h).2.head
  refine Gives.bind Gives.modify ?_
  rw [skipBlank_spans h hw hb, ← hat]
  exact peek_gives

theorem peekValue_end :
    Gives peekValue ⟨bytes, bytes.size, room⟩ none ⟨bytes, bytes.size, room⟩ := by
  have hskip : Cursor.skipBlank ⟨bytes, bytes.size, room⟩ = ⟨bytes, bytes.size, room⟩ := by
    rw [Cursor.skipBlank, dif_neg (Nat.lt_irrefl _)]
  refine Gives.bind Gives.modify ?_
  rw [hskip, ← getElem?_neg bytes bytes.size (Nat.lt_irrefl _)]
  exact peek_gives

theorem closeObject_gives {w : List UInt8} (h : Spans bytes i (w ++ [125])) (hw : Blank w) :
    Gives closeObject ⟨bytes, i, room⟩ () ⟨bytes, i + w.length + 1, room⟩ :=
  Gives.bind (peekValue_gives h hw rfl) advance_gives

theorem closeList_gives {w : List UInt8} (h : Spans bytes i (w ++ [93])) (hw : Blank w) :
    Gives closeList ⟨bytes, i, room⟩ () ⟨bytes, i + w.length + 1, room⟩ :=
  Gives.bind (peekValue_gives h hw rfl) advance_gives

theorem colon_gives {w : List UInt8} (h : Spans bytes i (w ++ [58])) (hw : Blank w) :
    Gives colon ⟨bytes, i, room⟩ () ⟨bytes, i + w.length + 1, room⟩ :=
  Gives.bind (peekValue_gives h hw rfl) advance_gives

end Primitives

/-! ## Members and elements -/

section Separators

variable {bytes : ByteArray} {i room : Nat} {w w' : List UInt8}

/-- The first byte of a written value: a quote, or an opening bracket. -/
def Opens (b : UInt8) : Prop := b = 34 ∨ b = 91 ∨ b = 123

theorem Opens.not_blank {b : UInt8} (hb : Opens b) : Cursor.isBlank b = false := by
  rcases hb with rfl | rfl | rfl <;> rfl

theorem moreMembers_first (h : Spans bytes i (w ++ [34])) (hw : Blank w) :
    Gives (moreMembers true) ⟨bytes, i, room⟩ true ⟨bytes, i + w.length, room⟩ :=
  Gives.bind (peekValue_gives h hw rfl) Gives.pure

theorem moreMembers_comma (h : Spans bytes i (w ++ [44] ++ w' ++ [34])) (hw : Blank w)
    (hw' : Blank w') :
    Gives (moreMembers false) ⟨bytes, i, room⟩ true
      ⟨bytes, i + w.length + 1 + w'.length, room⟩ := by
  rw [List.append_assoc, List.append_assoc, spans_append] at h
  have hcomma : Spans bytes i (w ++ [44]) :=
    spans_append.2 ⟨h.1, spans_cons.2 ⟨(spans_cons.1 h.2).1, spans_nil⟩⟩
  have hquote : Spans bytes (i + w.length + 1) (w' ++ [34]) := (spans_cons.1 h.2).2
  exact Gives.bind (peekValue_gives hcomma hw rfl)
    (Gives.bind advance_gives (Gives.bind (peekValue_gives hquote hw' rfl) Gives.pure))

theorem moreMembers_end {first : Bool} (h : Spans bytes i (w ++ [125])) (hw : Blank w) :
    Gives (moreMembers first) ⟨bytes, i, room⟩ false ⟨bytes, i + w.length, room⟩ :=
  Gives.bind (peekValue_gives h hw rfl) Gives.pure

theorem moreElements_first {b : UInt8} (hb : Opens b) (h : Spans bytes i (w ++ [b]))
    (hw : Blank w) :
    Gives (moreElements true) ⟨bytes, i, room⟩ true ⟨bytes, i + w.length, room⟩ := by
  rcases hb with rfl | rfl | rfl <;> exact Gives.bind (peekValue_gives h hw rfl) Gives.pure

theorem moreElements_comma {b : UInt8} (hb : Opens b) (h : Spans bytes i (w ++ [44] ++ w' ++ [b]))
    (hw : Blank w) (hw' : Blank w') :
    Gives (moreElements false) ⟨bytes, i, room⟩ true
      ⟨bytes, i + w.length + 1 + w'.length, room⟩ := by
  rw [List.append_assoc, List.append_assoc, spans_append] at h
  have hcomma : Spans bytes i (w ++ [44]) :=
    spans_append.2 ⟨h.1, spans_cons.2 ⟨(spans_cons.1 h.2).1, spans_nil⟩⟩
  have hnext : Spans bytes (i + w.length + 1) (w' ++ [b]) := (spans_cons.1 h.2).2
  rcases hb with rfl | rfl | rfl <;>
    exact Gives.bind (peekValue_gives hcomma hw rfl)
      (Gives.bind advance_gives (Gives.bind (peekValue_gives hnext hw' rfl) Gives.pure))

theorem moreElements_end {first : Bool} (h : Spans bytes i (w ++ [93])) (hw : Blank w) :
    Gives (moreElements first) ⟨bytes, i, room⟩ false ⟨bytes, i + w.length, room⟩ :=
  Gives.bind (peekValue_gives h hw rfl) Gives.pure

end Separators

/-! ## Nesting, closing, placing -/

section Combinators

variable {α : Type} {bytes : ByteArray} {i j room : Nat} {a : α}

/-- A level of nesting takes the opening bracket and hands the body one level
less of room, which it gets back afterwards. -/
theorem nested_gives {body : Reader α} (hroom : 0 < room)
    (h : Gives body ⟨bytes, i + 1, room⟩ a ⟨bytes, j, room⟩) :
    Gives (nested body) ⟨bytes, i, room + 1⟩ a ⟨bytes, j, room + 1⟩ := by
  refine Gives.bind Gives.get ?_
  dsimp only
  rw [if_neg (by omega)]
  exact Gives.bind Gives.set (Gives.bind (Gives.lift h) (Gives.bind Gives.modify Gives.pure))

theorem closedBy_gives {body : Reader α} {close : Reader Unit} {c c₁ c₂ : Cursor}
    (hb : Gives body c a c₁) (hc : Gives close c₁ () c₂) : Gives (closedBy body close) c a c₂ :=
  Gives.bind (Gives.lift hb) (Gives.bind (Gives.lift hc) Gives.pure)

theorem fixPlace_gives {r : Reader α} {c c' : Cursor} (h : Gives r c a c') :
    Gives (fixPlace r) c a c' := by
  have hr : StateT.run r c = (.ok a, c') := h
  show (ExceptT.tryCatch r _).run.run c = _
  simp only [ExceptT.tryCatch, ExceptT.run_mk, StateT.run_bind, hr]
  rfl

end Combinators

/-! ## Reading a written value -/

/-- With `room` levels of nesting left, reader `r` reads the bytes `l` as `a`:
wherever blanks and then `l` lie ahead of the cursor, it gives `a` and stops
right after `l`. -/
def Reads {α : Type} (r : Reader α) (room : Nat) (l : List UInt8) (a : α) : Prop :=
  ∀ bytes i w, Spans bytes i (w ++ l) → Blank w →
    Gives r ⟨bytes, i, room⟩ a ⟨bytes, i + w.length + l.length, room⟩

namespace Reads

variable {α β : Type} {r : Reader α} {room : Nat} {l : List UInt8} {a : α}

theorem congr {a' : α} (h : Reads r room l a) (ha : a = a') : Reads r room l a' := ha ▸ h

theorem map (g : α → β) (h : Reads r room l a) : Reads (r >>= fun x => pure (g x)) room l (g a) :=
  fun bytes i w hs hw => Gives.bind (h bytes i w hs hw) Gives.pure

end Reads

end Statechart.Json
