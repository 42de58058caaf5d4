import Mathlib.Tactic.SplitIfs
import Statechart.Proofs.Json.Reader
import Statechart.Json.Pretty
/-!
# Quoted strings read back

`quote` writes a string between quotes, each character through `escapeChar`:
the quote, the backslash and the control characters become escapes, every
other character is written as its own UTF-8 bytes. The string reader decodes
such text back byte by byte (`scanString`).

Each character's text is decoded into that character's UTF-8 bytes
(`scanString_escapeChar`): a short escape and a `\u00XX` escape give the one
byte of the character, and the bytes of any other character are none of a
quote, a backslash or a control byte, so they are copied. Over the whole
string the decoded bytes are the string's own, and the reader gives back the
string that was quoted (`stringBody_gives`, `key_gives`).
-/
namespace Statechart.Json

/-! ## Bytes of a text -/

/-- The UTF-8 bytes of a text. -/
def utf8 (s : String) : List UInt8 := s.toByteArray.data.toList

@[simp] theorem utf8_append (s t : String) : utf8 (s ++ t) = utf8 s ++ utf8 t := by
  simp [utf8, String.toByteArray_append]

theorem utf8_eq_flatMap (s : String) : utf8 s = s.toList.flatMap String.utf8EncodeChar := by
  rw [utf8, ← String.utf8Encode_toList, List.utf8Encode, List.data_toByteArray]

theorem utf8_join : ∀ l : List String, utf8 (String.join l) = l.flatMap utf8
  | [] => by simp [String.join_nil, utf8]
  | s :: l => by rw [String.join_cons, utf8_append, utf8_join l, List.flatMap_cons]

/-- What `quote` writes between its quotes. -/
def escaped (s : String) : List UInt8 := s.toList.flatMap fun c => utf8 (escapeChar c)

theorem utf8_quote (s : String) : utf8 (quote s) = 34 :: escaped s ++ [34] := by
  simp only [quote, utf8_append, utf8_join, List.flatMap_map, escaped]
  rfl

theorem data_foldl_push : ∀ (l : List UInt8) (acc : ByteArray),
    (l.foldl ByteArray.push acc).data.toList = acc.data.toList ++ l
  | [], _ => by simp
  | b :: l, acc => by
    rw [List.foldl_cons, data_foldl_push l, List.append_cons,
      show (acc.push b).data = acc.data.push b from rfl, Array.toList_push]

/-- The UTF-8 bytes of a string, pushed into an empty array, are the string's own array. -/
theorem foldl_push_utf8 (s : String) :
    (utf8 s).foldl ByteArray.push ByteArray.empty = s.toByteArray := by
  have h := data_foldl_push (utf8 s) ByteArray.empty
  rw [ByteArray.data_empty, Array.toList_empty, List.nil_append] at h
  exact ByteArray.ext (Array.toList_inj.1 h)

theorem fromUTF8?_toByteArray (s : String) : String.fromUTF8? s.toByteArray = some s := by
  rw [String.fromUTF8?, dif_pos s.isValidUTF8]
  rfl

/-! ## Decoding, byte by byte -/

section Scan

variable {bytes : ByteArray} {i : Nat} {acc : ByteArray}

/-- A byte the string reader copies as it is: no quote, no backslash, no
control byte. -/
def Plain (b : UInt8) : Prop := 32 ≤ b.toNat ∧ b.toNat ≠ 34 ∧ b.toNat ≠ 92

theorem scanString_quote (h : bytes[i]? = some 34) : scanString bytes i acc = .ok (acc, i + 1) := by
  obtain ⟨hlt, hget⟩ := getElem?_eq_some_iff.1 h
  rw [scanString, dif_pos hlt]
  simp only [hget]
  rfl

theorem scanString_plain {b : UInt8} (h : bytes[i]? = some b) (hb : Plain b) :
    scanString bytes i acc = scanString bytes (i + 1) (acc.push b) := by
  obtain ⟨hlt, hget⟩ := getElem?_eq_some_iff.1 h
  obtain ⟨h32, hq, hbs⟩ := hb
  have hq' : (b == 34) = false := by simp [← UInt8.toNat_inj]; omega
  have hbs' : (b == 92) = false := by simp [← UInt8.toNat_inj]; omega
  have hlow : ¬ b < 32 := by simp [UInt8.lt_iff_toNat_lt]; omega
  rw [scanString, dif_pos hlt]
  simp only [hget, hq', hbs', hlow, Bool.false_eq_true, if_false]

theorem scanString_plains : ∀ {l : List UInt8} {i : Nat} {acc : ByteArray}, Spans bytes i l →
    (∀ b ∈ l, Plain b) →
    scanString bytes i acc = scanString bytes (i + l.length) (l.foldl ByteArray.push acc)
  | [], _, _, _, _ => rfl
  | b :: l, i, acc, h, hp => by
    rw [spans_cons] at h
    rw [scanString_plain h.1 (hp b List.mem_cons_self),
      scanString_plains h.2 fun b hb => hp b (List.mem_cons_of_mem _ hb), List.length_cons,
      List.foldl_cons, Nat.add_assoc, Nat.add_comm 1]

theorem scanString_escape {acc' : ByteArray} {j : Nat} (h : bytes[i]? = some 92)
    (he : escapeAt bytes (i + 1) acc = .ok (acc', j)) (hij : i < j) :
    scanString bytes i acc = scanString bytes j acc' := by
  obtain ⟨hlt, hget⟩ := getElem?_eq_some_iff.1 h
  rw [scanString, dif_pos hlt]
  simp only [hget, he, hij]
  rfl

theorem unicodeEscape_ascii {j n k : Nat} (h : hexEscape bytes j = .ok (n, k)) (hn : n < 0x80) :
    unicodeEscape bytes j acc = .ok (acc.push n.toUInt8, k) := by
  rw [unicodeEscape, h]
  simp only [bind, Except.bind]
  rw [if_neg (by omega)]
  simp only [pure, Except.pure]
  rw [if_pos (by omega)]
  simp only [pushCodePoint, if_pos hn]

end Scan

/-! ## One character -/

/-- The characters `escapeChar` writes as a backslash and one letter. -/
def shortEscaped : List Char := ['"', '\\', '\x08', '\x0c', '\n', '\r', '\t']

/-- A control character without a short escape is written as `\u00` and two
hex digits, which decode to its code. -/
theorem escapeChar_control : ∀ n < 32, Char.ofNat n ∉ shortEscaped →
    utf8 (escapeChar (Char.ofNat n)) =
      [92, 117, 48, 48] ++ (utf8 (escapeChar (Char.ofNat n))).drop 4 ∧
    ((utf8 (escapeChar (Char.ofNat n))).drop 4).map hexDigit? = [some (n / 16), some (n % 16)] ∧
    String.utf8EncodeChar (Char.ofNat n) = [n.toUInt8] := by
  decide

/-- Every byte of a character other than a control character, the quote and
the backslash is copied by the string reader. -/
theorem plain_utf8EncodeChar {c : Char} (h32 : 32 ≤ c.toNat) (hq : c.toNat ≠ 34)
    (hb : c.toNat ≠ 92) : ∀ b ∈ String.utf8EncodeChar c, Plain b := by
  have hv : c.val.toNat = c.toNat := rfl
  simp only [String.utf8EncodeChar]
  split_ifs <;> simp only [List.mem_cons, List.not_mem_nil, or_false] <;>
    rintro b (rfl | rfl | rfl | rfl) <;> simp [Plain] <;> omega

section Char

variable {bytes : ByteArray} {i : Nat} {acc : ByteArray}

theorem scanString_shortEscaped {c : Char} (hc : c ∈ shortEscaped)
    (h : Spans bytes i (utf8 (escapeChar c))) :
    scanString bytes i acc = scanString bytes (i + (utf8 (escapeChar c)).length)
      ((String.utf8EncodeChar c).foldl ByteArray.push acc) := by
  -- each of the seven is a backslash and a letter that `escapeAt` turns into the character
  obtain ⟨x, y, hl, henc, hesc⟩ : ∃ x y, utf8 (escapeChar c) = [92, x] ∧
      String.utf8EncodeChar c = [y] ∧
      ∀ j, bytes[j]? = some x → escapeAt bytes j acc = .ok (acc.push y, j + 1) := by
    simp only [shortEscaped, List.mem_cons, List.not_mem_nil, or_false] at hc
    rcases hc with rfl | rfl | rfl | rfl | rfl | rfl | rfl <;>
      exact ⟨_, _, rfl, rfl, fun j hj => by rw [escapeAt, hj]; rfl⟩
  rw [hl] at h ⊢
  rw [spans_cons, spans_cons] at h
  rw [henc, List.length_cons, List.length_cons, List.length_nil]
  exact scanString_escape h.1 (hesc _ h.2.1) (by omega)

theorem scanString_control {c : Char} (hc : c.toNat < 32) (hs : c ∉ shortEscaped)
    (h : Spans bytes i (utf8 (escapeChar c))) :
    scanString bytes i acc = scanString bytes (i + (utf8 (escapeChar c)).length)
      ((String.utf8EncodeChar c).foldl ByteArray.push acc) := by
  have hn : Char.ofNat c.toNat = c := Char.ofNat_toNat c
  obtain ⟨hl, hhex, henc⟩ := escapeChar_control c.toNat hc (by rwa [hn])
  rw [hn] at hl hhex henc
  generalize hd : (utf8 (escapeChar c)).drop 4 = d at hl hhex
  obtain ⟨d₁, d₀, rfl, hd₁, hd₀⟩ : ∃ d₁ d₀, d = [d₁, d₀] ∧ hexDigit? d₁ = some (c.toNat / 16) ∧
      hexDigit? d₀ = some (c.toNat % 16) := by
    rcases d with _ | ⟨d₁, _ | ⟨d₀, _ | ⟨_, _⟩⟩⟩ <;> simp at hhex
    exact ⟨d₁, d₀, rfl, hhex⟩
  rw [hl] at h ⊢
  simp only [List.cons_append, List.nil_append, spans_cons] at h
  obtain ⟨h92, h117, h0, h0', h₁, h₀, -⟩ := h
  have hbyte : ∀ k b, bytes[k]? = some b → byteAt bytes k = b := fun k b hk => by
    rw [byteAt, hk, Option.getD_some]
  -- the four hex digits `0`, `0` and the two of the code
  have hexe : hexEscape bytes (i + 1 + 1) = .ok (c.toNat, i + 1 + 1 + 4) := by
    have hsize := (getElem?_eq_some_iff.1 h₀).1
    rw [hexEscape, if_pos (by omega), hbyte _ _ h0, hbyte _ _ h0', hbyte _ _ h₁, hbyte _ _ h₀,
      hd₁, hd₀]
    simp only [show hexDigit? 48 = some 0 from rfl, Except.ok.injEq, Prod.mk.injEq, and_true]
    omega
  rw [henc]
  refine scanString_escape h92 ?_ (by simp)
  rw [escapeAt, h117]
  exact unicodeEscape_ascii hexe (by omega)

/-- Any character's escaped text decodes to the character's UTF-8 bytes. -/
theorem scanString_escapeChar (c : Char) (h : Spans bytes i (utf8 (escapeChar c))) :
    scanString bytes i acc = scanString bytes (i + (utf8 (escapeChar c)).length)
      ((String.utf8EncodeChar c).foldl ByteArray.push acc) := by
  by_cases hs : c ∈ shortEscaped
  · exact scanString_shortEscaped hs h
  by_cases hc : c.toNat < 32
  · exact scanString_control hc hs h
  -- any other character is written as it is, and none of its bytes stops the scan
  simp only [shortEscaped, List.mem_cons, List.not_mem_nil, or_false, not_or] at hs
  obtain ⟨hq, hb, h8, h12, h10, h13, h9⟩ := hs
  have hplain : escapeChar c = c.toString := by
    simp [escapeChar, hq, hb, h8, h12, h10, h13, h9, show ¬ c.toNat < 0x20 by omega]
  have hbytes : utf8 (escapeChar c) = String.utf8EncodeChar c := by
    rw [hplain, utf8_eq_flatMap, Char.toString, String.toList_singleton, List.flatMap_singleton]
  have hcode : ∀ {d : Char}, c ≠ d → c.toNat ≠ d.toNat := fun hd he =>
    hd (by rw [← Char.ofNat_toNat c, he, Char.ofNat_toNat])
  rw [hbytes] at h ⊢
  exact scanString_plains h (plain_utf8EncodeChar (by omega) (hcode hq) (hcode hb))

end Char

/-! ## Whole strings -/

section Strings

variable {bytes : ByteArray} {room : Nat}

/-- The body of a quoted list of characters decodes to their UTF-8 bytes, and
the scan stops after the closing quote. -/
theorem scanString_escaped : ∀ (cs : List Char) {i : Nat} {acc : ByteArray},
    Spans bytes i ((cs.flatMap fun c => utf8 (escapeChar c)) ++ [34]) →
    scanString bytes i acc = .ok ((cs.flatMap String.utf8EncodeChar).foldl ByteArray.push acc,
      i + (cs.flatMap fun c => utf8 (escapeChar c)).length + 1)
  | [], i, acc, h => scanString_quote h.head
  | c :: cs, i, acc, h => by
    rw [List.flatMap_cons, List.append_assoc, spans_append] at h
    rw [scanString_escapeChar c h.1, scanString_escaped cs h.2, List.flatMap_cons,
      List.flatMap_cons, List.foldl_append, List.length_append, Nat.add_assoc i]

/-- The string reader, after the opening quote of a quoted string, gives the
string back and stops after the closing quote. -/
theorem stringBody_gives (s : String) {i : Nat} (h : Spans bytes i (escaped s ++ [34])) :
    Gives stringBody ⟨bytes, i, room⟩ s ⟨bytes, i + (escaped s).length + 1, room⟩ := by
  refine Gives.bind Gives.get ?_
  dsimp only
  rw [scanString_escaped s.toList h, ← utf8_eq_flatMap, foldl_push_utf8]
  refine Gives.bind Gives.set ?_
  rw [fromUTF8?_toByteArray]
  exact Gives.pure

/-- An object key is read from its opening quote. -/
theorem key_gives (s : String) {i : Nat} (h : Spans bytes i (utf8 (quote s))) :
    Gives key ⟨bytes, i, room⟩ s ⟨bytes, i + (utf8 (quote s)).length, room⟩ := by
  rw [utf8_quote, List.cons_append, spans_cons] at h
  have hend : i + (34 :: escaped s ++ [34]).length = i + 1 + (escaped s).length + 1 := by
    simp only [List.cons_append, List.length_cons, List.length_append, List.length_nil]
    omega
  rw [utf8_quote, hend]
  exact Gives.bind advance_gives (stringBody_gives s h.2)

end Strings

end Statechart.Json
