import Statechart.Json.Content
/-!
# Readers never give room back

The cursor counts the levels of nesting a reader may still open, and only
`nested` touches that count: it takes a level for its body and gives it back
after. `Within n r P` says that a successful run of `r` from a cursor with at
most `n` levels of room ends with at most `n` again and yields a value with
`P`; a failing run promises nothing. Each combinator of the cursor gets one
rule (`Within.bind`, `nested_within`, `closedBy_within`, `fixPlace_within`),
and each reader of a JSON value one lemma built from them, up to buffered
values of any depth (`read_within`).

A reader that can only fail is `Refuses`: every path through it ends in a
fault, such as the reader that names an unexpected value.
-/
namespace Statechart.Json

variable {α β : Type}

theorem ok_of_bind {x : Reader α} {f : α → Reader β} {c c' : Cursor} {b : β}
    (h : (x >>= f).run.run c = (.ok b, c')) :
    ∃ a c₁, x.run.run c = (.ok a, c₁) ∧ (f a).run.run c₁ = (.ok b, c') := by
  simp only [ExceptT.run_bind, StateT.run_bind] at h
  rcases hx : x.run.run c with ⟨_ | a, c₁⟩
  · rw [hx] at h
    cases h
  · rw [hx] at h
    exact ⟨a, c₁, rfl, h⟩

theorem run_lift (x : Reader α) (c : Cursor) :
    (ExceptT.lift x.run : Reader (Except ReadError α)).run.run c = (.ok (x.run.run c).1, (x.run.run c).2) := by
  simp only [ExceptT.run_lift, StateT.run_map]
  rfl

/-- A handled reader succeeds directly, or fails and its handler succeeds. -/
theorem ok_of_tryCatch {r : Reader α} {handler : ReadError → Reader α} {c c' : Cursor} {a : α}
    (hr : (tryCatch r handler).run.run c = (.ok a, c')) :
    r.run.run c = (.ok a, c') ∨ ∃ e c₁, r.run.run c = (.error e, c₁) ∧ (handler e).run.run c₁ = (.ok a, c') := by
  change (ExceptT.tryCatch r handler).run.run c = _ at hr
  simp only [ExceptT.tryCatch, ExceptT.run_mk, StateT.run_bind] at hr
  rcases hx : StateT.run r c with ⟨e | b, c₁⟩ <;> rw [hx] at hr
  · exact .inr ⟨e, c₁, hx, hr⟩
  · exact .inl (hx.trans hr)

/-- Run from a cursor with at most `n` levels of room, `r` either fails or
succeeds with a value that has `P`, leaving at most `n` levels of room. -/
def Within (n : Nat) (r : Reader α) (P : α → Prop) : Prop :=
  ∀ c a c', c.room ≤ n → r.run.run c = (.ok a, c') → c'.room ≤ n ∧ P a

namespace Within

variable {n : Nat} {P Q : α → Prop}

theorem pure {a : α} (h : P a) : Within n (Pure.pure a) P := by
  intro c b c' hc hr
  cases hr
  exact ⟨hc, h⟩

theorem bind {x : Reader α} {f : α → Reader β} {Q : β → Prop} (hx : Within n x P)
    (hf : ∀ a, P a → Within n (f a) Q) : Within n (x >>= f) Q := by
  intro c b c' hc hr
  obtain ⟨a, c₁, h₁, h₂⟩ := ok_of_bind hr
  obtain ⟨hc₁, ha⟩ := hx c a c₁ hc h₁
  exact hf a ha c₁ b c' hc₁ h₂

theorem mono {r : Reader α} (h : Within n r P) (hPQ : ∀ a, P a → Q a) : Within n r Q :=
  fun c a c' hc hr => (h c a c' hc hr).imp_right (hPQ a)

theorem get : Within n (MonadState.get : Reader Cursor) fun _ => True := by
  intro c a c' hc hr
  cases hr
  exact ⟨hc, trivial⟩

theorem get_bind {f : Cursor → Reader α} (h : ∀ c : Cursor, c.room ≤ n → Within n (f c) P) :
    Within n (MonadState.get >>= f) P := by
  intro c a c' hc hr
  obtain ⟨c₀, c₁, hg, hr⟩ := ok_of_bind hr
  cases hg
  exact h c hc c a c' hc hr

theorem set {c : Cursor} (hc : c.room ≤ n) : Within n (MonadState.set c : Reader PUnit) fun _ => True := by
  intro c₀ a c' _ hr
  cases hr
  exact ⟨hc, trivial⟩

theorem modify {f : Cursor → Cursor} (hf : ∀ c, (f c).room = c.room) :
    Within n (modify f : Reader PUnit) fun _ => True := by
  intro c a c' hc hr
  cases hr
  exact ⟨(hf c).symm ▸ hc, trivial⟩

end Within

/-- A level of nesting runs its body with one level less, and succeeds only
where at least two were left. -/
theorem nested_within {body : Reader α} {n : Nat} {P : α → Prop} (h : Within (n - 1) body P) :
    Within n (nested body) fun a => 2 ≤ n ∧ P a := by
  intro c a c' hc hr
  unfold nested at hr
  obtain ⟨c₀, c₁, hg, hr⟩ := ok_of_bind hr
  cases hg
  split at hr
  · cases hr
  · next hroom =>
    obtain ⟨_, c₂, hs, hr⟩ := ok_of_bind hr
    cases hs
    obtain ⟨res, c₃, hb, hr⟩ := ok_of_bind hr
    rw [run_lift] at hb
    have hb₁ := Except.ok.inj (congrArg Prod.fst hb)
    have hb₂ := congrArg Prod.snd hb
    obtain ⟨_, c₄, hm, hr⟩ := ok_of_bind hr
    cases hm
    cases hres : res with
    | error e => rw [hres] at hr; cases hr
    | ok v =>
      rw [hres] at hr
      cases hr
      have hbody : body.run.run { c with room := c.room - 1, pos := c.pos + 1 } = (.ok a, c₃) := by
        rw [← hres]; exact Prod.ext hb₁ hb₂
      obtain ⟨hc₃, ha⟩ := h _ a c₃ (by show c.room - 1 ≤ n - 1; omega) hbody
      exact ⟨by show c₃.room + 1 ≤ n; omega, by omega, ha⟩

/-- A reader that never succeeds. -/
def Refuses (r : Reader α) : Prop := ∀ c a c', r.run.run c ≠ (.ok a, c')

theorem Refuses.throw {e : ReadError} : Refuses (MonadExcept.throw e : Reader α) :=
  fun _ _ _ h => by cases h

theorem Refuses.bind {x : Reader α} {f : α → Reader β} (hf : ∀ a, Refuses (f a)) : Refuses (x >>= f) := by
  intro c b c' hr
  obtain ⟨a, c₁, -, h₂⟩ := ok_of_bind hr
  exact hf a c₁ b c' h₂

theorem Refuses.bind_left {x : Reader α} {f : α → Reader β} (hx : Refuses x) : Refuses (x >>= f) := by
  intro c b c' hr
  obtain ⟨a, c₁, h₁, -⟩ := ok_of_bind hr
  exact hx c a c₁ h₁

theorem Within.of_refuses {r : Reader α} {n : Nat} {P : α → Prop} (h : Refuses r) : Within n r P :=
  fun c a c' _ hr => absurd hr (h c a c')

theorem failHere_refuses {f : Fault} : Refuses (failHere f : Reader α) :=
  Refuses.bind fun _ => Refuses.throw

theorem failNext_refuses {f : Fault} : Refuses (failNext f : Reader α) :=
  Refuses.bind fun _ => Refuses.throw

theorem failWith_refuses {text : String} : Refuses (failWith text : Reader α) :=
  Refuses.throw

section Readers

variable {n : Nat}

theorem room_skipBlank (c : Cursor) : c.skipBlank.room = c.room := by
  fun_induction Cursor.skipBlank c <;> simp_all

theorem peek_within : Within n peek fun _ => True :=
  Within.bind Within.get fun _ _ => Within.pure trivial

theorem advance_within : Within n advance fun _ => True :=
  Within.modify fun _ => rfl

theorem peekValue_within : Within n peekValue fun _ => True :=
  Within.bind (Within.modify room_skipBlank) fun _ _ => peek_within

theorem next_within : Within n next fun _ => True := by
  refine Within.bind peek_within fun b _ => ?_
  split
  · exact Within.bind advance_within fun _ _ => Within.pure trivial
  · exact Within.pure trivial

theorem fixPlace_within {r : Reader α} {P : α → Prop} (h : Within n r P) : Within n (fixPlace r) P := by
  intro c a c' hc hr
  rcases ok_of_tryCatch hr with hok | ⟨e, c₁, -, hhandler⟩
  · exact h c a c' hc hok
  · -- the handler only ever throws again
    split at hhandler
    · exact absurd hhandler (Refuses.throw c₁ a c')
    · exact absurd hhandler ((Refuses.bind fun _ => Refuses.throw) c₁ a c')

theorem closedBy_within {body : Reader α} {close : Reader Unit} {P : α → Prop} (hb : Within n body P)
    (hc : Within n close fun _ => True) : Within n (closedBy body close) P := by
  intro c a c' hcr hr
  unfold closedBy at hr
  obtain ⟨res, c₁, h₁, hr⟩ := ok_of_bind hr
  obtain ⟨res', c₂, h₂, hr⟩ := ok_of_bind hr
  rw [run_lift] at h₁ h₂
  rcases hbody : body.run.run c with ⟨_ | v, c₃⟩ <;> rw [hbody] at h₁ <;> cases h₁
  · cases hr
  · rcases hclose : close.run.run c₃ with ⟨_ | u, c₄⟩ <;> rw [hclose] at h₂ <;> cases h₂
    · cases hr
    · cases hr
      obtain ⟨hc₃, ha⟩ := hb c _ c₃ hcr hbody
      exact ⟨(hc c₃ u _ hc₃ hclose).1, ha⟩

theorem keyword_within : ∀ rest : List UInt8, Within n (keyword rest) fun _ => True
  | [] => Within.pure trivial
  | b :: bs => by
    unfold keyword
    refine Within.bind next_within fun x _ => ?_
    split
    · split
      · exact keyword_within bs
      · exact Within.of_refuses failHere_refuses
    · exact Within.of_refuses failHere_refuses

theorem closeList_within : Within n closeList fun _ => True := by
  unfold closeList
  refine Within.bind peekValue_within fun b _ => ?_
  split
  · exact advance_within
  · refine Within.bind advance_within fun _ _ => Within.bind peekValue_within fun b _ => ?_
    split <;> exact Within.of_refuses failNext_refuses
  · exact Within.of_refuses failNext_refuses
  · exact Within.of_refuses failNext_refuses

theorem closeObject_within : Within n closeObject fun _ => True := by
  unfold closeObject
  refine Within.bind peekValue_within fun b _ => ?_
  split
  · exact advance_within
  all_goals exact Within.of_refuses failNext_refuses

theorem moreElements_within {first : Bool} : Within n (moreElements first) fun _ => True := by
  unfold moreElements
  refine Within.bind peekValue_within fun b _ => ?_
  split
  · exact Within.of_refuses failNext_refuses
  · exact Within.pure trivial
  · split
    · exact Within.pure trivial
    · split
      · refine Within.bind advance_within fun _ _ => Within.bind peekValue_within fun b _ => ?_
        split
        · exact Within.of_refuses failNext_refuses
        · exact Within.pure trivial
        · exact Within.of_refuses failNext_refuses
      · exact Within.of_refuses failNext_refuses

theorem keyStart_within {b : Option UInt8} : Within n (moreMembers.keyStart b) fun _ => True := by
  unfold moreMembers.keyStart
  split
  · exact Within.pure trivial
  all_goals exact Within.of_refuses failNext_refuses

theorem moreMembers_within {first : Bool} : Within n (moreMembers first) fun _ => True := by
  unfold moreMembers
  refine Within.bind peekValue_within fun b _ => ?_
  split
  · exact Within.pure trivial
  · exact Within.of_refuses failNext_refuses
  · split
    · exact Within.bind advance_within fun _ _ => Within.bind peekValue_within fun _ _ => keyStart_within
    · split
      · exact keyStart_within
      · exact Within.of_refuses failNext_refuses

theorem colon_within : Within n colon fun _ => True := by
  unfold colon
  refine Within.bind peekValue_within fun b _ => ?_
  split
  · exact advance_within
  all_goals exact Within.of_refuses failNext_refuses

theorem elements_go_within {elem : Reader α} (h : Within n elem fun _ => True) :
    ∀ fuel first acc, Within n (elements.go elem fuel first acc) fun _ => True
  | 0, _, _ => Within.pure trivial
  | fuel + 1, first, acc => by
    unfold elements.go
    refine Within.bind moreElements_within fun b _ => ?_
    split
    · exact Within.bind h fun x _ => elements_go_within h fuel false _
    · exact Within.pure trivial

theorem elements_within {elem : Reader α} (h : Within n elem fun _ => True) :
    Within n (elements elem) fun _ => True :=
  Within.bind Within.get fun _ _ => elements_go_within h _ true []

/-- The member loop gives values that the value reader gave. -/
theorem members_go_within {κ : Type} {key : Reader κ} {value : κ → Reader α} {Q : α → Prop}
    (hk : Within n key fun _ => True) (hv : ∀ k, Within n (value k) Q) :
    ∀ fuel first acc, (∀ p ∈ acc, Q p.2) →
      Within n (members.go key value fuel first acc) fun l => ∀ p ∈ l, Q p.2
  | 0, _, acc, hacc => Within.pure fun p hp => hacc p (List.mem_reverse.1 hp)
  | fuel + 1, first, acc, hacc => by
    unfold members.go
    refine Within.bind moreMembers_within fun b _ => ?_
    split
    · refine Within.bind hk fun k _ => Within.bind colon_within fun _ _ =>
        Within.bind (hv k) fun v hv' => members_go_within hk hv fuel false _ fun p hp => ?_
      rcases List.mem_cons.1 hp with rfl | hp
      · exact hv'
      · exact hacc p hp
    · exact Within.pure fun p hp => hacc p (List.mem_reverse.1 hp)

theorem members_within {κ : Type} {key : Reader κ} {value : κ → Reader α} {Q : α → Prop}
    (hk : Within n key fun _ => True) (hv : ∀ k, Within n (value k) Q) :
    Within n (members key value) fun l => ∀ p ∈ l, Q p.2 :=
  Within.bind Within.get fun _ _ => members_go_within hk hv _ true [] fun _ h => by cases h

theorem stringBody_within : Within n stringBody fun _ => True := by
  unfold stringBody
  refine Within.get_bind fun c hc => ?_
  split
  · exact Within.bind (Within.set hc) fun _ _ => Within.pure trivial
  · exact Within.of_refuses (Refuses.bind fun _ => failHere_refuses)

theorem numberBody_within {positive : Bool} : Within n (numberBody positive) fun _ => True := by
  unfold numberBody
  refine Within.get_bind fun c hc => ?_
  split
  · exact Within.bind (Within.set hc) fun _ _ => Within.pure trivial
  · exact Within.of_refuses (Refuses.bind fun _ => failHere_refuses)

theorem key_within : Within n key fun _ => True :=
  Within.bind advance_within fun _ _ => stringBody_within

theorem nested_keeps {body : Reader α} (h : Within (n - 1) body fun _ => True) :
    Within n (nested body) fun _ => True :=
  Within.mono (nested_within h) fun _ _ => trivial

end Readers

/-- A buffered value never gives back room it took. -/
theorem read_within : ∀ depth n, Within n (Content.read depth) fun _ => True
  | 0, _ => Within.of_refuses failNext_refuses
  | depth + 1, n => by
    unfold Content.read
    refine fixPlace_within (Within.bind peekValue_within fun b _ => ?_)
    split
    · exact Within.of_refuses failNext_refuses
    · -- the literals, then the two brackets, whose contents are read one level down
      split
      · exact Within.bind advance_within fun _ _ => Within.bind (keyword_within _) fun _ _ => Within.pure trivial
      split
      · exact Within.bind advance_within fun _ _ => Within.bind (keyword_within _) fun _ _ => Within.pure trivial
      split
      · exact Within.bind advance_within fun _ _ => Within.bind (keyword_within _) fun _ _ => Within.pure trivial
      split
      · exact Within.bind advance_within fun _ _ => Within.bind numberBody_within fun _ _ => Within.pure trivial
      split
      · exact Within.bind numberBody_within fun _ _ => Within.pure trivial
      split
      · exact Within.bind advance_within fun _ _ => Within.bind stringBody_within fun _ _ => Within.pure trivial
      split
      · exact closedBy_within (nested_keeps (Within.bind (elements_within (read_within depth _))
          fun _ _ => Within.pure trivial)) closeList_within
      split
      · exact closedBy_within (nested_keeps (Within.bind (Within.mono (members_within key_within
          fun _ => read_within depth _) fun _ _ => trivial) fun _ _ => Within.pure trivial)) closeObject_within
      exact Within.of_refuses failNext_refuses

end Statechart.Json
