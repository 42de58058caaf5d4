/-!
# How an actor id is written

An actor's id is shown as a random version 4 UUID. Actors are numbered in the
order they are made (`ActorId`), since a run only ever asks whether two ids are
equal; what the UUID form fixes is the text of an id.

A version 4 UUID has 122 random bits: thirty random hex digits, and the low
two bits of the variant digit, whose top bits are `10`. It is written as its
32 hex digits in lowercase, in groups of 8, 4, 4, 4 and 12 joined by hyphens,
the version digit `4` opening the third group and the variant digit (`8` to
`b`) the fourth. Serialised, an id is that same text.
-/
namespace Statechart

/-- A version 4 UUID, given by its random bits. -/
structure Uuid where
  random : List (Fin 16)
  length_random : random.length = 30
  /-- The two random low bits of the variant digit. -/
  variant : Fin 4

namespace Uuid

/-- The UUID whose 122 random bits are the low bits of `bits`. -/
def ofBits (bits : Nat) : Uuid where
  random := (List.range 30).map fun k => ⟨bits >>> (4 * k) % 16, Nat.mod_lt _ (by decide)⟩
  length_random := by rw [List.length_map, List.length_range]
  variant := ⟨bits >>> 120 % 4, Nat.mod_lt _ (by decide)⟩

/-- The 32 hex digits: the version `4` at place 12, the variant digit at
place 16 and the random digits around them. -/
def digits (u : Uuid) : List Nat :=
  let r := u.random.map Fin.val
  r.take 12 ++ 4 :: (r.drop 12).take 3 ++ (8 + u.variant.val) :: r.drop 15

/-- The version number, read from its digit. -/
def version (u : Uuid) : Nat := u.digits.getD 12 0

/-- The top two bits of the variant digit. -/
def variantBits (u : Uuid) : Nat := u.digits.getD 16 0 / 4

/-- The id as displayed: lowercase hex, hyphenated. -/
def render (u : Uuid) : String :=
  let h := u.digits.map Nat.digitChar
  String.ofList (h.take 8 ++ '-' :: (h.drop 8).take 4 ++ '-' :: (h.drop 12).take 4 ++
    '-' :: (h.drop 16).take 4 ++ '-' :: h.drop 20)

/-- The id as serialised: its displayed text. -/
def serialize (u : Uuid) : String := u.render

variable (u : Uuid)

@[simp] theorem length_digits : u.digits.length = 32 := by
  simp [digits, u.length_random]

/-- Every id is of version 4, with variant bits `10`. -/
theorem version_eq : u.version = 4 := by
  have h := u.length_random
  simp [version, digits, List.getD_eq_getElem?_getD, h]

theorem variantBits_eq : u.variantBits = 2 := by
  have h := u.length_random
  simp [variantBits, digits, List.getD_eq_getElem?_getD, h]
  omega

theorem length_render : u.render.length = 36 := by
  simp only [render, String.length_ofList, List.length_append, List.length_cons, List.length_take,
    List.length_drop, List.length_map, length_digits]
  omega

/-- The text shows the version as the first digit of its third group. -/
theorem render_version : u.render.toList[14]? = some '4' := by
  have h := u.length_random
  simp [render, digits, h]

theorem length_serialize : u.serialize.length = 36 := u.length_render

end Uuid

end Statechart
