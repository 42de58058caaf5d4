/-!
# Shortest decimal text of a binary64 value

A finite value `m · 2^q` stands for every real that rounds to it: those from
halfway to the neighbour below to halfway to the neighbour above, the ends
included exactly when `m` is even (`readsBack`). Its shortest text is the
decimal with the fewest significant digits in that interval; of two such
decimals the nearer to the value wins, and an exact tie goes to the even one.

The search tries the grids `10^(k-1)`, `10^(k-2)`, … where `10^k` is the
least power of ten above the value, and tests the value's two neighbours on
each grid in exact natural-number arithmetic: if any point of a grid lies in
the interval, one of the two neighbours does.

Layout (`render`): positional when the leading digit's exponent lies in
-5 … 15, with `.0` after a whole number; otherwise one digit, the rest after a
point, and `e` with the signed exponent (`e+16`, `e-7`), not padded.
-/
namespace Statechart.Text.Shortest

/-- A finite non-negative binary64 value, `m · 2^q`. -/
structure Binary where
  m : Nat
  q : Int
  /-- The gap to the value below is half the gap to the value above. -/
  narrowBelow : Bool

/-- `digits · 10^exp`. -/
structure Dec where
  digits : Nat
  exp : Int
  deriving Repr, DecidableEq

/-- The magnitude of a finite value from its bits. -/
def Binary.ofBits (b : UInt64) : Binary :=
  let e := ((b >>> 52) &&& 0x7FF).toNat
  let f := (b &&& 0xFFFFFFFFFFFFF).toNat
  if e == 0 then ⟨f, -1074, false⟩
  else ⟨Nat.pow 2 52 + f, (e : Int) - 1075, f == 0 && e > 1⟩

/-- Compares `a · 10^i` with `n · 2^j`, exactly. -/
def cmpScaled (a : Nat) (i : Int) (n : Nat) (j : Int) : Ordering :=
  compare (a * Nat.pow 10 i.toNat * Nat.pow 2 (-j).toNat)
    (n * Nat.pow 2 j.toNat * Nat.pow 10 (-i).toNat)

/-- Whether a decimal lies among the reals that round to the value. -/
def Binary.readsBack (x : Binary) (d : Dec) : Bool :=
  let lo := if x.narrowBelow then 4 * x.m - 1 else 4 * x.m - 2
  let hi := 4 * x.m + 2
  let incl := x.m % 2 == 0
  let cl := cmpScaled d.digits d.exp lo (x.q - 2)
  let ch := cmpScaled d.digits d.exp hi (x.q - 2)
  (cl == .gt || (incl && cl == .eq)) && (ch == .lt || (incl && ch == .eq))

/-- The value as a fraction `num / den` of naturals, scaled by `10^(-j)`. -/
def Binary.over (x : Binary) (j : Int) : Nat × Nat :=
  (x.m * Nat.pow 2 x.q.toNat * Nat.pow 10 (-j).toNat, Nat.pow 2 (-x.q).toNat * Nat.pow 10 j.toNat)

/-- The least `k` with value `< 10^k`, searched downward from `top`. -/
def Binary.scale (x : Binary) : Int :=
  let top : Int := (toString (x.m * Nat.pow 2 x.q.toNat / Nat.pow 2 (-x.q).toNat)).length
  go top 400
where
  /-- Lowers `k` while the value stays below `10^(k-1)`. -/
  go (k : Int) : Nat → Int
    | 0 => k
    | fuel + 1 => if cmpScaled 1 (k - 1) x.m x.q == .gt then go (k - 1) fuel else k

/-- Moves trailing zeros of the digits into the exponent. -/
def Dec.strip (d : Dec) : Dec :=
  go d.digits d.exp d.digits
where
  go (digits : Nat) (exp : Int) : Nat → Dec
    | 0 => ⟨digits, exp⟩
    | fuel + 1 =>
      if digits ≠ 0 ∧ digits % 10 = 0 then go (digits / 10) (exp + 1) fuel else ⟨digits, exp⟩

/-- The value's neighbours on the grid `10^j` that read back, the nearer first
choice; an exact tie goes to the even one. -/
def Binary.onGrid (x : Binary) (j : Int) : Option Dec :=
  let (num, den) := x.over j
  let lo := num / den
  let hiHit := x.readsBack ⟨lo + 1, j⟩
  let loHit := x.readsBack ⟨lo, j⟩
  if loHit && hiHit then
    match compare (2 * num) ((2 * lo + 1) * den) with
    | .lt => some ⟨lo, j⟩
    | .gt => some ⟨lo + 1, j⟩
    | .eq => if lo % 2 == 0 then some ⟨lo, j⟩ else some ⟨lo + 1, j⟩
  else if loHit then some ⟨lo, j⟩
  else if hiHit then some ⟨lo + 1, j⟩
  else none

def Binary.exact (x : Binary) : Dec :=
  if 0 ≤ x.q then ⟨x.m * Nat.pow 2 x.q.toNat, 0⟩ else ⟨x.m * Nat.pow 5 (-x.q).toNat, x.q⟩

/-- The shortest decimal that reads back, of a non-zero value. -/
def Binary.shortest (x : Binary) : Dec :=
  let k := x.scale
  let found := (List.range 17).findSome? fun n => x.onGrid (k - (n + 1 : Nat))
  (found.getD x.exact).strip

/-- An exponent with its sign, `e+16` or `e-7`. -/
def exponentText (e : Int) : String :=
  if 0 ≤ e then "e+" ++ toString e else "e" ++ toString e

/-- Lays out digits `ds` times `10^exp`: positional when the leading digit's
exponent is in -5 … 15, else one digit, a point and a signed exponent. -/
def layout (ds : String) (exp : Int) : String :=
  let len : Int := ds.length
  let kk := len + exp
  let zeros (n : Int) := String.ofList (List.replicate n.toNat '0')
  if 0 ≤ exp ∧ kk ≤ 16 then ds ++ zeros exp ++ ".0"
  else if 0 < kk ∧ kk ≤ 16 then
    String.ofList (ds.toList.take kk.toNat) ++ "." ++ String.ofList (ds.toList.drop kk.toNat)
  else if -5 < kk ∧ kk ≤ 0 then "0." ++ zeros (-kk) ++ ds
  else if len = 1 then ds ++ exponentText (kk - 1)
  else
    String.ofList (ds.toList.take 1) ++ "." ++ String.ofList (ds.toList.drop 1) ++
      exponentText (kk - 1)

/-- The shortest text of a binary64 value, given by its bits. -/
def ofBits (b : UInt64) : String :=
  let sign := if b >>> 63 == 1 then "-" else ""
  let e := (b >>> 52) &&& 0x7FF
  let f := b &&& 0xFFFFFFFFFFFFF
  if e == 0x7FF then (if f == 0 then sign ++ "inf" else "NaN")
  else if e == 0 && f == 0 then sign ++ "0.0"
  else
    let d := (Binary.ofBits b).shortest
    sign ++ layout (toString d.digits) d.exp

/-- The shortest text of a float. -/
def render (x : Float) : String := ofBits x.toBits

end Statechart.Text.Shortest
