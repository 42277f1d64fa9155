import Sluice.Decimal.Binary

/-!
# The fewest digits that read back

The decimal text of a binary value is the shortest decimal among the reals that round to
it; of two such decimals the nearer one, and on an exact tie the one a rule names. The
search tries grids of ever more digits and tests the two neighbours of the value on each.
-/
namespace Sluice.Decimal

/-- The decimal `digits * 10 ^ exp`. -/
structure Dec where
  digits : Nat
  exp : Int
  deriving DecidableEq

/-- Which of two equally near decimals is taken. -/
inductive Tie where
  | toEven
  | upward
  deriving DecidableEq

/-- Compares `a * 10 ^ i` with `n * 2 ^ j`. -/
def compareScaled (a : Nat) (i : Int) (n : Nat) (j : Int) : Ordering :=
  compare (a * Nat.pow 10 i.toNat * Nat.pow 2 (-j).toNat) (n * Nat.pow 2 j.toNat * Nat.pow 10 (-i).toNat)

/-- The decimal lies among the reals that round to the magnitude, to nearest and ties to
even. -/
def Magnitude.readsBack (x : Magnitude) (d : Dec) : Bool :=
  let below := if x.narrowBelow then 4 * x.m - 1 else 4 * x.m - 2
  let above := 4 * x.m + 2
  let closed := x.m % 2 == 0
  let low := compareScaled d.digits d.exp below (x.q - 2)
  let high := compareScaled d.digits d.exp above (x.q - 2)
  (low == .gt || (closed && low == .eq)) && (high == .lt || (closed && high == .eq))

/-- The least `k` with `m * 2 ^ q < 10 ^ k`, for a positive `m`. The estimate from the
binary logarithm is at most two steps below it. -/
def Magnitude.scale (x : Magnitude) : Int :=
  let estimate := ((x.m.log2 : Int) + x.q) * 30103 / 100000
  let below (k : Int) : Bool := compareScaled 1 k x.m x.q == .gt
  if below (estimate - 1) then estimate - 1
  else if below estimate then estimate
  else if below (estimate + 1) then estimate + 1
  else estimate + 2

/-- The whole number of steps `10 ^ g` in the magnitude. -/
def Magnitude.steps (x : Magnitude) (g : Int) : Nat :=
  x.m * Nat.pow 2 x.q.toNat * Nat.pow 10 (-g).toNat / (Nat.pow 10 g.toNat * Nat.pow 2 (-x.q).toNat)

/-- The better of the two neighbours on the grid `10 ^ g` that reads back, if one does. -/
def Magnitude.onGrid (x : Magnitude) (tie : Tie) (g : Int) : Option Dec :=
  let n := x.steps g
  let down : Dec := ⟨n, g⟩
  let up : Dec := ⟨n + 1, g⟩
  match x.readsBack down, x.readsBack up with
  | true, true =>
      match compareScaled (2 * n + 1) g (2 * x.m) x.q with
      | .gt => some down
      | .lt => some up
      | .eq => some (if tie = .toEven ∧ n % 2 = 0 then down else up)
  | true, false => some down
  | false, true => some up
  | false, false => none

/-- Moves trailing zeros of the digits into the exponent. -/
def stripZeros : Nat → Dec → Dec
  | 0, d => d
  | fuel + 1, d =>
      if d.digits ≠ 0 ∧ d.digits % 10 = 0 then stripZeros fuel ⟨d.digits / 10, d.exp + 1⟩ else d

/-- The decimal that is exactly the magnitude. -/
def Magnitude.exact (x : Magnitude) : Dec :=
  if x.q ≥ 0 then ⟨x.m * Nat.pow 2 x.q.toNat, 0⟩ else ⟨x.m * Nat.pow 5 (-x.q).toNat, x.q⟩

/-- The shortest decimal that reads back as the magnitude. Seventeen digits are enough for
every one; should a search end without a hit, the exact decimal stands in. -/
def Magnitude.shortest (x : Magnitude) (tie : Tie) : Dec :=
  if x.m = 0 then ⟨0, 0⟩
  else
    let k := x.scale
    let grids := (List.range 17).map fun (n : Nat) => k - ((n : Int) + 1)
    stripZeros 20 ((grids.findSome? (x.onGrid tie)).getD x.exact)

end Sluice.Decimal
