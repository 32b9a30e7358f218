namespace LiveFeed.Double

/-- The nearest number of at most 53 significant bits; of two equally near, the even one. -/
def round (n : Nat) : Nat :=
  let unit := Nat.pow 2 (n.log2 + 1 - 53)
  let q := n / unit
  let r := n % unit
  if unit < 2 * r || (unit = 2 * r && q % 2 = 1) then (q + 1) * unit else q * unit

/--
Whether `significand * 10 ^ exponent` stays below the largest power when it is computed as a product
of two doubles, each rounded on its own and the product rounded again.
-/
def productFits (significand exponent : Nat) : Bool :=
  exponent ≤ 308 && round (round significand * round (Nat.pow 10 exponent)) < Nat.pow 2 1024

/-- The numbers from here on are rounded to infinity. -/
def limit : Nat := Nat.pow 2 1024 - Nat.pow 2 970

/-- Whether `significand * 10 ^ exponent`, rounded once, is a finite double. -/
def fits (significand : Nat) (exponent : Int) : Bool :=
  significand = 0 ||
    match exponent with
    | .ofNat e => e ≤ 308 && significand * Nat.pow 10 e < limit
    | .negSucc e => significand.log2 ≤ e || significand < limit * Nat.pow 10 (e + 1)

end LiveFeed.Double
