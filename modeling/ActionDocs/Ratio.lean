import ActionDocs.Review

/-!
# Coverage as a number

Coverage is reported as a binary fraction of 53 significant bits and as a percentage. Both are
computed in whole numbers.

- `roundDiv`: a quotient rounded to the nearest whole number, halves to the even neighbour.
- `Binary.ofQuotient`: a quotient rounded to 53 significant bits.
- `Coverage.ratio`, `Coverage.percent`: the two reports.
-/

namespace ActionDocs

open Text

/-- The whole number nearest to a quotient. Of two equally near ones it is the even one. -/
def roundDiv (num den : Nat) : Nat :=
  let q := num / den
  let r := num % den
  if 2 * r < den then q
  else if 2 * r > den then q + 1
  else q + q % 2

/-- A power of two. -/
def twoTo (n : Nat) : Nat :=
  Nat.pow 2 n

/-- The number `mantissa / 2 ^ scale`. -/
structure Binary where
  mantissa : Nat
  scale : Nat
  deriving DecidableEq, Repr

namespace Binary

/-- The least mantissa, which has 53 bits. -/
def leastMantissa : Nat := twoTo 52

/-- The positive quotient `num / den`, which is at most 1024, rounded to 53 significant bits. -/
def ofQuotient (num den : Nat) : Binary :=
  -- With this scale the quotient lies between half the least mantissa and twice the least one.
  let low := 52 + den.log2 - num.log2
  let scale := if num * twoTo low < den * leastMantissa then low + 1 else low
  let mantissa := roundDiv (num * twoTo scale) den
  if mantissa < 2 * leastMantissa then ⟨mantissa, scale⟩ else ⟨leastMantissa, scale - 1⟩

/-- The 64 bits of a number in the interchange format: the exponent, offset by 1023, above the 52
bits that follow the leading one. -/
def bits (b : Binary) : Nat :=
  (1023 + 52 - b.scale) * leastMantissa + (b.mantissa - leastMantissa)

end Binary

namespace Coverage

/-- The share of described entries. Where there is nothing to describe, everything is described. -/
def ratio (c : Coverage) : Option Binary :=
  if c.total = 0 then some (.ofQuotient 1 1)
  else if c.described = 0 then none
  else some (.ofQuotient c.described c.total)

/-- The 64 bits of the share, all zero if nothing is described. -/
def ratioBits (c : Coverage) : Nat :=
  match c.ratio with
  | none => 0
  | some b => b.bits

/-- The share in percent: a hundred times the rounded share, itself rounded to 53 significant bits
and then to a whole number. -/
def percent (c : Coverage) : Nat :=
  match c.ratio with
  | none => 0
  | some b =>
    let hundredfold := Binary.ofQuotient (100 * b.mantissa) (twoTo b.scale)
    roundDiv hundredfold.mantissa (twoTo hundredfold.scale)

end Coverage

end ActionDocs
