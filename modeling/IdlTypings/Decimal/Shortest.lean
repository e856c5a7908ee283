/-!
# Shortest decimals

Every double-precision value is the one that a whole interval of real numbers rounds to.  Of the
decimals in that interval, `shortest` picks one with as few digits as possible, and of those the
nearest.

The search goes through the powers of ten from the greatest down: the first one with a multiple in
the interval gives the fewest digits.
-/

namespace IdlTypings

/-- The number `significand * 10 ^ exponent`. -/
structure Decimal where
  significand : Nat
  exponent : Int
  deriving Repr, BEq, DecidableEq, Inhabited

/-- The number `significand * 2 ^ exponent`, a finite double-precision value without its sign. -/
structure Binary where
  significand : Nat
  exponent : Int
  /-- The value below is half as far away as the value above. -/
  narrowBelow : Bool
  deriving Repr, BEq, DecidableEq, Inhabited

namespace Binary

/-- The value that the bits of a finite number stand for. -/
def ofBits (bits : UInt64) : Binary :=
  let exponent := ((bits >>> 52) &&& 0x7FF).toNat
  let fraction := (bits &&& 0xFFFFFFFFFFFFF).toNat
  if exponent == 0 then ⟨fraction, -1074, false⟩
  else ⟨0x10000000000000 + fraction, (exponent : Int) - 1075, fraction == 0 && exponent > 1⟩

/-- The multiple of a power of ten that rounds to a value, if there is one.  Of two the nearer is
    taken, and of two that are equally near the even one. -/
def multiple? (v : Binary) (power : Int) : Option Decimal :=
  let up := Nat.pow 2 (v.exponent - 2).toNat * Nat.pow 10 (-power).toNat
  let unit := Nat.pow 2 (2 - v.exponent).toNat * Nat.pow 10 power.toNat
  let value := 4 * v.significand * up
  let low := (4 * v.significand - if v.narrowBelow then 1 else 2) * up
  let high := (4 * v.significand + 2) * up
  let inside (n : Nat) : Bool :=
    if v.significand % 2 == 0 then low ≤ n * unit && n * unit ≤ high
    else low < n * unit && n * unit < high
  let down := value / unit
  let nearer := if 2 * value == (2 * down + 1) * unit then down + down % 2
    else if 2 * value < (2 * down + 1) * unit then down else down + 1
  if inside nearer then some ⟨nearer, power⟩
  else if inside down then some ⟨down, power⟩
  else if inside (down + 1) then some ⟨down + 1, power⟩
  else none

/-- A shortest decimal that rounds to a value other than zero, and zero for zero. -/
def shortest (v : Binary) : Decimal :=
  if v.significand == 0 then ⟨0, 0⟩
  else ((List.range 634).findSome? fun (i : Nat) => v.multiple? (309 - i)).getD ⟨0, 0⟩

end Binary

end IdlTypings
