import IdlTypings.Decimal.Shortest
import IdlTypings.Json.Basic
import IdlTypings.Text.Parser

/-!
# Numbers in JSON text

An integer of up to 64 bits is kept exactly.  Every other number becomes a double-precision value:
the digits that fit into 64 bits are rounded to a double, which is then multiplied or divided by a
power of ten.  Further digits do not matter, except that those before the point raise the
exponent.  A number that would be infinite is none.
-/

namespace IdlTypings.Json

open IdlTypings.Parser

/-! ## The text of a double -/

/-- The text of a decimal.  The point stands among the digits while it is at most sixteen places
    after the first one, or at most four zeros follow it; otherwise an exponent is written. -/
def decimalText (d : Decimal) : String :=
  let digits := Nat.toDigits 10 d.significand
  let point : Int := digits.length + d.exponent
  let zeros (n : Int) : List Char := List.replicate n.toNat '0'
  let layout :=
    if d.significand == 0 then "0.0".toList
    else if 0 ≤ d.exponent && point ≤ 16 then digits ++ zeros d.exponent ++ ".0".toList
    else if 0 < point && point ≤ 16 then
      digits.take point.toNat ++ '.' :: digits.drop point.toNat
    else if -5 < point && point ≤ 0 then "0.".toList ++ zeros (-point) ++ digits
    else
      let exponent := 'e' :: (toString (point - 1)).toList
      match digits with
      | first :: second :: rest => first :: '.' :: second :: rest ++ exponent
      | _ => digits ++ exponent
  String.ofList layout

/-- The number that a finite double is, by its shortest text. -/
def Number.ofFloat (value : Float) : Number :=
  let bits := value.toBits
  let sign := if bits >>> 63 == 1 then "-" else ""
  .floating (sign ++ decimalText (Binary.ofBits bits).shortest)

/-! ## Reading -/

/-- The digits of a number as they are written. -/
structure Numeral where
  negative : Bool
  /-- The digits before the point. -/
  whole : List Char
  /-- The digits after the point, if there is one. -/
  fraction : Option (List Char)
  /-- Whether the exponent is negative, and its digits. -/
  exponent : Option (Bool × List Char)
  deriving Repr, BEq, DecidableEq, Inhabited

def isDigit (c : Char) : Bool :=
  c.isDigit

/-- The digits before the point: no zero before another digit. -/
def wholeDigits : Parser (List Char) := do
  let digits ← takeWhile1 isDigit
  if digits.head? == some '0' && digits.length > 1 then failure
  return digits

def exponentPart : Parser (Bool × List Char) := do
  let _ ← satisfy fun c => c == 'e' || c == 'E'
  let negative ← (do exactly ['-']; return true) <|> (do exactly ['+']; return false) <|> pure false
  let digits ← takeWhile1 isDigit
  return (negative, digits)

/-- A number as it is written.  A point or the letter of an exponent must have digits after it. -/
def numeral : Parser Numeral := do
  let negative ← present (exactly ['-'])
  let whole ← wholeDigits
  let pointed ← present (exactly ['.'])
  let fraction ← if pointed then some <$> takeWhile1 isDigit else pure none
  let exponent ← (some <$> exponentPart) <|> (do notFollowedBy (fun c => c == 'e' || c == 'E'); return none)
  return ⟨negative, whole, fraction, exponent⟩

def digitValue (c : Char) : Nat :=
  c.toNat - '0'.toNat

def digitsValue (digits : List Char) : Nat :=
  digits.foldl (fun n c => 10 * n + digitValue c) 0

/-- Appends digits to a significand while it fits into 64 bits; also the digits that are left. -/
def absorb (significand : Nat) : List Char → Nat × List Char
  | [] => (significand, [])
  | c :: rest =>
    let next := 10 * significand + digitValue c
    if next < 2 ^ 64 then absorb next rest else (significand, c :: rest)

/-- A power of ten as a double. -/
def powerOfTen (n : Nat) : Float :=
  Float.ofScientific 1 false n

/-- A significand of up to 64 bits, scaled by a power of ten; nothing if that is infinite.  The
    double is divided by 10 to the 308 before it is divided by what is left of a smaller power. -/
def scale (significand : Nat) (exponent : Int) : Option Float :=
  let value := significand.toUInt64.toFloat
  let n := exponent.natAbs
  if significand == 0 then some value
  else if 0 ≤ exponent then
    if n ≤ 308 && (value * powerOfTen n).isFinite then some (value * powerOfTen n) else none
  else if n ≤ 308 then some (value / powerOfTen n)
  else if n ≤ 616 then some (value / powerOfTen 308 / powerOfTen (n - 308))
  else some 0

/-- The exponent of a numeral.  Beyond 31 bits it is as good as infinite. -/
def Numeral.power (n : Numeral) : Int :=
  match n.exponent with
  | none => 0
  | some (negative, digits) => if negative then -digitsValue digits else digitsValue digits

/-- The number that a numeral stands for. -/
def Numeral.value (n : Numeral) : Option Number :=
  let (whole, dropped) := absorb 0 n.whole
  if dropped.isEmpty && n.fraction.isNone && n.exponent.isNone &&
      (!n.negative || 0 < whole && whole ≤ 0x8000000000000000) then
    some (.integer (if n.negative then -whole else whole))
  else
    let fraction := n.fraction.getD []
    let (significand, ignored) := absorb whole fraction
    let kept := fraction.length - ignored.length
    (scale significand (dropped.length - kept + n.power)).map fun value =>
      .ofFloat (if n.negative then -value else value)

def numberText : Parser Number := do
  let n ← numeral
  n.value

end IdlTypings.Json
