import Turnstile.Number.Digits

namespace Turnstile

/-- A binary floating-point number of 64 bits, the finite ones as `± mantissa · 2 ^ exponent`. -/
inductive Binary64 where
  | finite (negative : Bool) (mantissa : Nat) (exponent : Int)
  | infinite (negative : Bool)
  | nan
deriving DecidableEq, Repr

namespace Binary64

def fullMantissa : Nat := 4503599627370496

def zero (negative : Bool) : Binary64 := .finite negative 0 0

def roundEven (num den : Nat) : Nat :=
  let q := num / den
  let r := num % den
  if 2 * r < den then q
  else if den < 2 * r then q + 1
  else if q % 2 = 0 then q else q + 1

/-- The exponent `e` with `2 ^ e ≤ num / den < 2 ^ (e + 1)`. -/
def floorLog2 (num den : Nat) : Int :=
  let t : Int := (num.log2 : Int) - den.log2
  if num * Nat.pow 2 (-t).toNat < den * Nat.pow 2 t.toNat then t - 1 else t

/-- The number nearest to `num / den`, of two equally near ones that with the even mantissa; no
mantissa has more than 53 bits and no exponent is below -1074. -/
def ofRatio (negative : Bool) (num den : Nat) : Binary64 :=
  if num = 0 then zero negative
  else
    let e := max (floorLog2 num den - 52) (-1074)
    let m := roundEven (num * Nat.pow 2 (-e).toNat) (den * Nat.pow 2 e.toNat)
    let (m, e) := if m = 2 * fullMantissa then (fullMantissa, e + 1) else (m, e)
    if m = 0 then zero negative
    else if 971 < e then .infinite negative
    else .finite negative m e

/-- The number nearest to `digits · 10 ^ scale`. Far outside the range nothing is computed. -/
def ofDecimal (negative : Bool) (digits : Nat) (scale : Int) : Binary64 :=
  let size := ((Nat.toDigits 10 digits).length : Int) + scale
  if digits = 0 then zero negative
  else if 310 < size then .infinite negative
  else if size < -330 then zero negative
  else ofRatio negative (digits * Nat.pow 10 scale.toNat) (Nat.pow 10 (-scale).toNat)

/-- Rounds to the nearest whole number, a half away from zero, and stops at the ends of the
64-bit range. -/
def toUInt64 : Binary64 → UInt64
  | .nan => 0
  | .infinite true => 0
  | .infinite false => (UInt64.size - 1).toUInt64
  | .finite true _ _ => 0
  | .finite false m e =>
    let n := (2 * (m * Nat.pow 2 e.toNat) + Nat.pow 2 (-e).toNat) / (2 * Nat.pow 2 (-e).toNat)
    (min n (UInt64.size - 1)).toUInt64

def isInfinite (negative : Bool) (x : Binary64) : Bool := x = .infinite negative

open Number

def exponent? : List Char → Option Int
  | [] => some 0
  | c :: cs =>
    if c = 'e' ∨ c = 'E' then
      let r := splitSign cs
      (natural? r.2).map fun n => if r.1 then -(n : Int) else n
    else none

/-- Digits with a point among, before or behind them, and perhaps an exponent. -/
def unsigned? (negative : Bool) (cs : List Char) : Option Binary64 :=
  let (whole, rest) := spanDigits cs
  let (fraction, rest) := match rest with
    | '.' :: rest => spanDigits rest
    | _ => ([], rest)
  if whole ++ fraction = [] then none
  else
    (exponent? rest).map fun e =>
      ofDecimal negative (Nat.ofDigitChars 10 (whole ++ fraction) 0) (e - fraction.length)

def ofText? (s : String) : Option Binary64 :=
  let r := splitSign s.toList
  match String.ofList (r.2.map Char.toLower) with
  | "inf" | "infinity" => some (.infinite r.1)
  | "nan" => some .nan
  | _ => unsigned? r.1 r.2

end Binary64

end Turnstile
