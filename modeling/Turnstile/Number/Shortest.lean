import Turnstile.Number.Binary64

namespace Turnstile.Binary64

/-- The decimal exponent of the first digit of `num / den`, as long as that is not below `-fuel`. -/
def decimalExponent (fuel num den : Nat) : Int :=
  if den ≤ num then ((Nat.toDigits 10 (num / den)).length : Int) - 1
  else
    match fuel with
    | 0 => 0
    | fuel + 1 => decimalExponent fuel (10 * num) den - 1

/-- The reals that round to a number, in units of `1 / den`: the number itself, the two ends, and
whether these belong to them. -/
structure Interval where
  value : Nat
  low : Nat
  high : Nat
  den : Nat
  closed : Bool

def interval (m : Nat) (e : Int) : Interval :=
  let scale := Nat.pow 2 e.toNat
  let below := if m = fullMantissa ∧ -1074 < e then 1 else 2
  { value := 4 * m * scale
    low := (4 * m - below) * scale
    high := (4 * m + 2) * scale
    den := 4 * Nat.pow 2 (-e).toNat
    closed := m % 2 = 0 }

def Interval.holds (i : Interval) (c : Nat) (k : Int) : Bool :=
  let x := c * Nat.pow 10 k.toNat * i.den
  let u := Nat.pow 10 (-k).toNat
  if i.closed then i.low * u ≤ x && x ≤ i.high * u else i.low * u < x && x < i.high * u

/-- The multiple of `10 ^ k` in the interval that is nearest to the value; of two equally near
ones the greater. -/
def Interval.nearest? (i : Interval) (k : Int) : Option Nat :=
  let num := i.value * Nat.pow 10 (-k).toNat
  let den := i.den * Nat.pow 10 k.toNat
  let c := num / den
  match i.holds c k, i.holds (c + 1) k with
  | true, true => some (if 2 * (num % den) < den then c else c + 1)
  | true, false => some c
  | false, true => some (c + 1)
  | false, false => none

/-- Tries ever finer grids: the first that meets the interval gives the fewest digits. -/
def Interval.search (i : Interval) : Nat → Int → Nat × Int
  | 0, k => (i.value * Nat.pow 10 (-k).toNat / (i.den * Nat.pow 10 k.toNat), k)
  | tries + 1, k =>
    match i.nearest? k with
    | some c => (c, k)
    | none => i.search tries (k - 1)

/-- The fewest digits that read back as `m · 2 ^ e`, and the power of ten they stand for. -/
def shortest (m : Nat) (e : Int) : Nat × Int :=
  let i := interval m e
  i.search 18 (decimalExponent 400 i.value i.den + 1)

def positional (c : Nat) (k : Int) : List Char :=
  let ds := Nat.toDigits 10 c
  if 0 ≤ k then ds ++ List.replicate k.toNat '0'
  else
    let places := (-k).toNat
    let ds := List.replicate (places + 1 - ds.length) '0' ++ ds
    ds.take (ds.length - places) ++ '.' :: ds.drop (ds.length - places)

def text : Binary64 → String
  | .nan => "NaN"
  | .infinite true => "-inf"
  | .infinite false => "inf"
  | .finite negative m e =>
    let digits := if m = 0 then ['0'] else (positional (shortest m e).1 (shortest m e).2)
    String.ofList (if negative then '-' :: digits else digits)

def pointedText (x : Binary64) : String :=
  match x with
  | .finite .. => if x.text.toList.contains '.' then x.text else x.text ++ ".0"
  | _ => x.text

end Turnstile.Binary64
