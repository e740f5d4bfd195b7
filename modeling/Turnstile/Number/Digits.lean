namespace Turnstile.Number

/-- The first whole number too great for a signed 64-bit word. -/
def signedLimit : Nat := 9223372036854775808

def toInt64? (i : Int) : Option Int := if -signedLimit ≤ i ∧ i < signedLimit then some i else none

def spanDigits (cs : List Char) : List Char × List Char :=
  (cs.takeWhile Char.isDigit, cs.dropWhile Char.isDigit)

def splitSign : List Char → Bool × List Char
  | '+' :: cs => (false, cs)
  | '-' :: cs => (true, cs)
  | cs => (false, cs)

def natural? (cs : List Char) : Option Nat :=
  if cs ≠ [] ∧ cs.all Char.isDigit then some (Nat.ofDigitChars 10 cs 0) else none

def int64? (s : String) : Option Int :=
  let r := splitSign s.toList
  match natural? r.2 with
  | none => none
  | some n => toInt64? (if r.1 then -(n : Int) else n)

def uint64? (s : String) : Option UInt64 :=
  let cs := match s.toList with
    | '+' :: cs => cs
    | cs => cs
  match natural? cs with
  | some n => if n < UInt64.size then some n.toUInt64 else none
  | none => none

def hexValue? (c : Char) : Option Nat :=
  if '0' ≤ c ∧ c ≤ '9' then some (c.toNat - '0'.toNat)
  else if 'a' ≤ c ∧ c ≤ 'f' then some (c.toNat - 'a'.toNat + 10)
  else if 'A' ≤ c ∧ c ≤ 'F' then some (c.toNat - 'A'.toNat + 10)
  else none

def isDigitOf (base : Nat) (c : Char) : Bool :=
  match hexValue? c with
  | some n => n < base
  | none => false

def ofDigitsOf (base : Nat) (cs : List Char) : Nat :=
  cs.foldl (fun n c => base * n + (hexValue? c).getD 0) 0

end Turnstile.Number
