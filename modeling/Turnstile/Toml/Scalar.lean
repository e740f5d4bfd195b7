import Turnstile.Number.Binary64
import Turnstile.Toml.Document

namespace Turnstile.Toml

open Number

/-- Digits of a base, where underscores may stand between two of them. -/
def digitRow? (base : Nat) : List Char → Option (List Char × List Char)
  | [] => none
  | [c] => if isDigitOf base c then some ([c], []) else none
  | c :: d :: cs =>
    if isDigitOf base c then
      if isDigitOf base d then (digitRow? base (d :: cs)).map fun r => (c :: r.1, r.2)
      else if d = '_' then (digitRow? base cs).map fun r => (c :: r.1, r.2)
      else some ([c], d :: cs)
    else none

def wholeRow? : List Char → Option (List Char × List Char)
  | '0' :: cs => some (['0'], cs)
  | cs => digitRow? 10 cs

def signChars (negative : Bool) : List Char := if negative then ['-'] else []

/-- An exponent, letter and sign included, without underscores; nothing if there is none. -/
def exponentRow? : List Char → Option (List Char × List Char)
  | c :: cs =>
    if c = 'e' ∨ c = 'E' then
      let r := splitSign cs
      (digitRow? 10 r.2).map fun t => ('e' :: signChars r.1 ++ t.1, t.2)
    else some ([], c :: cs)
  | [] => some ([], [])

/-- A number too great for its type is refused, one too small is not. -/
def float? (text : List Char) : Option Node :=
  match Binary64.ofText? (String.ofList text) with
  | some x => if x.isInfinite false then none else some (.float x)
  | none => none

def decimal? (negative : Bool) (cs : List Char) : Option (Node × List Char) := do
  let (whole, cs) ← wholeRow? cs
  match cs with
  | '.' :: cs =>
    let (fraction, cs) ← digitRow? 10 cs
    let (exponent, cs) ← exponentRow? cs
    let x ← float? (signChars negative ++ whole ++ '.' :: fraction ++ exponent)
    some (x, cs)
  | _ =>
    let (exponent, cs) ← exponentRow? cs
    if exponent = [] then
      let n : Int := Nat.ofDigitChars 10 whole 0
      let i ← toInt64? (if negative then -n else n)
      some (.int i, cs)
    else
      let x ← float? (signChars negative ++ whole ++ exponent)
      some (x, cs)

def based? (base : Nat) (cs : List Char) : Option (Node × List Char) := do
  let (ds, cs) ← digitRow? base cs
  let i ← toInt64? (ofDigitsOf base ds)
  some (.int i, cs)

def number? (cs : List Char) : Option (Node × List Char) :=
  match cs with
  | '0' :: 'x' :: cs => based? 16 cs
  | '0' :: 'o' :: cs => based? 8 cs
  | '0' :: 'b' :: cs => based? 2 cs
  | _ =>
    let r := splitSign cs
    match r.2 with
    | 'i' :: 'n' :: 'f' :: cs => some (.float (.infinite r.1), cs)
    | 'n' :: 'a' :: 'n' :: cs => some (.float .nan, cs)
    | cs => decimal? r.1 cs

def fixed? (n low high : Nat) (cs : List Char) : Option (List Char × List Char) :=
  let ds := cs.take n
  let v := Nat.ofDigitChars 10 ds 0
  if ds.length = n ∧ ds.all Char.isDigit ∧ low ≤ v ∧ v ≤ high then some (ds, cs.drop n) else none

def expect? (c : Char) : List Char → Option (List Char)
  | d :: cs => if d = c then some cs else none
  | [] => none

def daysIn (year month : Nat) : Nat :=
  if month = 2 then
    if year % 4 = 0 ∧ (year % 100 ≠ 0 ∨ year % 400 = 0) then 29 else 28
  else if month = 4 ∨ month = 6 ∨ month = 9 ∨ month = 11 then 30
  else 31

def day? (cs : List Char) : Option (List Char × List Char) := do
  let (y, cs) ← fixed? 4 0 9999 cs
  let cs ← expect? '-' cs
  let (m, cs) ← fixed? 2 1 12 cs
  let cs ← expect? '-' cs
  let (d, cs) ← fixed? 2 1 (daysIn (Nat.ofDigitChars 10 y 0) (Nat.ofDigitChars 10 m 0)) cs
  some (y ++ '-' :: m ++ '-' :: d, cs)

/-- Fractions of a second count to the nanosecond, and zeros at their end are not written. -/
def secondFraction? : List Char → Option (List Char × List Char)
  | '.' :: cs =>
    let r := spanDigits cs
    if r.1 = [] then none
    else
      let ds := ((r.1.take 9).reverse.dropWhile (· = '0')).reverse
      some (if ds = [] then [] else '.' :: ds, r.2)
  | cs => some ([], cs)

def clock? (cs : List Char) : Option (List Char × List Char) := do
  let (h, cs) ← fixed? 2 0 23 cs
  let cs ← expect? ':' cs
  let (m, cs) ← fixed? 2 0 59 cs
  let cs ← expect? ':' cs
  let (s, cs) ← fixed? 2 0 60 cs
  let (f, cs) ← secondFraction? cs
  some (h ++ ':' :: m ++ ':' :: s ++ f, cs)

/-- The distance to universal time, if one is given. No distance at all has a plus sign. -/
def offset? : List Char → Option (List Char × List Char)
  | [] => some ([], [])
  | c :: cs =>
    if c = 'Z' ∨ c = 'z' then some (['Z'], cs)
    else if c = '+' ∨ c = '-' then do
      let (h, cs) ← fixed? 2 0 23 cs
      let cs ← expect? ':' cs
      let (m, cs) ← fixed? 2 0 59 cs
      let minutes := 60 * Nat.ofDigitChars 10 h 0 + Nat.ofDigitChars 10 m 0
      let sign := if c = '-' ∧ minutes ≠ 0 then '-' else '+'
      some (sign :: h ++ ':' :: m, cs)
    else some ([], c :: cs)

def timeOfDay? : List Char → Option (List Char × List Char)
  | c :: cs => if c = 'T' ∨ c = 't' ∨ c = ' ' then clock? cs else none
  | [] => none

def date? (cs : List Char) : Option (Node × List Char) :=
  match day? cs with
  | some (d, cs) =>
    match timeOfDay? cs with
    | some (t, cs) => (offset? cs).map fun r => (.date (String.ofList (d ++ 'T' :: t ++ r.1)), r.2)
    | none => some (.date (String.ofList d), cs)
  | none => (clock? cs).map fun r => (.date (String.ofList r.1), r.2)

end Turnstile.Toml
