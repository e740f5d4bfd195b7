import Turnstile.Number.Digits

namespace Turnstile

/-- A JSON text, as far as its reader needs to tell values apart. Of numbers it knows those that
are written as a row of digits; a string that holds half of a surrogate pair has no characters. -/
inductive JsonValue where
  | null
  | bool (b : Bool)
  | number (natural : Option Nat)
  | str (s : Option String)
  | array (items : List JsonValue)
  | object (members : List (Option String × JsonValue))
deriving Inhabited

namespace JsonValue

open Number

def isBlank (c : Char) : Bool := c = ' ' || c = '\t' || c = '\n' || c = '\r'

def skipBlanks (cs : List Char) : List Char := cs.dropWhile isBlank

def unit? (cs : List Char) : Option (Nat × List Char) :=
  let ds := cs.take 4
  if ds.length = 4 ∧ ds.all (isDigitOf 16) then some (ofDigitsOf 16 ds, cs.drop 4) else none

def isHigh (u : Nat) : Bool := 0xd800 ≤ u && u < 0xdc00

def isLow (u : Nat) : Bool := 0xdc00 ≤ u && u < 0xe000

def lowUnit? : List Char → Option (Nat × List Char)
  | '\\' :: 'u' :: cs =>
    match unit? cs with
    | some (u, cs) => if isLow u then some (u, cs) else none
    | none => none
  | _ => none

/-- A character written by its code units; no character for half of a pair. -/
def unicode? (cs : List Char) : Option (Option Char × List Char) := do
  let (u, cs) ← unit? cs
  if isHigh u then
    match lowUnit? cs with
    | some (l, cs) => some (some (Char.ofNat (0x10000 + (u - 0xd800) * 0x400 + (l - 0xdc00))), cs)
    | none => some (none, cs)
  else if isLow u then some (none, cs)
  else some (some (Char.ofNat u), cs)

def escape? : List Char → Option (Option Char × List Char)
  | '"' :: cs => some (some '"', cs)
  | '\\' :: cs => some (some '\\', cs)
  | '/' :: cs => some (some '/', cs)
  | 'b' :: cs => some (some '\x08', cs)
  | 'f' :: cs => some (some '\x0c', cs)
  | 'n' :: cs => some (some '\n', cs)
  | 'r' :: cs => some (some '\r', cs)
  | 't' :: cs => some (some '\t', cs)
  | 'u' :: cs => unicode? cs
  | _ => none

def consChar (c : Option Char) (s : Option (List Char)) : Option (List Char) :=
  match c, s with
  | some c, some s => some (c :: s)
  | _, _ => none

def string? : Nat → List Char → Option (Option (List Char) × List Char)
  | 0, _ => none
  | _ + 1, [] => none
  | _ + 1, '"' :: cs => some (some [], cs)
  | fuel + 1, '\\' :: cs => do
    let (c, cs) ← escape? cs
    let (s, cs) ← string? fuel cs
    some (consChar c s, cs)
  | fuel + 1, c :: cs =>
    if c < ' ' then none else (string? fuel cs).map fun r => (consChar (some c) r.1, r.2)

def text? (cs : List Char) : Option (Option String × List Char) :=
  (string? (cs.length + 1) cs).map fun r => (r.1.map String.ofList, r.2)

def whole? (cs : List Char) : Option (List Char × List Char) :=
  match spanDigits cs with
  | ([], _) => none
  | ('0' :: _ :: _, _) => none
  | r => some r

/-- What is left after the fraction, if there is one; says whether there is. -/
def fraction? : List Char → Option (Bool × List Char)
  | '.' :: cs =>
    let r := spanDigits cs
    if r.1 = [] then none else some (true, r.2)
  | cs => some (false, cs)

def exponent? : List Char → Option (Bool × List Char)
  | c :: cs =>
    if c = 'e' ∨ c = 'E' then
      let r := spanDigits (splitSign cs).2
      if r.1 = [] then none else some (true, r.2)
    else some (false, c :: cs)
  | [] => some (false, [])

def number? (cs : List Char) : Option (JsonValue × List Char) := do
  let (negative, cs) := match cs with
    | '-' :: cs => (true, cs)
    | cs => (false, cs)
  let (ds, cs) ← whole? cs
  let (fraction, cs) ← fraction? cs
  let (exponent, cs) ← exponent? cs
  let n := Nat.ofDigitChars 10 ds 0
  some (.number (if negative || fraction || exponent then none else some n), cs)

mutual

def value? : Nat → List Char → Option (JsonValue × List Char)
  | 0, _ => none
  | fuel + 1, cs =>
    match skipBlanks cs with
    | 'n' :: 'u' :: 'l' :: 'l' :: cs => some (.null, cs)
    | 't' :: 'r' :: 'u' :: 'e' :: cs => some (.bool true, cs)
    | 'f' :: 'a' :: 'l' :: 's' :: 'e' :: cs => some (.bool false, cs)
    | '"' :: cs => (text? cs).map fun r => (.str r.1, r.2)
    | '[' :: cs =>
      match skipBlanks cs with
      | ']' :: cs => some (.array [], cs)
      | cs => (items? fuel cs).map fun r => (.array r.1, r.2)
    | '\x7b' :: cs =>
      match skipBlanks cs with
      | '\x7d' :: cs => some (.object [], cs)
      | cs => (members? fuel cs).map fun r => (.object r.1, r.2)
    | cs => number? cs

def items? : Nat → List Char → Option (List JsonValue × List Char)
  | 0, _ => none
  | fuel + 1, cs => do
    let (v, cs) ← value? fuel cs
    match skipBlanks cs with
    | ',' :: cs => (items? fuel cs).map fun r => (v :: r.1, r.2)
    | ']' :: cs => some ([v], cs)
    | _ => none

def members? : Nat → List Char → Option (List (Option String × JsonValue) × List Char)
  | 0, _ => none
  | fuel + 1, cs =>
    match skipBlanks cs with
    | '"' :: cs => do
      let (k, cs) ← text? cs
      match skipBlanks cs with
      | ':' :: cs => do
        let (v, cs) ← value? fuel cs
        match skipBlanks cs with
        | ',' :: cs => (members? fuel cs).map fun r => ((k, v) :: r.1, r.2)
        | '\x7d' :: cs => some ([(k, v)], cs)
        | _ => none
      | _ => none
    | _ => none

end

def parse? (text : String) : Option JsonValue :=
  match value? (2 * text.toList.length + 2) text.toList with
  | some (v, cs) => if skipBlanks cs = [] then some v else none
  | none => none

def writeChar (c : Char) : List Char :=
  if c = '"' then ['\\', '"']
  else if c = '\\' then ['\\', '\\']
  else if c = '\x08' then ['\\', 'b']
  else if c = '\x0c' then ['\\', 'f']
  else if c = '\n' then ['\\', 'n']
  else if c = '\r' then ['\\', 'r']
  else if c = '\t' then ['\\', 't']
  else if c < ' ' then
    ['\\', 'u', '0', '0', Nat.digitChar (c.toNat / 16), Nat.digitChar (c.toNat % 16)]
  else [c]

def writeString (s : String) : List Char := '"' :: s.toList.flatMap writeChar ++ ['"']

end JsonValue

end Turnstile
