import Turnstile.Toml.Quoted
import Turnstile.Toml.Scalar

namespace Turnstile.Toml

open Number

def isBareKey (c : Char) : Bool := c.isAlphanum || c = '_' || c = '-'

def simpleKey? (cs : List Char) : Option (String × List Char) :=
  match cs with
  | '"' :: cs => (basic? (cs.length + 1) cs).map fun r => (String.ofList r.1, r.2)
  | '\'' :: cs => (literal? cs).map fun r => (String.ofList r.1, r.2)
  | _ =>
    let k := cs.takeWhile isBareKey
    if k = [] then none else some (String.ofList k, cs.dropWhile isBareKey)

/-- The deepest nesting of values, and the longest dotted key. -/
def depthLimit : Nat := 79

def dottedKey? : Nat → List Char → Option (List String × List Char)
  | 0, _ => none
  | fuel + 1, cs => do
    let (k, cs) ← simpleKey? (skipBlanks cs)
    match skipBlanks cs with
    | '.' :: cs => (dottedKey? fuel cs).map fun r => (k :: r.1, r.2)
    | cs => some ([k], cs)

def key? (cs : List Char) : Option (List String × List Char) := dottedKey? depthLimit cs

def skipTrivia : Bool → List Char → List Char
  | _, '\n' :: cs => skipTrivia false cs
  | _, '\r' :: '\n' :: cs => skipTrivia false cs
  | true, c :: cs => if isPlain c then skipTrivia true cs else c :: cs
  | false, c :: cs =>
    if isBlank c then skipTrivia false cs else if c = '#' then skipTrivia true cs else c :: cs
  | _, [] => []

mutual

/-- `room` is how many values may still be nested. -/
def value? : Nat → Nat → List Char → Option (Node × List Char)
  | 0, _, _ => none
  | fuel + 1, room, cs =>
    match cs with
    | '"' :: _ | '\'' :: _ => (quoted? cs).map fun r => (.str r.1, r.2)
    | '[' :: cs =>
      if room = 0 then none else (items? fuel (room - 1) cs).map fun r => (.array r.1, r.2)
    | '\x7b' :: cs =>
      if room = 0 then none
      else
        match skipBlanks cs with
        | '\x7d' :: cs => some (.table .inline [], cs)
        | cs => (members? fuel (room - 1) [] cs).map fun r => (.table .inline r.1, r.2)
    | 't' :: 'r' :: 'u' :: 'e' :: cs => some (.bool true, cs)
    | 'f' :: 'a' :: 'l' :: 's' :: 'e' :: cs => some (.bool false, cs)
    | _ => (date? cs).orElse fun _ => number? cs

def items? : Nat → Nat → List Char → Option (List Node × List Char)
  | 0, _, _ => none
  | fuel + 1, room, cs =>
    match skipTrivia false cs with
    | ']' :: cs => some ([], cs)
    | cs => do
      let (v, cs) ← value? fuel room cs
      match skipTrivia false cs with
      | ',' :: cs => (items? fuel room cs).map fun r => (v :: r.1, r.2)
      | ']' :: cs => some ([v], cs)
      | _ => none

def members? : Nat → Nat → Entries → List Char → Option (Entries × List Char)
  | 0, _, _, _ => none
  | fuel + 1, room, es, cs => do
    let (path, cs) ← key? cs
    let cs ← expect? '=' cs
    let (v, cs) ← value? fuel room (skipBlanks cs)
    let es ← insert v path es
    match skipBlanks cs with
    | ',' :: cs => members? fuel room es cs
    | '\x7d' :: cs => some (es, cs)
    | _ => none

end

def lineEnd? (cs : List Char) : Option (List Char) :=
  let cs := match skipBlanks cs with
    | '#' :: cs => cs.dropWhile isPlain
    | cs => cs
  if cs = [] then some [] else newline? cs

def header? (cs : List Char) : Option (Statement × List Char) :=
  match cs with
  | '[' :: cs => do
    let (path, cs) ← key? cs
    let cs ← expect? ']' cs
    let cs ← expect? ']' cs
    some (.row path, cs)
  | _ => do
    let (path, cs) ← key? cs
    let cs ← expect? ']' cs
    some (.header path, cs)

def entry? (cs : List Char) : Option (Statement × List Char) := do
  let (path, cs) ← key? cs
  let cs ← expect? '=' cs
  let (v, cs) ← value? (2 * cs.length + 2) depthLimit (skipBlanks cs)
  some (.entry path v, cs)

def statements? : Nat → List Char → Option (List Statement)
  | 0, _ => none
  | fuel + 1, cs =>
    match skipTrivia false cs with
    | [] => some []
    | '[' :: cs => do
      let (s, cs) ← header? cs
      let cs ← lineEnd? cs
      let ss ← statements? fuel cs
      some (s :: ss)
    | cs => do
      let (s, cs) ← entry? cs
      let cs ← lineEnd? cs
      let ss ← statements? fuel cs
      some (s :: ss)

/-- Reads a document; a byte order mark may stand in front. -/
def parse? (text : String) : Option Entries := do
  let cs := match text.toList with
    | '\uFEFF' :: cs => cs
    | cs => cs
  let ss ← statements? (cs.length + 1) cs
  ofStatements ss

end Turnstile.Toml
