import Turnstile.Number.Digits
import Turnstile.Settings.Value

namespace Turnstile.Settings

open Number

namespace Segment

def isNameChar (c : Char) : Bool := c.isAlphanum || c = ' ' || c = '_' || c = '-'

def isSpace (c : Char) : Bool := c = ' ' || c = '\t'

def index? (cs : List Char) : Option (Int × List Char) :=
  let cs := cs.dropWhile isSpace
  let (negative, cs) := match cs with
    | '-' :: cs => (true, cs)
    | cs => (false, cs)
  let r := spanDigits cs
  if r.1 = [] then none
  else
    let n := Nat.ofDigitChars 10 r.1 0
    match r.2.dropWhile isSpace with
    | ']' :: rest => (toInt64? (if negative then -(n : Int) else n)).map fun i => (i, rest)
    | _ => none

def name? (cs : List Char) : Option (String × List Char) :=
  let k := cs.takeWhile isNameChar
  if k = [] then none else some (String.ofList k, cs.dropWhile isNameChar)

def segments? : Nat → List Char → Option (List Segment)
  | _, [] => some []
  | 0, _ => none
  | fuel + 1, '.' :: cs => do
    let (k, cs) ← name? cs
    let rest ← segments? fuel cs
    some (.key k :: rest)
  | fuel + 1, '[' :: cs => do
    let (i, cs) ← index? cs
    let rest ← segments? fuel cs
    some (.index i :: rest)
  | _, _ => none

def path? (key : String) : Option (List Segment) := do
  let (k, cs) ← name? key.toList
  let rest ← segments? cs.length cs
  some (.key k :: rest)

/-- The path a key stands for: one that cannot be read as a path is a plain name. -/
def pathOf (key : String) : List Segment := (path? key).getD [.key key]

def endsInKey (path : List Segment) : Bool :=
  match path.getLast? with
  | some (.key _) => true
  | _ => false

end Segment

abbrev Source := List (String × Value)

def Value.overlay (tree : Value) (source : Source) : Value :=
  source.foldl (fun t e => t.setPath (Segment.pathOf e.1) e.2) tree

end Turnstile.Settings
