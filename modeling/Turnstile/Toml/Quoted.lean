import Turnstile.Number.Digits

namespace Turnstile.Toml

open Number

def isBlank (c : Char) : Bool := c = ' ' || c = '\t'

def skipBlanks (cs : List Char) : List Char := cs.dropWhile isBlank

def isPlain (c : Char) : Bool := c = '\t' || (' ' ≤ c && c ≠ '\x7f')

def newline? : List Char → Option (List Char)
  | '\n' :: cs => some cs
  | '\r' :: '\n' :: cs => some cs
  | _ => none

def unicode? (n : Nat) (cs : List Char) : Option (Char × List Char) :=
  let ds := cs.take n
  if ds.length = n ∧ ds.all (isDigitOf 16) then
    let v := ofDigitsOf 16 ds
    if v.isValidChar then some (Char.ofNat v, cs.drop n) else none
  else none

def escape? : List Char → Option (Char × List Char)
  | 'b' :: cs => some ('\x08', cs)
  | 't' :: cs => some ('\t', cs)
  | 'n' :: cs => some ('\n', cs)
  | 'f' :: cs => some ('\x0c', cs)
  | 'r' :: cs => some ('\r', cs)
  | '"' :: cs => some ('"', cs)
  | '\\' :: cs => some ('\\', cs)
  | 'u' :: cs => unicode? 4 cs
  | 'U' :: cs => unicode? 8 cs
  | _ => none

def basic? : Nat → List Char → Option (List Char × List Char)
  | 0, _ => none
  | _ + 1, '"' :: cs => some ([], cs)
  | fuel + 1, '\\' :: cs => do
    let (c, cs) ← escape? cs
    let (s, cs) ← basic? fuel cs
    some (c :: s, cs)
  | fuel + 1, c :: cs =>
    if isPlain c then (basic? fuel cs).map fun r => (c :: r.1, r.2) else none
  | _ + 1, [] => none

def literal? : List Char → Option (List Char × List Char)
  | [] => none
  | '\'' :: cs => some ([], cs)
  | c :: cs => if isPlain c then (literal? cs).map fun r => (c :: r.1, r.2) else none

/-- A backslash at the end of a line takes all blanks and line ends with it. -/
def lineJoin? (cs : List Char) : Option (List Char) :=
  (newline? (skipBlanks cs)).map fun r => skipLines r.length r
where
  skipLines : Nat → List Char → List Char
    | 0, cs => cs
    | fuel + 1, cs =>
      let cs := skipBlanks cs
      match newline? cs with
      | some r => skipLines fuel r
      | none => cs

/-- The quotes at the front, five at most. Three of them end a string of several lines, and up to
two before these belong to it. -/
def quoteRun (q : Char) (cs : List Char) : Nat := ((cs.take 5).takeWhile (· = q)).length

def multiline? (q : Char) (escapes : Bool) : Nat → List Char → Option (List Char × List Char)
  | 0, _ => none
  | _ + 1, [] => none
  | fuel + 1, c :: cs =>
    if c = q then
      let n := quoteRun q (c :: cs)
      if 3 ≤ n then some (List.replicate (n - 3) q, (c :: cs).drop n)
      else (multiline? q escapes fuel cs).map fun r => (c :: r.1, r.2)
    else if c = '\\' ∧ escapes then
      match lineJoin? cs with
      | some cs => multiline? q escapes fuel cs
      | none => do
        let (e, cs) ← escape? cs
        let (s, cs) ← multiline? q escapes fuel cs
        some (e :: s, cs)
    else
      match newline? (c :: cs) with
      | some cs => (multiline? q escapes fuel cs).map fun r => ('\n' :: r.1, r.2)
      | none =>
        if isPlain c then (multiline? q escapes fuel cs).map fun r => (c :: r.1, r.2) else none

/-- A line end right after the opening quotes is not part of the string. -/
def afterOpening (cs : List Char) : List Char := (newline? cs).getD cs

def quotedChars? : List Char → Option (List Char × List Char)
  | '"' :: '"' :: '"' :: cs => multiline? '"' true (cs.length + 1) (afterOpening cs)
  | '\'' :: '\'' :: '\'' :: cs => multiline? '\'' false (cs.length + 1) (afterOpening cs)
  | '"' :: cs => basic? (cs.length + 1) cs
  | '\'' :: cs => literal? cs
  | _ => none

def quoted? (cs : List Char) : Option (String × List Char) :=
  (quotedChars? cs).map fun r => (String.ofList r.1, r.2)

end Turnstile.Toml
