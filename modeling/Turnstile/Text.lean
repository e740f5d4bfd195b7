import Turnstile.Text.Printable

namespace Turnstile.Text

/-- The 25 characters with the property White_Space. -/
def isBlank (c : Char) : Bool :=
  let n := c.toNat
  (9 ≤ n && n ≤ 13) || n = 0x20 || n = 0x85 || n = 0xa0 || n = 0x1680 ||
    (0x2000 ≤ n && n ≤ 0x200a) || n = 0x2028 || n = 0x2029 || n = 0x202f || n = 0x205f ||
    n = 0x3000

def isAllBlank (s : String) : Bool := s.toList.all isBlank

def hexDigits (n : Nat) : List Char := Nat.toDigits 16 n

/-- A quoted character is written as itself when it has a glyph of its own, else by a letter
or by its number. -/
def quoteChar (c : Char) : List Char :=
  if c = '\x00' then ['\\', '0']
  else if c = '\t' then ['\\', 't']
  else if c = '\r' then ['\\', 'r']
  else if c = '\n' then ['\\', 'n']
  else if c = '"' then ['\\', '"']
  else if c = '\\' then ['\\', '\\']
  else if extendsGrapheme c || !isPrintable c then
    ['\\', 'u', '\x7b'] ++ hexDigits c.toNat ++ ['\x7d']
  else [c]

def quote (s : String) : String :=
  String.ofList ('"' :: s.toList.flatMap quoteChar ++ ['"'])

inductive Layout where
  | line
  | block
deriving DecidableEq

def indentChars : Bool → List Char → List Char
  | _, [] => []
  | atStart, c :: cs =>
    (if atStart then [' ', ' ', ' ', ' '] else []) ++ c :: indentChars (c = '\n') cs

def indent (s : String) : String := String.ofList (indentChars true s.toList)

namespace Layout

def group (layout : Layout) (opening closing pad : String) (parts : List String) : String :=
  match layout with
  | line => opening ++ pad ++ ", ".intercalate parts ++ pad ++ closing
  | block => opening ++ "\n" ++ String.join (parts.map fun p => indent (p ++ ",\n")) ++ closing

def record (layout : Layout) (name : String) (fields : List (String × String)) : String :=
  layout.group (name ++ " \x7b") "\x7d" " " (fields.map fun f => f.1 ++ ": " ++ f.2)

def wrapped (layout : Layout) (name : String) (content : String) : String :=
  layout.group (name ++ "(") ")" "" [content]

end Layout

end Turnstile.Text
