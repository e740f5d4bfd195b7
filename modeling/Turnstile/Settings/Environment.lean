import Turnstile.Number.Binary64
import Turnstile.Settings.Decode
import Turnstile.Settings.Path
import Turnstile.Table

namespace Turnstile.Settings

open Number

abbrev Environment := Table String String

namespace Environment

def unset (env : Environment) (name : String) : Environment :=
  ⟨env.entries.filter (·.1 ≠ name)⟩

def marker : List Char := "dispatch__".toList

def dotted : List Char → List Char
  | '_' :: '_' :: cs => '.' :: dotted cs
  | c :: cs => c :: dotted cs
  | [] => []

def key? (name : String) : Option String :=
  let cs := (Value.foldCase name).toList
  if cs.take marker.length = marker then some (String.ofList (dotted (cs.drop marker.length)))
  else none

def scalarOf (text : String) : Scalar :=
  match asciiLower text with
  | "true" => .bool true
  | "false" => .bool false
  | _ =>
    match int64? text with
    | some i => .int i
    | none =>
      match Binary64.ofText? text with
      | some x => .float x
      | none => .str text

def origin : String := "the environment"

/-- Empty variables count as unset, and the last of several names for one key counts. -/
def source (env : Environment) : Source :=
  let found := env.entries.foldl
    (fun (t : Table String Value) e =>
      if e.2 = "" then t
      else
        match key? e.1 with
        | some k => t.put k (.scalar (some origin) (scalarOf e.2))
        | none => t)
    {}
  found.entries

end Environment

end Turnstile.Settings
