import Turnstile.Number.Shortest
import Turnstile.Settings.Basic
import Turnstile.Table

namespace Turnstile.Settings

inductive Scalar where
  | nil
  | bool (b : Bool)
  | int (i : Int)
  | float (x : Binary64)
  | str (s : String)
deriving DecidableEq, Repr

/-- A tree of settings. Each part knows which source it came from, unless it was made by a merge. -/
inductive Value where
  | scalar (origin : Option String) (s : Scalar)
  | table (origin : Option String) (entries : List (String × Value))
  | array (origin : Option String) (elements : List Value)
deriving Inhabited

namespace Value

def origin : Value → Option String
  | scalar o _ => o
  | table o _ => o
  | array o _ => o

def entries : Value → List (String × Value)
  | table _ es => es
  | _ => []

def elements : Value → List Value
  | array _ vs => vs
  | _ => []

def emptyTable : Value := table none []

def nil : Value := scalar none .nil

/-- Puts under a key of a table what `f` makes of the value there; a value of another kind gives way
to a new table. -/
def update (v : Value) (k : String) (f : Option Value → Value) : Value :=
  match v with
  | table o es => table o (Assoc.upsert k f es)
  | _ => table none (Assoc.upsert k f [])

/-- Only the capital letters whose small ones are in ASCII count, since the names of settings
are in ASCII: A to Z, and the Kelvin sign. -/
def foldChar (c : Char) : Char := if c = '\u212A' then 'k' else c.toLower

def foldCase (k : String) : String := String.ofList (k.toList.map foldChar)

mutual

/-- Sets a key of a table. A table is merged into the value there, key by key; any other value
takes its place. -/
def setKey (root : Value) (k : String) : Value → Value
  | table _ es => root.update (foldCase k) fun old => mergeInto (old.getD emptyTable) es
  | scalar o s => root.update (foldCase k) fun _ => scalar o s
  | array o vs => root.update (foldCase k) fun _ => array o vs

def mergeInto (target : Value) : List (String × Value) → Value
  | [] => target
  | (k, v) :: es => mergeInto (setKey target k v) es

end

def position (i : Int) (size : Nat) : Nat := if 0 ≤ i then i.toNat else size - (-i).toNat

/-- Changes an element of an array, which grows by nils as far as it has to; a value of another
kind gives way to a new array. -/
def updateElement (v : Value) (i : Int) (f : Value → Value) : Value :=
  let (o, vs) := match v with
    | array o vs => (o, vs)
    | _ => (none, [])
  let p := position i vs.length
  let vs := vs ++ List.replicate (p + 1 - vs.length) nil
  array o (vs.modify p f)

end Value

inductive Segment where
  | key (k : String)
  | index (i : Int)
deriving DecidableEq, Repr

namespace Value

def setPath (v : Value) : List Segment → Value → Value
  | [], new => new
  | [.key k], new => v.setKey k new
  | .key k :: rest, new => v.update (foldCase k) fun old => (old.getD nil).setPath rest new
  | .index i :: rest, new => v.updateElement i fun old => old.setPath rest new

end Value

end Turnstile.Settings
