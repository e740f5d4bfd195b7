import Turnstile.Number.Binary64
import Turnstile.Table

namespace Turnstile.Toml

open Assoc (put)

/-- How a table came to be: by a header of its own, as a part of a longer header, as a part of a
dotted key, or between braces. -/
inductive TableKind where
  | header
  | implied
  | dotted
  | inline
deriving DecidableEq, Repr

inductive Node where
  | str (s : String)
  | int (i : Int)
  | float (x : Binary64)
  | bool (b : Bool)
  | date (text : String)
  | array (items : List Node)
  | table (kind : TableKind) (entries : List (String × Node))
  | tables (rows : List Node)
deriving Inhabited

abbrev Entries := List (String × Node)

def onLast (f : Node → Option Node) : List Node → Option (List Node)
  | [] => none
  | [n] => (f n).map ([·])
  | n :: m :: rest => (onLast f (m :: rest)).map (n :: ·)

def Node.entries : Node → Entries
  | table _ es => es
  | _ => []

/-- Sets a key that has no value yet. The tables that a dotted key passes through must not have
headers of their own, and the one that it ends in must be made by dotted keys too. -/
def insert (v : Node) : List String → Entries → Option Entries
  | [], _ => none
  | [k], es => if (es.lookup k).isSome then none else some (es ++ [(k, v)])
  | k :: next :: rest, es =>
    match es.lookup k with
    | none => (insert v (next :: rest) []).map fun t => put k (.table .dotted t) es
    | some (.table .dotted t) =>
      (insert v (next :: rest) t).map fun t => put k (.table .dotted t) es
    | some (.table .implied t) =>
      if rest = [] then none
      else (insert v (next :: rest) t).map fun t => put k (.table .implied t) es
    | some (.tables rows) =>
      if rest = [] then none
      else
        (onLast (fun n => (insert v (next :: rest) n.entries).map (.table .header ·)) rows).map
          fun rows => put k (.tables rows) es
    | some _ => none

/-- Changes what is at a header's path. Of an array of tables the last is meant, and a table that
is missing on the way is implied. -/
def alter (f : Option Node → Option Node) : List String → Entries → Option Entries
  | [], _ => none
  | [k], es => (f (es.lookup k)).map fun n => put k n es
  | k :: next :: rest, es =>
    match es.lookup k with
    | none => (alter f (next :: rest) []).map fun t => put k (.table .implied t) es
    | some (.table .inline _) => none
    | some (.table kind t) => (alter f (next :: rest) t).map fun t => put k (.table kind t) es
    | some (.tables rows) =>
      (onLast (fun n => (alter f (next :: rest) n.entries).map (.table .header ·)) rows).map
        fun rows => put k (.tables rows) es
    | some _ => none

def openTable : Option Node → Option Node
  | none => some (.table .header [])
  | some (.table .implied t) => some (.table .header t)
  | some _ => none

def openRow : Option Node → Option Node
  | none => some (.tables [.table .header []])
  | some (.tables rows) => some (.tables (rows ++ [.table .header []]))
  | some _ => none

def insertInto (v : Node) (path : List String) : Option Node → Option Node
  | some (.table kind t) => (insert v path t).map (.table kind ·)
  | some (.tables rows) =>
    (onLast (fun n => (insert v path n.entries).map (.table .header ·)) rows).map (.tables ·)
  | _ => none

inductive Statement where
  | header (path : List String)
  | row (path : List String)
  | entry (path : List String) (v : Node)

structure Draft where
  entries : Entries := []
  current : List String := []

def Draft.add (d : Draft) : Statement → Option Draft
  | .header path => (alter openTable path d.entries).map fun es => ⟨es, path⟩
  | .row path => (alter openRow path d.entries).map fun es => ⟨es, path⟩
  | .entry path v =>
    (if d.current = [] then insert v path d.entries
      else alter (insertInto v path) d.current d.entries).map fun es => ⟨es, d.current⟩

def ofStatements (ss : List Statement) : Option Entries :=
  (ss.foldlM Draft.add {}).map (·.entries)

end Turnstile.Toml
