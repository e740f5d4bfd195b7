import Turnstile.Number.Digits
import Turnstile.Settings.Walk

namespace Turnstile.Settings

open Number

def Value.found : Value → Misfit
  | scalar _ .nil => .unit
  | scalar _ (.bool b) => .bool b
  | scalar _ (.int i) => .int i
  | scalar _ (.float x) => .float x.pointedText
  | scalar _ (.str s) => .str s
  | table .. => .table
  | array .. => .seq

def asciiLower (s : String) : String := String.ofList (s.toList.map Char.toLower)

def wordCount? (s : String) : Option UInt64 :=
  match asciiLower s with
  | "true" | "on" | "yes" => some 1
  | "false" | "off" | "no" => some 0
  | _ => uint64? s

def Value.count (v : Value) (key : String) : Except SettingsError UInt64 :=
  match v with
  | scalar o (.int i) =>
    if 0 ≤ i then .ok i.toNat.toUInt64
    else .error (.wrongType (.int64 i) "an unsigned 64 bit or less integer" key o)
  | scalar _ (.bool b) => .ok (if b then 1 else 0)
  | scalar _ (.float x) => .ok x.toUInt64
  | scalar o (.str s) =>
    match wordCount? s with
    | some n => .ok n
    | none => .error (.wrongType (.str s) "an integer" key o)
  | v => .error (.wrongType v.found "an integer" key v.origin)

def Value.text (v : Value) (key : String) : Except SettingsError String :=
  match v with
  | scalar _ (.str s) => .ok s
  | scalar _ (.bool b) => .ok (toString b)
  | scalar _ (.int i) => .ok (toString i)
  | scalar _ (.float x) => .ok x.text
  | v => .error (.wrongType v.found "a string" key v.origin)

/-- A field of `α`: how a value under the key given changes it. -/
structure Member (α : Type) where
  name : String
  read : Value → String → Except SettingsError (α → α)

namespace Member

variable {α : Type}

def field {β : Type} (name : String) (read : Value → String → Except SettingsError β)
    (put : β → α → α) : Member α where
  name := name
  read v key := (read v key).map put

def readFrom (m : Member α) (found : Option Value) (key : String) : Except SettingsError (α → α) :=
  match found with
  | some v => m.read v key
  | none => .ok id

def inOrder (changes : List (Except SettingsError (α → α))) (a : α) : Except SettingsError α :=
  changes.foldlM (fun a change => change.map (· a)) a

theorem inOrder_cons (change : Except SettingsError (α → α))
    (changes : List (Except SettingsError (α → α))) (a : α) :
    inOrder (change :: changes) a = (change.map (· a)).bind (inOrder changes) := rfl

/-- The fields are found by name, and are read in the order in which the table is visited. -/
def readTable (w : Walk) (path : List String) (key : String → String) (members : List (Member α))
    (es : List (String × Value)) (a : α) : Except SettingsError α :=
  inOrder
    ((w.visit .tree path name members).map fun m => m.readFrom (es.lookup m.name) (key m.name)) a

def readArray (key : Nat → String) (members : List (Member α)) (vs : List Value) (a : α) :
    Except SettingsError α :=
  inOrder (members.zipIdx.map fun e => e.1.readFrom vs[e.2]? (key e.2)) a

def readSection (w : Walk) (expected : String) (members : List (Member α)) (a : α) (v : Value)
    (key : String) : Except SettingsError α :=
  match v with
  | .table _ es => readTable w [key] (fun name => key ++ "." ++ name) members es a
  | .array _ vs => readArray (fun place => key ++ "[" ++ toString place ++ "]") members vs a
  | .scalar .. => .error (.notASection v.found expected)

end Member

def lockTimeout : Member WatchdogSettings :=
  .field "lock_timeout_ms" Value.count fun n s => { s with lockTimeoutMs := n }

def dispatcherName : Member DispatcherSettings :=
  .field "name" Value.text fun n s => { s with name := n }

def slowTurnWarn : Member DispatcherSettings :=
  .field "slow_turn_warn_ms" Value.count fun n s => { s with slowTurnWarnMs := n }

def watchdogSection (w : Walk) : Member Settings :=
  .field "watchdog" (Member.readSection w "WatchdogConfig" [lockTimeout] {}) fun r s =>
    { s with watchdog := r }

def dispatcherSection (w : Walk) : Member Settings :=
  .field "dispatcher"
    (Member.readSection w "DispatcherConfig" [dispatcherName, slowTurnWarn] {}) fun r s =>
    { s with dispatcher := r }

def decode (w : Walk) (tree : Value) : Except SettingsError Settings :=
  Member.readTable w [] id [watchdogSection w, dispatcherSection w] tree.entries {}

end Turnstile.Settings
