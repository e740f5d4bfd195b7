import Turnstile.JsonValue
import Turnstile.Settings.Basic

namespace Turnstile.Settings

def jsonChars (s : Settings) : List Char :=
  "\x7b\"watchdog\":\x7b\"lock_timeout_ms\":".toList ++
    Nat.toDigits 10 s.watchdog.lockTimeoutMs.toNat ++
    "\x7d,\"dispatcher\":\x7b\"name\":".toList ++ JsonValue.writeString s.dispatcher.name ++
    ",\"slow_turn_warn_ms\":".toList ++ Nat.toDigits 10 s.dispatcher.slowTurnWarnMs.toNat ++
    "\x7d\x7d".toList

def toJson (s : Settings) : String := String.ofList s.jsonChars

def jsonCount? : JsonValue → Option UInt64
  | .number (some n) => if n < UInt64.size then some n.toUInt64 else none
  | _ => none

def jsonName? : JsonValue → Option String
  | .str s => s
  | _ => none

/-- The fields of a record in order: the key of each, and how its value is read into the record. -/
abbrev JsonFields (α : Type) := List (String × (JsonValue → α → Option α))

def readInto {α β : Type} (read? : JsonValue → Option β) (put : α → β → α) (v : JsonValue) (a : α) :
    Option α :=
  (read? v).map (put a)

def readMembers {α : Type} (fields : JsonFields α) :
    List String → List (Option String × JsonValue) → α → Option α
  | _, [], a => some a
  | _, (none, _) :: _, _ => none
  | seen, (some k, v) :: rest, a =>
    match fields.lookup k with
    | none => readMembers fields seen rest a
    | some read =>
      if k ∈ seen then none else (read v a).bind (readMembers fields (k :: seen) rest)

/-- Reads the elements of an array by place; there may be fewer than there are places. -/
def readItems {α : Type} : JsonFields α → List JsonValue → α → Option α
  | _, [], a => some a
  | [], _ :: _, _ => none
  | f :: fs, v :: vs, a => (f.2 v a).bind (readItems fs vs)

/-- A record is an object, or an array of its fields in order. -/
def readRecord {α : Type} (fields : JsonFields α) (default : α) : JsonValue → Option α
  | .object ms => readMembers fields [] ms default
  | .array vs => readItems fields vs default
  | _ => none

def watchdogFields : JsonFields WatchdogSettings :=
  [("lock_timeout_ms", readInto jsonCount? fun s n => { s with lockTimeoutMs := n })]

def dispatcherFields : JsonFields DispatcherSettings :=
  [("name", readInto jsonName? fun s n => { s with name := n }),
    ("slow_turn_warn_ms", readInto jsonCount? fun s n => { s with slowTurnWarnMs := n })]

def sections : JsonFields Settings :=
  [("watchdog", readInto (readRecord watchdogFields {}) fun s w => { s with watchdog := w }),
    ("dispatcher", readInto (readRecord dispatcherFields {}) fun s d => { s with dispatcher := d })]

def ofJsonValue? : JsonValue → Option Settings := readRecord sections {}

def ofJson? (text : String) : Option Settings := (JsonValue.parse? text).bind ofJsonValue?

end Turnstile.Settings
