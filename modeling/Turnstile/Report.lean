import Turnstile.Duration
import Turnstile.Text

namespace Turnstile

open Text (Layout)

inductive RemovalError where
  | cancelled
deriving DecidableEq, Repr

inductive AcquisitionError where
  | timeout (window : Duration)
deriving DecidableEq, Repr

/-- What a settings source held where something else was wanted. -/
inductive Misfit where
  | bool (b : Bool)
  | int (i : Int)
  | int64 (i : Int)
  | float (text : String)
  | str (s : String)
  | unit
  | table
  | seq
deriving DecidableEq, Repr

inductive SettingsError where
  | custom (text : String)
  | emptyName
  | zeroLockTimeout
  | tooLarge (value : UInt64)
  | notASection (found : Misfit) (name : String)
  | wrongType (found : Misfit) (expected : String) (key : String) (origin : Option String)
  | fileNotFound (name : String)
  | unknownFormat (path : String)
  | notUtf8
  | malformed (uri : String)
deriving DecidableEq, Repr

inductive Error where
  | settings (e : SettingsError)
  | queue (e : RemovalError)
  | lock (e : AcquisitionError)
deriving DecidableEq, Repr

namespace RemovalError

def message : RemovalError → String
  | cancelled => "Queue pop cancelled"

def describe : RemovalError → Layout → String
  | cancelled, _ => "Cancelled"

end RemovalError

namespace AcquisitionError

def message : AcquisitionError → String
  | timeout window => "Lock acquisition timed out after " ++ window.text

def describe : AcquisitionError → Layout → String
  | timeout window, layout => layout.record "Timeout" [("timeout", window.text)]

end AcquisitionError

def Misfit.text : Misfit → String
  | bool b => "boolean \x60" ++ toString b ++ "\x60"
  | int i => "integer \x60" ++ toString i ++ "\x60"
  | int64 i => "64-bit integer \x60" ++ toString i ++ "\x60"
  | float t => "floating point \x60" ++ t ++ "\x60"
  | str s => "string " ++ Text.quote s
  | unit => "unit value"
  | table => "map"
  | seq => "sequence"

namespace SettingsError

def message : SettingsError → String
  | custom text => text
  | emptyName => "dispatcher.name cannot be empty"
  | zeroLockTimeout => "watchdog.lock_timeout_ms must be greater than 0"
  | tooLarge value =>
    "value " ++ toString value ++ " is greater than the max 9223372036854775807"
  | notASection found name =>
    "invalid type: " ++ found.text ++ ", expected struct " ++ name
  | wrongType found expected key origin =>
    "invalid type: " ++ found.text ++ ", expected " ++ expected ++
      " for key \x60" ++ key ++ "\x60" ++
      (match origin with
        | some o => " in " ++ o
        | none => "")
  | fileNotFound name => "configuration file \"" ++ name ++ "\" not found"
  | unknownFormat path =>
    "configuration file \"" ++ path ++ "\" is not of a registered file format"
  | notUtf8 => "stream did not contain valid UTF-8"
  | malformed uri => "malformed settings file " ++ uri

def describe (e : SettingsError) (_ : Layout) : String := e.message

end SettingsError

namespace Error

instance : Coe SettingsError Error := ⟨settings⟩
instance : Coe RemovalError Error := ⟨queue⟩
instance : Coe AcquisitionError Error := ⟨lock⟩

def message : Error → String
  | settings e => e.message
  | queue e => e.message
  | lock e => e.message

def describe (e : Error) (layout : Layout) : String :=
  match e with
  | settings e => layout.wrapped "Config" (e.describe layout)
  | queue e => layout.wrapped "Queue" (e.describe layout)
  | lock e => layout.wrapped "Lock" (e.describe layout)

end Error

inductive Level where
  | trace
  | debug
  | info
  | warn
  | error
deriving DecidableEq, Repr

def Level.text : Level → String
  | trace => "TRACE"
  | debug => "DEBUG"
  | info => "INFO"
  | warn => "WARN"
  | error => "ERROR"

structure LogEntry where
  level : Level
  message : String
  fields : List (String × String) := []
deriving DecidableEq, Repr

end Turnstile
