import Turnstile.Settings.Decode
import Turnstile.Settings.Environment
import Turnstile.Settings.Files

namespace Turnstile.Settings

def storable (n : UInt64) : Except SettingsError Scalar :=
  if n.toNat < Number.signedLimit then .ok (.int n.toNat) else .error (.tooLarge n)

/-- Settings as the lowest of the sources. Counts are kept as signed numbers there. -/
def toSource (s : Settings) : Except SettingsError Source := do
  let timeout ← storable s.watchdog.lockTimeoutMs
  let warn ← storable s.dispatcher.slowTurnWarnMs
  .ok [
    ("watchdog", .table none [("lock_timeout_ms", .scalar none timeout)]),
    ("dispatcher", .table none
      [("name", .scalar none (.str s.dispatcher.name)), ("slow_turn_warn_ms", .scalar none warn)])]

def combine (w : Walk) (base file environment : Source) : Value :=
  ((Value.emptyTable.overlay (w.source .base base)).overlay (w.source .file file)).overlay
    (w.source .environment environment)

def override (w : Walk) (s : Settings) (files : Files) (env : Environment) (path : String) :
    Except SettingsError Settings := do
  let base ← s.toSource
  let file ← files.source path
  decode w (combine w base file env.source)

def configPath : String := "CONFIG_PATH"

/-- The defaults with the file that the environment names, if it names one, and the environment
laid over them. -/
def load (w : Walk) (files : Files) (env : Environment) : Except SettingsError Settings :=
  match env.get? configPath with
  | some path => override w {} files env path
  | none => do
    let base ← ({} : Settings).toSource
    decode w (combine w base [] env.source)

end Turnstile.Settings
