import Turnstile.Settings.Json
import Turnstile.Settings.Load
import Turnstile.TimedLock.Basic

namespace Turnstile.Settings

open Text (Layout)

inductive Step where
  | default
  | literal (s : Settings)
  | load
  | override (path : String)
  | validate
  | ofJson (text : String)
  | validateWatchdog
  | validateDispatcher
  | timeouts
  | compare (s : Settings)
  | describe (layout : Layout)
  | toJson
  | setVariable (name value : String)
  | unsetVariable (name : String)
  | write (path : String) (c : Content)
  | remove (path : String)

inductive Reply where
  | settings (s : Settings)
  | valid
  | failed (e : SettingsError)
  | notJson
  | timeouts (lock : String) (threshold : Option String) (description : String)
  | compared (all watchdog dispatcher : Bool)
  | text (s : String)
  | done
  | removed (b : Bool)

structure Session where
  current : Settings := {}
  files : Files := {}
  env : Environment := {}
  walk : Walk := .listed

namespace Session

def accept (s : Session) : Except SettingsError Settings → Session × Reply
  | .ok new => ({ s with current := new }, .settings new)
  | .error e => (s, .failed e)

def verdict : Except SettingsError Unit → Reply
  | .ok _ => .valid
  | .error e => .failed e

def step (s : Session) : Step → Session × Reply
  | .default => s.accept (.ok {})
  | .literal new => s.accept (.ok new)
  | .load => s.accept (load s.walk s.files s.env)
  | .override path => s.accept (override s.walk s.current s.files s.env path)
  | .validate => s.accept (s.current.validate.map fun _ => s.current)
  | .ofJson text =>
    match ofJson? text with
    | some new => s.accept (.ok new)
    | none => (s, .notJson)
  | .validateWatchdog => (s, verdict s.current.watchdog.validate)
  | .validateDispatcher => (s, verdict s.current.dispatcher.validate)
  | .timeouts =>
    (s, .timeouts s.current.watchdog.timeout.text
      (s.current.dispatcher.slowLimit.map Duration.text)
      ((TimedLock.ofSettings s.current.watchdog).describe .line))
  | .compare other =>
    (s, .compared (s.current = other) (s.current.watchdog = other.watchdog)
      (s.current.dispatcher = other.dispatcher))
  | .describe layout => (s, .text (s.current.describe layout))
  | .toJson => (s, .text s.current.toJson)
  | .setVariable name value => ({ s with env := s.env.put name value }, .done)
  | .unsetVariable name => ({ s with env := s.env.unset name }, .done)
  | .write path c => ({ s with files := s.files.write path c }, .done)
  | .remove path =>
    let r := s.files.remove path
    ({ s with files := r.1 }, .removed r.2)

end Session

end Turnstile.Settings
