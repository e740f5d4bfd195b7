import Turnstile.Report
import Turnstile.Text

namespace Turnstile

open Text (Layout)

structure WatchdogSettings where
  lockTimeoutMs : UInt64 := 60000
deriving DecidableEq, Repr

structure DispatcherSettings where
  name : String := "callbacks"
  /-- A callback that waited longer is reported; 0 reports none. -/
  slowTurnWarnMs : UInt64 := 1000
deriving DecidableEq, Repr

structure Settings where
  watchdog : WatchdogSettings := {}
  dispatcher : DispatcherSettings := {}
deriving DecidableEq, Repr

namespace WatchdogSettings

def validate (s : WatchdogSettings) : Except SettingsError Unit :=
  if s.lockTimeoutMs = 0 then .error .zeroLockTimeout else .ok ()

def timeout (s : WatchdogSettings) : Duration := .ofMillis s.lockTimeoutMs

def describe (s : WatchdogSettings) (layout : Layout) : String :=
  layout.record "WatchdogConfig" [("lock_timeout_ms", toString s.lockTimeoutMs)]

end WatchdogSettings

namespace DispatcherSettings

def validate (s : DispatcherSettings) : Except SettingsError Unit :=
  if Text.isAllBlank s.name then .error .emptyName else .ok ()

def slowLimit (s : DispatcherSettings) : Option Duration :=
  if s.slowTurnWarnMs = 0 then none else some (.ofMillis s.slowTurnWarnMs)

def describe (s : DispatcherSettings) (layout : Layout) : String :=
  layout.record "DispatcherConfig"
    [("name", Text.quote s.name), ("slow_turn_warn_ms", toString s.slowTurnWarnMs)]

end DispatcherSettings

namespace Settings

def validate (s : Settings) : Except SettingsError Unit := do
  s.watchdog.validate
  s.dispatcher.validate

def describe (s : Settings) (layout : Layout) : String :=
  layout.record "DispatchSettings"
    [("watchdog", s.watchdog.describe layout), ("dispatcher", s.dispatcher.describe layout)]

end Settings

end Turnstile
