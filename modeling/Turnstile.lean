import Turnstile.Dispatcher.Basic
import Turnstile.Dispatcher.Grant
import Turnstile.Dispatcher.Poll
import Turnstile.Dispatcher.Session
import Turnstile.Duration
import Turnstile.JsonValue
import Turnstile.Number.Binary64
import Turnstile.Number.Digits
import Turnstile.Number.Shortest
import Turnstile.Producers
import Turnstile.Proofs.Dispatcher.Barrier
import Turnstile.Proofs.Dispatcher.Baton
import Turnstile.Proofs.Dispatcher.Delivery
import Turnstile.Proofs.Dispatcher.Driving
import Turnstile.Proofs.Dispatcher.Futures
import Turnstile.Proofs.Dispatcher.History
import Turnstile.Proofs.Dispatcher.Invariant
import Turnstile.Proofs.Dispatcher.Ledger
import Turnstile.Proofs.Dispatcher.Lockstep
import Turnstile.Proofs.Dispatcher.Moves
import Turnstile.Proofs.Dispatcher.OneTurn
import Turnstile.Proofs.Dispatcher.Polls
import Turnstile.Proofs.Dispatcher.Prospect
import Turnstile.Proofs.Dispatcher.Rest
import Turnstile.Proofs.Dispatcher.SameBut
import Turnstile.Proofs.Dispatcher.Settling
import Turnstile.Proofs.Dispatcher.Summary
import Turnstile.Proofs.Dispatcher.TurnEnd
import Turnstile.Proofs.Dispatcher.Waiting
import Turnstile.Proofs.Dispatcher.Waking
import Turnstile.Proofs.Dispatcher.Withdrawal
import Turnstile.Proofs.JsonValue.Grammar
import Turnstile.Proofs.JsonValue.Reading
import Turnstile.Proofs.Number.Digits
import Turnstile.Proofs.Number.Rounding
import Turnstile.Proofs.Producers
import Turnstile.Proofs.Queue.History
import Turnstile.Proofs.Queue.Rounds
import Turnstile.Proofs.Queue.Wakeups
import Turnstile.Proofs.Settings.Apart
import Turnstile.Proofs.Settings.Counts
import Turnstile.Proofs.Settings.Defaults
import Turnstile.Proofs.Settings.Faults
import Turnstile.Proofs.Settings.Layers
import Turnstile.Proofs.Settings.Override
import Turnstile.Proofs.Settings.Places
import Turnstile.Proofs.Settings.Reload
import Turnstile.Proofs.Settings.RoundTrip
import Turnstile.Proofs.Settings.Same
import Turnstile.Proofs.Settings.Uniform
import Turnstile.Proofs.Settings.Variables
import Turnstile.Proofs.TimedLock.Calls
import Turnstile.Proofs.TimedLock.History
import Turnstile.Proofs.TimedLock.Holding
import Turnstile.Proofs.TimedLock.Reports
import Turnstile.Proofs.TimedLock.Wakeups
import Turnstile.Queue.Basic
import Turnstile.Queue.Consumers
import Turnstile.Queue.Session
import Turnstile.Report
import Turnstile.Settings.Basic
import Turnstile.Settings.Decode
import Turnstile.Settings.Environment
import Turnstile.Settings.Files
import Turnstile.Settings.Json
import Turnstile.Settings.Load
import Turnstile.Settings.Path
import Turnstile.Settings.Session
import Turnstile.Settings.Value
import Turnstile.Settings.Walk
import Turnstile.Sync
import Turnstile.Table
import Turnstile.Task
import Turnstile.Text
import Turnstile.Text.Printable
import Turnstile.TimedLock.Basic
import Turnstile.TimedLock.Session
import Turnstile.TimedLock.Threads
import Turnstile.Toml.Document
import Turnstile.Toml.Quoted
import Turnstile.Toml.Reader
import Turnstile.Toml.Scalar
