import Turnstile.Proofs.Number.Rounding
import Turnstile.Proofs.Settings.Variables

namespace Turnstile.Settings

open Number

def Field.variable : Field → String
  | .lockTimeoutMs => "DISPATCH__WATCHDOG__LOCK_TIMEOUT_MS"
  | .name => nameVariable
  | .slowTurnWarnMs => "DISPATCH__DISPATCHER__SLOW_TURN_WARN_MS"

theorem Field.key?_variable (f : Field) : Environment.key? f.variable = some f.dotted := by
  cases f <;> decide

def Field.withCount (s : Settings) (n : UInt64) : Field → Settings
  | .lockTimeoutMs => { s with watchdog := ⟨n⟩ }
  | .name => s
  | .slowTurnWarnMs => { s with dispatcher := ⟨s.dispatcher.name, n⟩ }

variable {d : String}

namespace Environment

theorem scalarOf_of_digits (hne : d ≠ "") (hd : ∀ c ∈ d.toList, c.isDigit = true) :
    let n := Nat.ofDigitChars 10 d.toList 0
    scalarOf d = if n < signedLimit then .int n else .float (.ofDecimal false n 0) := by
  intro n
  have hfloat := Binary64.ofText?_of_digits hne hd
  have htruth (b : Bool) : asciiLower d ≠ toString b := by
    intro hb
    rw [ofText?_of_truth hb] at hfloat
    cases hfloat
  rw [scalarOf_of_not_truth htruth, int64?_of_digits hne hd, hfloat, toInt64?_natCast]
  by_cases h : n < signedLimit <;> simp only [n, h, ↓reduceIte]

theorem count_of_digits (hne : d ≠ "") (hd : ∀ c ∈ d.toList, c.isDigit = true) (key : String) :
    (readAs d).count key = .ok (Binary64.wordOf (Nat.ofDigitChars 10 d.toList 0)) := by
  rw [readAs, scalarOf_of_digits hne hd, Binary64.wordOf]
  split
  · simp [Value.count]
  · rename_i h
    exact congrArg Except.ok (Binary64.toUInt64_ofDecimal (Nat.not_lt.mp h))

theorem OnlySets.load_count {env : Environment} {f : Field} (h : env.OnlySets f.variable d)
    (hname : f ≠ .name) (hne : d ≠ "") (hd : ∀ c ∈ d.toList, c.isDigit = true)
    (hf : env.get? configPath = none) (files : Files) (w : Walk) :
    load w files env = .ok (f.withCount {} (Binary64.wordOf (Nat.ofDigitChars 10 d.toList 0))) := by
  obtain ⟨tree, hload, hcount, hrest⟩ := h.exists_tree f.key?_variable hne hf w files
  rw [hload]
  cases f with
  | lockTimeoutMs =>
    exact decode_of_places hcount (hrest .name (by simp)) (hrest .slowTurnWarnMs (by simp))
      (count_of_digits hne hd _) rfl rfl w
  | name => exact (hname rfl).elim
  | slowTurnWarnMs =>
    exact decode_of_places (hrest .lockTimeoutMs (by simp)) (hrest .name (by simp)) hcount rfl rfl
      (count_of_digits hne hd _) w

end Environment

end Turnstile.Settings

namespace Turnstile

open Settings

/-- A count that the environment gives in digits is always loaded. It is loaded as it stands there
up to the greatest signed word, and what is above that is rounded to the nearest multiple of 2048
and cut off at the greatest word. -/
theorem count_from_environment (files : Files) {env : Environment} {d : String} (hne : d ≠ "")
    (hd : ∀ c ∈ d.toList, c.isDigit = true) (hf : env.get? configPath = none) :
    let n := Nat.ofDigitChars 10 d.toList 0
    (env.OnlySets Field.lockTimeoutMs.variable d →
      ∀ w, load w files env = .ok { watchdog := ⟨Binary64.wordOf n⟩ }) ∧
    (env.OnlySets Field.slowTurnWarnMs.variable d →
      ∀ w, load w files env = .ok { dispatcher := { slowTurnWarnMs := Binary64.wordOf n } }) ∧
    ((Binary64.wordOf n).toNat = n ↔
      n < Number.signedLimit ∨ n < UInt64.size ∧ n % 2048 = 0 ∨ n = UInt64.size - 1) :=
  ⟨fun h => h.load_count (by decide) hne hd hf files,
    fun h => h.load_count (by decide) hne hd hf files, Binary64.toNat_wordOf_eq_iff _⟩

/-- 2 ^ 63 + 1 is loaded as 2 ^ 63 into either field. -/
theorem count_from_environment_rounded :
    let d := "9223372036854775809"
    let env (f : Field) : Environment := ⟨[("PATH", "/bin"), (f.variable, d)]⟩
    (d ≠ "" ∧ (∀ c ∈ d.toList, c.isDigit = true) ∧
      ∀ f, (env f).get? configPath = none ∧ (env f).OnlySets f.variable d) ∧
    Nat.ofDigitChars 10 d.toList 0 = 9223372036854775809 ∧
    ∀ w, load w {} (env .lockTimeoutMs) = .ok { watchdog := ⟨9223372036854775808⟩ } ∧
      load w {} (env .slowTurnWarnMs) =
        .ok { dispatcher := { slowTurnWarnMs := 9223372036854775808 } } := by
  intro d env
  have hd : ∀ c ∈ d.toList, c.isDigit = true := List.all_eq_true.mp (by decide)
  have hs (f : Field) : (env f).get? configPath = none ∧ (env f).OnlySets f.variable d := by
    cases f <;> exact ⟨by decide, by simp [env], by decide +kernel⟩
  have hn : Nat.ofDigitChars 10 d.toList 0 = 9223372036854775809 := by decide +kernel
  have hw : Binary64.wordOf 9223372036854775809 = 9223372036854775808 := by decide +kernel
  have ht := (count_from_environment {} (by decide) hd (hs .lockTimeoutMs).1).1
    (hs .lockTimeoutMs).2
  have hl := (count_from_environment {} (by decide) hd (hs .slowTurnWarnMs).1).2.1
    (hs .slowTurnWarnMs).2
  rw [hn, hw] at ht hl
  exact ⟨⟨by decide, hd, hs⟩, hn, fun w => ⟨ht w, hl w⟩⟩

end Turnstile
