import Turnstile.Proofs.Settings.Counts

namespace Turnstile.Settings

open Number

/-- The first count, in the order of the fields, that does not fit into a signed word. -/
def firstTooLarge? (s : Settings) : Option UInt64 :=
  [s.watchdog.lockTimeoutMs, s.dispatcher.slowTurnWarnMs].find? (signedLimit ≤ ·.toNat)

theorem firstTooLarge?_eq_none_iff (s : Settings) : s.firstTooLarge? = none ↔ s.IsStorable := by
  simp [firstTooLarge?, IsStorable]

theorem toSource_of_too_large {s : Settings} {n : UInt64} (h : s.firstTooLarge? = some n) :
    s.toSource = .error (.tooLarge n) := by
  simp only [firstTooLarge?, List.find?_cons, List.find?_nil] at h
  split at h
  · rename_i ht
    obtain rfl := Option.some.inj h
    have ht' : ¬ s.watchdog.lockTimeoutMs.toNat < signedLimit := by simpa using ht
    simp only [toSource, storable, ht', ↓reduceIte]
    rfl
  · rename_i ht
    have ht' : s.watchdog.lockTimeoutMs.toNat < signedLimit := by simpa using ht
    split at h
    · rename_i hw
      obtain rfl := Option.some.inj h
      have hw' : ¬ s.dispatcher.slowTurnWarnMs.toNat < signedLimit := by simpa using hw
      simp only [toSource, storable, ht', hw', ↓reduceIte]
      rfl
    · cases h

theorem override_of_too_large {s : Settings} {n : UInt64} (h : s.firstTooLarge? = some n)
    (w : Walk) (files : Files) (env : Environment) (path : String) :
    override w s files env path = .error (.tooLarge n) := by
  simp only [override, toSource_of_too_large h]
  rfl

end Turnstile.Settings

namespace Turnstile

open Settings

/-- Settings can be overridden wherever the defaults can, unless one of their counts is above the
greatest signed word: then the first such count is reported, whatever is to be laid over it. It does
not help that the settings were loaded, since every such count is loaded from the environment. -/
theorem overridden_unless_too_large (s : Settings) (files : Files) (env : Environment)
    (path : String) (w : Walk) :
    (s.firstTooLarge? = none → (∃ d, override w {} files env path = .ok d) →
      ∃ s', override w s files env path = .ok s') ∧
    (∀ n, s.firstTooLarge? = some n → override w s files env path = .error (.tooLarge n)) ∧
    ∀ (files' : Files) (env' : Environment) (d : String), d ≠ "" →
      (∀ c ∈ d.toList, c.isDigit = true) → Number.signedLimit ≤ Nat.ofDigitChars 10 d.toList 0 →
      env'.get? configPath = none → env'.OnlySets Field.lockTimeoutMs.variable d →
      ∃ t, (∀ w', load w' files' env' = .ok t) ∧ t.validate = .ok () ∧
        override w t files env path = .error (.tooLarge t.watchdog.lockTimeoutMs) := by
  refine ⟨fun hnone hd => ?_, fun n hn => override_of_too_large hn w files env path, ?_⟩
  · obtain ⟨r, hr⟩ := exists_override w files env path
    obtain ⟨d, hd⟩ := hd
    rw [hr _ isStorable_default] at hd
    cases r with
    | error e => cases hd
    | ok p => exact ⟨p.apply s, hr s ((firstTooLarge?_eq_none_iff s).mp hnone)⟩
  · intro files' env' d hne hdig hn hf henv
    have hlarge := Binary64.signedLimit_le_wordOf hn
    refine ⟨_, henv.load_count (by decide) hne hdig hf files', ?_,
      override_of_too_large ?_ w files env path⟩
    · have h0 : Binary64.wordOf (Nat.ofDigitChars 10 d.toList 0) ≠ 0 := by
        intro h0
        rw [h0] at hlarge
        exact absurd hlarge (by decide)
      simp only [Field.withCount, validate, WatchdogSettings.validate, h0, ↓reduceIte]
      decide
    · simp [Field.withCount, firstTooLarge?, hlarge]

/-- A timeout of 2 ^ 63 is loaded from the environment and is valid. The defaults take an empty file
with it, and what comes of that does not. -/
theorem overridden_unless_too_large_environment :
    let env : Environment := ⟨[(Field.lockTimeoutMs.variable, "9223372036854775808")]⟩
    let files := ({} : Files).write "o.toml" (.text "")
    let s : Settings := { watchdog := ⟨9223372036854775808⟩ }
    load .listed files env = .ok s ∧ s.validate = .ok () ∧
      override .listed {} files env "o" = .ok s ∧
      s.firstTooLarge? = some 9223372036854775808 ∧
      (∀ w, override w s files env "o" = .error (.tooLarge 9223372036854775808)) ∧
      ∃ s', override .listed { dispatcher := ⟨"a", 9⟩ } files env "o" = .ok s' := by
  intro env files s
  have hs : env.OnlySets Field.lockTimeoutMs.variable "9223372036854775808" :=
    ⟨by simp [env], by decide +kernel⟩
  have hd : ∀ c ∈ "9223372036854775808".toList, c.isDigit = true :=
    List.all_eq_true.mp (by decide)
  have hf : env.get? configPath = none := by decide
  have hn : Number.signedLimit ≤ Nat.ofDigitChars 10 "9223372036854775808".toList 0 := by
    decide +kernel
  obtain ⟨t, hload, hvalid, -⟩ := (overridden_unless_too_large s files env "o" .listed).2.2 files
    env "9223372036854775808" (by decide) hd hn hf hs
  have ht : load .listed files env = .ok s := by
    have hw : Binary64.wordOf (Nat.ofDigitChars 10 "9223372036854775808".toList 0) =
        9223372036854775808 := by
      decide +kernel
    rw [hs.load_count (by decide) (by decide) hd hf, hw]
    rfl
  obtain rfl : t = s := Except.ok.inj ((hload .listed).symm.trans ht)
  have hdefault : override .listed {} files env "o" = .ok s := by decide +kernel
  have hlarge : s.firstTooLarge? = some 9223372036854775808 := by decide +kernel
  exact ⟨ht, hvalid, hdefault, hlarge,
    fun w => (overridden_unless_too_large s files env "o" w).2.1 _ hlarge,
    (overridden_unless_too_large _ files env "o" .listed).1 (by decide +kernel) ⟨s, hdefault⟩⟩

end Turnstile
