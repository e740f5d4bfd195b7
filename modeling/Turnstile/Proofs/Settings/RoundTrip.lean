import Turnstile.Proofs.JsonValue.Reading
import Turnstile.Settings.Json

namespace Turnstile

namespace JsonValue

open Number

theorem hexValue?_digitChar {n : Nat} (hn : n < 16) : hexValue? (Nat.digitChar n) = some n := by
  have hall : ∀ n : Fin 16, hexValue? (Nat.digitChar n) = some n.val := by decide
  exact hall ⟨n, hn⟩

theorem isCodeUnit_control {n : Nat} (hn : n < 32) :
    IsCodeUnit n ['0', '0', Nat.digitChar (n / 16), Nat.digitChar (n % 16)] := by
  have hz : hexValue? '0' = some 0 := by decide
  have hd : hexValue? (Nat.digitChar (n / 16)) = some (n / 16) := hexValue?_digitChar (by omega)
  have hm : hexValue? (Nat.digitChar (n % 16)) = some (n % 16) := hexValue?_digitChar (by omega)
  refine ⟨rfl, ?_, ?_⟩
  · intro c hc
    simp only [List.mem_cons, List.not_mem_nil, or_false] at hc
    rcases hc with rfl | rfl | rfl | rfl
    · decide
    · decide
    · simp only [isDigitOf, hd, decide_eq_true_eq]
      omega
    · simp only [isDigitOf, hm, decide_eq_true_eq]
      omega
  · simp only [ofDigitsOf, List.foldl_cons, List.foldl_nil, hz, hd, hm, Option.getD_some]
    omega

theorem charText_writeChar (c : Char) : CharText c (writeChar c) := by
  unfold writeChar
  split_ifs with hq hb _ _ _ _ _ hs
  iterate 7
    · subst c
      exact .escape (by decide)
  · have hn : c.toNat < 32 := hs
    have hh : isHigh c.toNat = false := by
      rw [isHigh, Bool.and_eq_false_iff, decide_eq_false_iff_not]
      omega
    have hl : isLow c.toNat = false := by
      rw [isLow, Bool.and_eq_false_iff, decide_eq_false_iff_not]
      omega
    have h := CharText.unit (isCodeUnit_control hn) hh hl
    rwa [Char.ofNat_toNat] at h
  · exact .plain hs hq hb

theorem stringText_flatMap (s : List Char) : StringText s (s.flatMap writeChar) := by
  induction s with
  | nil => exact .nil
  | cons c s ih => exact .cons (charText_writeChar c) ih

theorem numberText_toDigits (n : Nat) : NumberText (some n) (Nat.toDigits 10 n) := by
  have hw : IsWhole (Nat.toDigits 10 n) := by
    refine ⟨⟨Nat.toDigits_ne_nil, ?_⟩, toDigits_of_head?_zero⟩
    intro c hc
    exact Nat.isDigit_of_mem_toDigits (by decide) (by decide) hc
  have h := NumberText.mk .absent hw .absent .absent
  simpa using h

theorem paddedText_of_text {v : JsonValue} {cs : List Char} (h : ValueText v cs) :
    PaddedText v cs := by
  have hb : Blank [] := by simp [Blank]
  simpa using PaddedText.mk hb h hb

theorem keyText_of_plain {k : String} (hk : ∀ c ∈ k.toList, writeChar c = [c]) :
    KeyText k ('"' :: k.toList ++ ['"']) := by
  have hb : Blank [] := by simp [Blank]
  have hw : k.toList.flatMap writeChar = k.toList := by
    rw [List.flatMap_congr hk, List.flatMap_singleton']
  have h := KeyText.mk hb (stringText_flatMap k.toList) hb
  rw [hw, String.ofList_toList] at h
  exact h

theorem valueText_writeString (s : String) : ValueText (.str (some s)) (writeString s) := by
  have h := ValueText.str (stringText_flatMap s.toList)
  simpa [writeString] using h

end JsonValue

namespace Settings

open JsonValue

def jsonValue (s : Settings) : JsonValue :=
  .object [
    (some "watchdog", .object [
      (some "lock_timeout_ms", .number (some s.watchdog.lockTimeoutMs.toNat))]),
    (some "dispatcher", .object [
      (some "name", .str (some s.dispatcher.name)),
      (some "slow_turn_warn_ms", .number (some s.dispatcher.slowTurnWarnMs.toNat))])]

theorem valueText_jsonChars (s : Settings) : ValueText s.jsonValue s.jsonChars := by
  have count (n : Nat) : PaddedText (.number (some n)) (Nat.toDigits 10 n) :=
    paddedText_of_text (.number (numberText_toDigits n))
  have timeout := keyText_of_plain (k := "lock_timeout_ms") (by simp [writeChar])
  have name := keyText_of_plain (k := "name") (by simp [writeChar])
  have warn := keyText_of_plain (k := "slow_turn_warn_ms") (by simp [writeChar])
  have watchdog := keyText_of_plain (k := "watchdog") (by simp [writeChar])
  have dispatcher := keyText_of_plain (k := "dispatcher") (by simp [writeChar])
  have hw := ValueText.object (.last timeout (count s.watchdog.lockTimeoutMs.toNat))
  have hd := ValueText.object (.more name
    (paddedText_of_text (valueText_writeString s.dispatcher.name))
    (.last warn (count s.dispatcher.slowTurnWarnMs.toNat)))
  have h := ValueText.object (.more watchdog (paddedText_of_text hw)
    (.last dispatcher (paddedText_of_text hd)))
  unfold jsonChars
  simp only [String.reduceToList, List.append_assoc, List.cons_append, List.nil_append] at h ⊢
  exact h

theorem readMembers_cons {α : Type} {fields : JsonFields α} {read : JsonValue → α → Option α}
    {seen : List String} {k : String} {v : JsonValue} {a b : α}
    (hk : fields.lookup k = some read) (hv : read v a = some b) (hs : k ∉ seen)
    (rest : List (Option String × JsonValue)) :
    readMembers fields seen ((some k, v) :: rest) a = readMembers fields (k :: seen) rest b := by
  rw [readMembers, hk]
  simp only [if_neg hs, hv, Option.bind_some]

theorem readInto_eq_some {α β : Type} {read? : JsonValue → Option β} {put : α → β → α}
    {v : JsonValue} {a b : α} :
    readInto read? put v a = some b ↔ ∃ x, read? v = some x ∧ put a x = b :=
  Option.map_eq_some_iff

theorem jsonCount?_toNat (n : UInt64) : jsonCount? (.number (some n.toNat)) = some n := by
  have hn : n.toNat < UInt64.size := n.toNat_lt
  have ho : n.toNat.toUInt64 = n := UInt64.ofNat_toNat
  rw [jsonCount?, if_pos hn, ho]

theorem readRecord_watchdogFields (w : WatchdogSettings) :
    readRecord watchdogFields {}
      (.object [(some "lock_timeout_ms", .number (some w.lockTimeoutMs.toNat))]) = some w := by
  have timeout := jsonCount?_toNat w.lockTimeoutMs
  rw [readRecord, readMembers_cons (b := w) rfl (readInto_eq_some.2 ⟨_, timeout, rfl⟩)
    List.not_mem_nil]
  rfl

theorem readRecord_dispatcherFields (d : DispatcherSettings) :
    readRecord dispatcherFields {} (.object [(some "name", .str (some d.name)),
      (some "slow_turn_warn_ms", .number (some d.slowTurnWarnMs.toNat))]) = some d := by
  have warn := jsonCount?_toNat d.slowTurnWarnMs
  rw [readRecord, readMembers_cons (b := { name := d.name }) rfl rfl List.not_mem_nil,
    readMembers_cons (b := d) rfl (readInto_eq_some.2 ⟨_, warn, rfl⟩) (by decide)]
  rfl

theorem ofJsonValue?_jsonValue (s : Settings) : ofJsonValue? s.jsonValue = some s := by
  have watchdog := readRecord_watchdogFields s.watchdog
  have dispatcher := readRecord_dispatcherFields s.dispatcher
  rw [ofJsonValue?, jsonValue, readRecord,
    readMembers_cons (b := { watchdog := s.watchdog }) rfl
      (readInto_eq_some.2 ⟨_, watchdog, rfl⟩) List.not_mem_nil,
    readMembers_cons (b := s) rfl (readInto_eq_some.2 ⟨_, dispatcher, rfl⟩) (by decide)]
  rfl

end Settings

/-- Settings are read from their JSON text as they were written. -/
theorem settings_survive_json : (∀ s : Settings, Settings.ofJson? s.toJson = some s) ∧
    Function.Injective Settings.toJson := by
  have hread (s : Settings) : Settings.ofJson? s.toJson = some s := by
    have hp := JsonValue.parse?_of_text (JsonValue.paddedText_of_text s.valueText_jsonChars)
    rw [Settings.ofJson?, Settings.toJson, hp, Option.bind_some, s.ofJsonValue?_jsonValue]
  refine ⟨hread, ?_⟩
  intro s t h
  have hs := hread s
  rw [h, hread t] at hs
  exact (Option.some.inj hs).symm

end Turnstile
