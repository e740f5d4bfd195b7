import Turnstile.Proofs.Number.Digits
import Turnstile.Proofs.TimedLock.Calls
import Turnstile.Report

namespace Turnstile

open Number

namespace Duration

/-- How many decimal places of a unit reach down to the nanosecond. -/
def places? : List Char → Option Nat
  | ['s'] => some 9
  | ['m', 's'] => some 6
  | ['µ', 's'] => some 3
  | ['n', 's'] => some 0
  | _ => none

def splitFraction : List Char → List Char × List Char
  | '.' :: cs => spanDigits cs
  | cs => ([], cs)

def nanosOf? (cs : List Char) : Option Nat :=
  let whole := spanDigits cs
  let fraction := splitFraction whole.2
  (places? fraction.2).map fun places =>
    Nat.ofDigitChars 10 (whole.1 ++ fraction.1) 0 * Nat.pow 10 places / Nat.pow 10 fraction.1.length

/-- Behind a point the digits stand for `n / Nat.pow 10 width`. -/
structure IsFraction (width n : Nat) (ds : List Char) : Prop where
  digits : ∀ c ∈ ds, c.isDigit = true
  value : Nat.ofDigitChars 10 ds 0 * Nat.pow 10 width = n * Nat.pow 10 ds.length

theorem IsFraction.nil (width : Nat) : IsFraction width 0 [] where
  digits := by simp
  value := (Nat.zero_mul _).trans (Nat.zero_mul _).symm

theorem IsFraction.value_append {width n : Nat} {ds : List Char} (h : IsFraction width n ds)
    (cs : List Char) : Nat.ofDigitChars 10 (cs ++ ds) 0 * Nat.pow 10 width =
      (Nat.ofDigitChars 10 cs 0 * Nat.pow 10 width + n) * Nat.pow 10 ds.length := by
  have happend : Nat.ofDigitChars 10 (cs ++ ds) 0 =
      Nat.ofDigitChars 10 cs 0 * Nat.pow 10 ds.length + Nat.ofDigitChars 10 ds 0 := by
    rw [Nat.ofDigitChars_append, Nat.ofDigitChars_eq_ofDigitChars_zero, Nat.mul_comm]
    rfl
  rw [happend, Nat.add_mul, Nat.add_mul, h.value, Nat.mul_right_comm]

theorem IsFraction.cons {width d n : Nat} {ds : List Char} (hd : d < 10)
    (h : IsFraction width n ds) :
    IsFraction (width + 1) (d * Nat.pow 10 width + n) (Nat.digitChar d :: ds) where
  digits := by
    rw [List.forall_mem_cons, Nat.isDigit_digitChar, decide_eq_true hd]
    exact ⟨rfl, h.digits⟩
  value := by
    have hv := h.value_append [Nat.digitChar d]
    rw [← Nat.toDigits_of_lt_base hd, Nat.ofDigitChars_toDigits (by decide) (by decide),
      Nat.toDigits_of_lt_base hd, List.singleton_append] at hv
    have hten (k : Nat) : Nat.pow 10 (k + 1) = Nat.pow 10 k * 10 := rfl
    rw [List.length_cons, hten, hten, ← Nat.mul_assoc, ← Nat.mul_assoc, hv]

theorem isFraction_fractionDigits {width n : Nat} (hn : n < Nat.pow 10 width) :
    IsFraction width n (fractionDigits width n) := by
  induction width generalizing n with
  | zero =>
    obtain rfl : n = 0 := Nat.lt_one_iff.mp hn
    exact .nil 0
  | succ width ih =>
    rw [fractionDigits]
    split
    · subst n
      exact .nil _
    · have hd : n / Nat.pow 10 width < 10 := Nat.div_lt_of_lt_mul hn
      have hm : n % Nat.pow 10 width < Nat.pow 10 width := Nat.mod_lt _ (Nat.pow_pos (by decide))
      have h := (ih hm).cons hd
      rwa [Nat.div_add_mod'] at h

theorem head?_of_places? {unit : List Char} {places : Nat} (h : places? unit = some places) :
    ∀ c ∈ unit.head?, c.isDigit = false ∧ c ≠ '.' := by
  unfold places? at h
  split at h
  case h_5 => cases h
  all_goals simp

theorem splitFraction_of_unit {unit : List Char} {places : Nat} (h : places? unit = some places) :
    splitFraction unit = ([], unit) := by
  unfold splitFraction
  split
  · exact absurd rfl (head?_of_places? h '.' rfl).2
  · rfl

theorem nanosOf?_append {whole rest fraction unit : List Char} {places n : Nat}
    (hwhole : ∀ c ∈ whole, c.isDigit = true) (hrest : ∀ c ∈ rest.head?, c.isDigit = false)
    (hsplit : splitFraction rest = (fraction, unit)) (hu : places? unit = some places)
    (hfraction : IsFraction places n fraction) :
    nanosOf? (whole ++ rest) = some (Nat.ofDigitChars 10 whole 0 * Nat.pow 10 places + n) := by
  have hpos : 0 < Nat.pow 10 fraction.length := Nat.pow_pos (by decide)
  simp only [nanosOf?, spanDigits_append hwhole hrest, hsplit, hu, Option.map_some,
    hfraction.value_append, Nat.mul_div_cancel _ hpos]

theorem nanosOf?_inUnit {whole width n : Nat} {unit : List Char} (hn : n < Nat.pow 10 width)
    (hu : places? unit = some width) :
    nanosOf? (inUnit whole width n unit) = some (whole * Nat.pow 10 width + n) := by
  have hwhole : ∀ c ∈ Nat.toDigits 10 whole, c.isDigit = true :=
    fun c hc => Nat.isDigit_of_mem_toDigits (by decide) (by decide) hc
  have hunit : ∀ c ∈ unit.head?, c.isDigit = false := fun c hc => (head?_of_places? hu c hc).1
  rw [inUnit, List.append_assoc]
  split
  · subst n
    have h := nanosOf?_append hwhole hunit (splitFraction_of_unit hu) hu (.nil width)
    rwa [Nat.ofDigitChars_toDigits (by decide) (by decide)] at h
  · have hfraction := isFraction_fractionDigits hn
    have hpoint : ∀ c ∈ ('.' :: (fractionDigits width n ++ unit)).head?, c.isDigit = false := by
      simp
    have h := nanosOf?_append hwhole hpoint (spanDigits_append hfraction.digits hunit) hu hfraction
    rwa [Nat.ofDigitChars_toDigits (by decide) (by decide)] at h

theorem nanosOf?_inUnit_div {width : Nat} {unit : List Char} (hu : places? unit = some width)
    (n : Nat) :
    nanosOf? (inUnit (n / Nat.pow 10 width) width (n % Nat.pow 10 width) unit) = some n := by
  rw [nanosOf?_inUnit (Nat.mod_lt _ (Nat.pow_pos (by decide))) hu, Nat.div_add_mod']

theorem nanosOf?_textChars (d : Duration) : nanosOf? d.textChars = some d.toNanos := by
  have seconds : places? ['s'] = some 9 := rfl
  have millis : places? ['m', 's'] = some 6 := rfl
  have micros : places? ['µ', 's'] = some 3 := rfl
  have nanos : places? ['n', 's'] = some 0 := rfl
  unfold textChars
  by_cases hs : d.secs = 0
  · have hnanos : d.toNanos = d.nanos := by simp [toNanos, hs]
    rw [hnanos, if_neg (not_not_intro hs)]
    split
    · exact nanosOf?_inUnit_div millis d.nanos
    · split
      · exact nanosOf?_inUnit_div micros d.nanos
      · rw [nanosOf?_inUnit Nat.one_pos nanos]
        exact congrArg some (Nat.mul_one _)
  · rw [if_pos hs]
    exact nanosOf?_inUnit d.nanos.isLt seconds

example : nanosOf? "1.05s".toList = some 1050000000 := by decide

theorem toNanos_injective : Function.Injective toNanos := by
  rintro ⟨s, n⟩ ⟨t, m⟩ h
  simp only [toNanos] at h
  obtain rfl : s = t := UInt64.toNat_inj.mp (by omega)
  obtain rfl : n = m := Fin.ext (by omega)
  rfl

theorem text_injective : Function.Injective text := by
  intro a b h
  have hchars : a.textChars = b.textChars := String.ofList_injective h
  have hnanos : some a.toNanos = some b.toNanos := by
    rw [← nanosOf?_textChars, hchars, nanosOf?_textChars]
  exact toNanos_injective (Option.some.inj hnanos)

end Duration

theorem AcquisitionError.message_injective : Function.Injective message := by
  rintro ⟨a⟩ ⟨b⟩ h
  have htext : a.text = b.text := (String.append_right_inj _).mp h
  rw [Duration.text_injective htext]

namespace TimedLock

/-- The report of a lock that was not had in time tells how long it was waited for: no two times are
reported alike, wrapped or not, and so two calls that gave up report alike only if they were ready
to wait equally long. -/
theorem timeouts_are_told_apart :
    (∀ a b : Duration, (AcquisitionError.timeout a).message = (AcquisitionError.timeout b).message ↔
      AcquisitionError.timeout a = .timeout b) ∧
    (∀ e : AcquisitionError, (e : Error).message = e.message) ∧
    (∀ a b : Duration, (Error.lock (.timeout a)).message = (Error.lock (.timeout b)).message ↔
      a = b) ∧
    ∀ (l m : TimedLock) (now later : Nat) (a b : Duration) (xs ys : List (Wake × Bool))
      (e f : AcquisitionError), (l.waitFor (.since now a) xs).2 = .timedOut e →
        (m.waitFor (.since later b) ys).2 = .timedOut f →
          ((e : Error).message = (f : Error).message ↔ a = b) := by
  have alike (a b : Duration) : (AcquisitionError.timeout a).message =
      (AcquisitionError.timeout b).message ↔ AcquisitionError.timeout a = .timeout b :=
    AcquisitionError.message_injective.eq_iff
  have same (a b : Duration) : (Error.lock (.timeout a)).message =
      (Error.lock (.timeout b)).message ↔ a = b := by
    rw [← AcquisitionError.timeout.injEq]
    exact alike a b
  refine ⟨alike, fun e => rfl, same, ?_⟩
  intro l m now later a b xs ys e f he hf
  obtain ⟨rfl, -⟩ := waitFor_timedOut_iff.mp he
  obtain ⟨rfl, -⟩ := waitFor_timedOut_iff.mp hf
  exact same a b

/-- Two calls that waited a nanosecond less than a second, and a second. -/
theorem timeouts_are_told_apart_units :
    let l : TimedLock := { locked := true, timeout := .ofMillis 5 }
    let wakes : List (Wake × Bool) := [(.spurious, true), (.timedOut, true)]
    (l.waitFor (.since 0 ⟨0, 999999999⟩) wakes).2 = .timedOut (.timeout ⟨0, 999999999⟩) ∧
      (l.waitFor (.since 0 ⟨1, 0⟩) wakes).2 = .timedOut (.timeout ⟨1, 0⟩) ∧
      (Error.lock (.timeout ⟨0, 999999999⟩)).message ≠ (Error.lock (.timeout ⟨1, 0⟩)).message := by
  intro l wakes
  obtain ⟨-, -, -, reports⟩ := timeouts_are_told_apart
  have short : (l.waitFor (.since 0 ⟨0, 999999999⟩) wakes).2 =
      .timedOut (.timeout ⟨0, 999999999⟩) := by decide
  have long : (l.waitFor (.since 0 ⟨1, 0⟩) wakes).2 = .timedOut (.timeout ⟨1, 0⟩) := by decide
  refine ⟨short, long, fun h => ?_⟩
  have hsame : (⟨0, 999999999⟩ : Duration) = ⟨1, 0⟩ :=
    (reports l l 0 0 _ _ wakes wakes _ _ short long).mp h
  exact absurd hsame (by decide)

end TimedLock

end Turnstile
