import Mathlib.Data.Nat.Init
import Turnstile.Number.Digits

namespace Turnstile.Number

theorem toLower_of_isDigit {c : Char} (h : c.isDigit = true) : c.toLower = c := by
  simp only [Char.isDigit, Bool.and_eq_true, decide_eq_true_eq] at h
  unfold Char.toLower
  split
  · rename_i hc
    have h1 := UInt32.le_iff_toNat_le.mp h.2
    have h2 := UInt32.le_iff_toNat_le.mp hc.1
    simp at h1 h2
    omega
  · rfl

theorem splitSign_cons {c : Char} (hp : c ≠ '+') (hm : c ≠ '-') (cs : List Char) :
    splitSign (c :: cs) = (false, c :: cs) := by
  unfold splitSign
  split <;> simp_all

theorem spanDigits_append {ds rest : List Char} (hd : ∀ c ∈ ds, c.isDigit = true)
    (hr : ∀ c ∈ rest.head?, c.isDigit = false) : spanDigits (ds ++ rest) = (ds, rest) := by
  have hrest : rest.takeWhile Char.isDigit = [] ∧ rest.dropWhile Char.isDigit = rest := by
    cases rest with
    | nil => exact ⟨rfl, rfl⟩
    | cons c cs => simp [hr c rfl]
  rw [spanDigits, List.takeWhile_append_of_pos hd, List.dropWhile_append_of_pos hd, hrest.1,
    hrest.2, List.append_nil]

theorem splitSign_of_digits {cs : List Char} (hd : ∀ c ∈ cs, c.isDigit = true) :
    splitSign cs = (false, cs) := by
  cases cs with
  | nil => rfl
  | cons c cs =>
    have hc := hd c List.mem_cons_self
    apply splitSign_cons
    · rintro rfl
      cases hc
    · rintro rfl
      cases hc

theorem toInt64?_natCast (n : Nat) :
    toInt64? (n : Int) = if n < signedLimit then some (n : Int) else none := by
  have hlow : -(signedLimit : Int) ≤ n := by
    generalize signedLimit = m
    omega
  simp only [toInt64?, hlow, true_and, Int.ofNat_lt]

theorem int64?_of_digits {s : String} (hne : s ≠ "") (hd : ∀ c ∈ s.toList, c.isDigit = true) :
    int64? s = toInt64? (Nat.ofDigitChars 10 s.toList 0) := by
  have hnil : s.toList ≠ [] := fun h => hne (String.toList_eq_nil_iff.mp h)
  have hall : s.toList.all Char.isDigit = true := List.all_eq_true.mpr hd
  simp [int64?, splitSign_of_digits hd, natural?, hnil, hall]

theorem toDigits_of_head?_zero {n : Nat} (h : (Nat.toDigits 10 n).head? = some '0') :
    Nat.toDigits 10 n = ['0'] := by
  induction n using Nat.strongRecOn with
  | ind n ih =>
    by_cases hn : n < 10
    · rw [Nat.toDigits_of_lt_base hn] at h ⊢
      simpa using h
    · rw [Nat.toDigits_of_base_le (by decide) (by omega)] at h
      have hhead : (Nat.toDigits 10 (n / 10)).head? = some '0' := by
        cases hd : Nat.toDigits 10 (n / 10) with
        | nil => exact (Nat.toDigits_ne_nil hd).elim
        | cons c cs => simpa [hd] using h
      have hz : Nat.ofDigitChars 10 (Nat.toDigits 10 (n / 10)) 0 = 0 := by
        rw [ih (n / 10) (by omega) hhead]
        rfl
      rw [Nat.ofDigitChars_toDigits (by decide) (by decide)] at hz
      omega

end Turnstile.Number
