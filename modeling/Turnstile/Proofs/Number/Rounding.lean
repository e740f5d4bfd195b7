import Mathlib.Data.Nat.Digits.Defs
import Turnstile.Number.Binary64
import Turnstile.Proofs.Number.Digits

namespace Turnstile.Binary64

open Number

def saturated (n : Nat) : UInt64 := (min n (UInt64.size - 1)).toUInt64

/-- The whole number that is read back where `n` is written. What does not fit into a signed word is
rounded to 53 bits, and numbers from 2 ^ 63 to 2 ^ 64 keep all but the last eleven. -/
def wordOf (n : Nat) : UInt64 :=
  if n < signedLimit then n.toUInt64 else saturated (2048 * roundEven n 2048)

theorem saturated_of_le {n : Nat} (h : UInt64.size ≤ n) : saturated n = saturated UInt64.size := by
  have hn : min n (UInt64.size - 1) = UInt64.size - 1 := by omega
  rw [saturated, hn]
  rfl

theorem div_le_roundEven (num den : Nat) : num / den ≤ roundEven num den := by
  simp only [roundEven]
  split_ifs <;> omega

theorem toUInt64_finite (m e : Nat) :
    (finite false m e).toUInt64 = saturated (m * Nat.pow 2 e) := by
  have hneg : (-(e : Int)).toNat = 0 := by omega
  have hhalf (x : Nat) : (2 * x + 1) / 2 = x := by omega
  simp [toUInt64, saturated, hneg, hhalf]

theorem floorLog2_one {n : Nat} (hn : n ≠ 0) : floorLog2 n 1 = n.log2 := by
  have hlog : Nat.log2 1 = 0 := by decide
  have hle : ¬ n < 2 ^ n.log2 := Nat.not_lt.mpr (Nat.log2_self_le hn)
  simp [floorLog2, hlog, hle]

theorem fullMantissa_le_roundEven {n e : Nat} (hn : n.log2 = 52 + e) :
    fullMantissa ≤ roundEven n (Nat.pow 2 e) := by
  have h0 : n ≠ 0 := by
    rintro rfl
    rw [Nat.log2_zero] at hn
    omega
  refine Nat.le_trans ((Nat.le_div_iff_mul_le (Nat.two_pow_pos e)).mpr ?_) (div_le_roundEven _ _)
  have hself := Nat.log2_self_le h0
  rwa [hn, Nat.pow_add] at hself

theorem size_le_mul {m e : Nat} (hm : fullMantissa ≤ m) (he : 12 ≤ e) :
    UInt64.size ≤ m * Nat.pow 2 e := by
  have hp : Nat.pow 2 12 ≤ Nat.pow 2 e := Nat.pow_le_pow_right (by decide) he
  exact Nat.mul_le_mul hm hp

/-- A number of more than 52 bits keeps the first 53 of them, and the rest is rounded away. -/
theorem toUInt64_ofRatio {n e : Nat} (hn : n.log2 = 52 + e) :
    (ofRatio false n 1).toUInt64 = saturated (roundEven n (Nat.pow 2 e) * Nat.pow 2 e) := by
  have h0 : n ≠ 0 := by
    rintro rfl
    rw [Nat.log2_zero] at hn
    omega
  have he : max (floorLog2 n 1 - 52) (-1074) = (e : Int) := by
    rw [floorLog2_one h0, hn]
    omega
  have hneg : (-(e : Int)).toNat = 0 := by omega
  have hone : Nat.pow 2 0 = 1 := rfl
  have hm := fullMantissa_le_roundEven hn
  unfold ofRatio
  simp only [h0, ↓reduceIte, he, hneg, Int.toNat_natCast, hone, Nat.mul_one, Nat.one_mul]
  generalize roundEven n (Nat.pow 2 e) = m at hm ⊢
  by_cases hcarry : m = 2 * fullMantissa
  · -- a mantissa of 54 bits is halved, and the exponent goes up by one
    have hdouble : m * Nat.pow 2 e = fullMantissa * Nat.pow 2 (e + 1) := by
      have hsucc : Nat.pow 2 (e + 1) = Nat.pow 2 e * 2 := rfl
      rw [hcarry, hsucc, Nat.mul_comm 2, Nat.mul_assoc, Nat.mul_comm 2]
    have hfull : fullMantissa ≠ 0 := by decide
    simp only [hcarry, hfull, ↓reduceIte]
    rw [← hcarry]
    split
    · rw [saturated_of_le (size_le_mul hm (by omega))]
      rfl
    · rw [hdouble]
      exact toUInt64_finite fullMantissa (e + 1)
  · have hm0 : m ≠ 0 := by
      rintro rfl
      exact absurd hm (by decide)
    simp only [hcarry, hm0, ↓reduceIte]
    split
    · rw [saturated_of_le (size_le_mul hm (by omega))]
      rfl
    · exact toUInt64_finite m e

theorem toUInt64_ofDecimal {n : Nat} (hn : signedLimit ≤ n) :
    (ofDecimal false n 0).toUInt64 = saturated (2048 * roundEven n 2048) := by
  have hn' : 9223372036854775808 ≤ n := hn
  have h0 : n ≠ 0 := by omega
  have hlow : ¬ ((Nat.toDigits 10 n).length : Int) + 0 < -330 := by omega
  have hone : Nat.pow 10 0 = 1 := rfl
  simp only [ofDecimal, h0, hlow, ↓reduceIte, Int.toNat_zero, Int.neg_zero, hone, Nat.mul_one]
  by_cases hsize : n < UInt64.size
  · have hlen : (Nat.toDigits 10 n).length ≤ 20 :=
      Nat.toDigits_length 10 n 20 (by decide) (Nat.lt_trans hsize (by decide))
    have hlog : n.log2 = 52 + 11 := (Nat.log2_eq_iff h0).mpr ⟨hn, hsize⟩
    rw [if_neg (by omega), toUInt64_ofRatio hlog, Nat.mul_comm]
  · have hbig : UInt64.size ≤ 2048 * roundEven n 2048 := by
      have hle := div_le_roundEven n 2048
      simp only [UInt64.size] at hsize ⊢
      omega
    rw [saturated_of_le hbig]
    split
    · rfl
    · have hlog : 64 ≤ n.log2 := (Nat.le_log2 h0).mpr (Nat.not_lt.mp hsize)
      have he : n.log2 = 52 + (n.log2 - 52) := by omega
      rw [toUInt64_ofRatio he, saturated_of_le]
      exact size_le_mul (fullMantissa_le_roundEven he) (by omega)

theorem toNat_saturated (n : Nat) : (saturated n).toNat = min n (UInt64.size - 1) := by
  rw [saturated, UInt64.toNat_ofNat', Nat.mod_eq_of_lt]
  exact Nat.lt_of_le_of_lt (Nat.min_le_right _ _) (by decide)

theorem toNat_wordOf_of_lt {n : Nat} (h : n < signedLimit) : (wordOf n).toNat = n := by
  rw [wordOf, if_pos h, UInt64.toNat_ofNat', Nat.mod_eq_of_lt]
  exact Nat.lt_trans h (by decide)

theorem signedLimit_le_wordOf {n : Nat} (h : signedLimit ≤ n) : signedLimit ≤ (wordOf n).toNat := by
  rw [wordOf, if_neg (Nat.not_lt.mpr h), toNat_saturated]
  have hround := div_le_roundEven n 2048
  simp only [signedLimit, UInt64.size] at h ⊢
  omega

theorem ofText?_of_digits {s : String} (hne : s ≠ "") (hd : ∀ c ∈ s.toList, c.isDigit = true) :
    ofText? s = some (ofDecimal false (Nat.ofDigitChars 10 s.toList 0) 0) := by
  have hlower : s.toList.map Char.toLower = s.toList := by
    rw [List.map_congr_left fun c hc => toLower_of_isDigit (hd c hc), List.map_id']
  have hspan : spanDigits s.toList = (s.toList, []) := by
    have happ : spanDigits (s.toList ++ []) = (s.toList, []) := spanDigits_append hd (by simp)
    rwa [List.append_nil] at happ
  -- no word begins with a digit
  have hword (w : String) (hw : w.toList.all Char.isDigit = false) : s ≠ w := by
    rintro rfl
    rw [List.all_eq_true.mpr hd] at hw
    cases hw
  have hnil : s.toList ≠ [] := fun h => hne (String.toList_eq_nil_iff.mp h)
  simp only [ofText?, splitSign_of_digits hd, hlower, String.ofList_toList]
  split
  · exact (hword "inf" (by decide) rfl).elim
  · exact (hword "infinity" (by decide) rfl).elim
  · exact (hword "nan" (by decide) rfl).elim
  · simp [unsigned?, hspan, hnil, exponent?]

theorem toNat_wordOf_eq_iff (n : Nat) :
    (wordOf n).toNat = n ↔
      n < signedLimit ∨ n < UInt64.size ∧ n % 2048 = 0 ∨ n = UInt64.size - 1 := by
  by_cases h : n < signedLimit
  · exact iff_of_true (toNat_wordOf_of_lt h) (.inl h)
  · rw [wordOf, if_neg h, toNat_saturated]
    simp only [signedLimit] at h
    simp only [roundEven, signedLimit, UInt64.size]
    split_ifs <;> omega

end Turnstile.Binary64
