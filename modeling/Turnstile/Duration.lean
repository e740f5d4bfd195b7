namespace Turnstile

structure Duration where
  secs : UInt64
  nanos : Fin 1000000000
deriving DecidableEq, Repr

namespace Duration

def toNanos (d : Duration) : Nat := d.secs.toNat * 1000000000 + d.nanos

def toMillis (d : Duration) : Nat := d.toNanos / 1000000

def ofMillis (ms : UInt64) : Duration where
  secs := ms / 1000
  nanos := ⟨(ms.toNat % 1000) * 1000000, by omega⟩

theorem toNanos_ofMillis (ms : UInt64) : (ofMillis ms).toNanos = ms.toNat * 1000000 := by
  have h : (ms / 1000).toNat = ms.toNat / 1000 := by simp [UInt64.toNat_div]
  simp only [toNanos, ofMillis, h]
  omega

/-- The digits of the fraction `n / Nat.pow 10 width`, up to the last one that is not zero. -/
def fractionDigits : Nat → Nat → List Char
  | 0, _ => []
  | width + 1, n =>
    if n = 0 then []
    else Nat.digitChar (n / Nat.pow 10 width) :: fractionDigits width (n % Nat.pow 10 width)

def inUnit (whole width fraction : Nat) (unit : List Char) : List Char :=
  Nat.toDigits 10 whole ++
    (if fraction = 0 then [] else '.' :: fractionDigits width fraction) ++ unit

/-- The largest unit of which there is at least one, with the exact fraction. -/
def textChars (d : Duration) : List Char :=
  let n := d.nanos.val
  if d.secs ≠ 0 then inUnit d.secs.toNat 9 n ['s']
  else if 1000000 ≤ n then inUnit (n / 1000000) 6 (n % 1000000) ['m', 's']
  else if 1000 ≤ n then inUnit (n / 1000) 3 (n % 1000) ['µ', 's']
  else inUnit n 0 0 ['n', 's']

def text (d : Duration) : String := String.ofList d.textChars

end Duration

end Turnstile
