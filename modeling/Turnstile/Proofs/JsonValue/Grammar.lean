import Turnstile.JsonValue

namespace Turnstile.JsonValue

open Number

def Blank (cs : List Char) : Prop := ∀ c ∈ cs, isBlank c = true

def escapes : List (Char × Char) :=
  [('"', '"'), ('\\', '\\'), ('/', '/'), ('b', '\x08'), ('f', '\x0c'), ('n', '\n'), ('r', '\r'),
    ('t', '\t')]

structure IsCodeUnit (u : Nat) (ds : List Char) : Prop where
  length : ds.length = 4
  digits : ∀ c ∈ ds, isDigitOf 16 c = true
  value : ofDigitsOf 16 ds = u

inductive CharText : Char → List Char → Prop where
  | plain {c : Char} (hs : ¬ c < ' ') (hq : c ≠ '"') (hb : c ≠ '\\') : CharText c [c]
  | escape {e c : Char} (h : (e, c) ∈ escapes) : CharText c ['\\', e]
  | unit {u : Nat} {ds : List Char} (hu : IsCodeUnit u ds) (hh : isHigh u = false)
      (hl : isLow u = false) : CharText (Char.ofNat u) ('\\' :: 'u' :: ds)
  | pair {u l : Nat} {ds es : List Char} (hu : IsCodeUnit u ds) (hl : IsCodeUnit l es)
      (hh : isHigh u = true) (hw : isLow l = true) :
      CharText (Char.ofNat (0x10000 + (u - 0xd800) * 0x400 + (l - 0xdc00)))
        ('\\' :: 'u' :: ds ++ '\\' :: 'u' :: es)

inductive StringText : List Char → List Char → Prop where
  | nil : StringText [] []
  | cons {c : Char} {s ds cs : List Char} (hc : CharText c ds) (hs : StringText s cs) :
      StringText (c :: s) (ds ++ cs)

structure IsDigits (ds : List Char) : Prop where
  ne_nil : ds ≠ []
  digits : ∀ c ∈ ds, c.isDigit = true

/-- A whole number has no zero in front of other digits. -/
structure IsWhole (ds : List Char) : Prop extends IsDigits ds where
  zero : ds.head? = some '0' → ds = ['0']

inductive SignText : Bool → List Char → Prop where
  | absent : SignText false []
  | minus : SignText true ['-']

inductive FractionText : Bool → List Char → Prop where
  | absent : FractionText false []
  | present {ds : List Char} (h : IsDigits ds) : FractionText true ('.' :: ds)

inductive ExponentText : Bool → List Char → Prop where
  | absent : ExponentText false []
  | present {e : Char} {sign ds : List Char} (he : e = 'e' ∨ e = 'E')
      (hs : sign = [] ∨ sign = ['+'] ∨ sign = ['-']) (h : IsDigits ds) :
      ExponentText true (e :: sign ++ ds)

/-- A number with the natural number that it is, if it is written as one. -/
inductive NumberText : Option Nat → List Char → Prop where
  | mk {n f e : Bool} {sign ds fraction exponent : List Char} (hn : SignText n sign)
      (hd : IsWhole ds) (hf : FractionText f fraction) (he : ExponentText e exponent) :
      NumberText (if n || f || e then none else some (Nat.ofDigitChars 10 ds 0))
        (sign ++ ds ++ fraction ++ exponent)

inductive KeyText : String → List Char → Prop where
  | mk {s a cs b : List Char} (ha : Blank a) (hs : StringText s cs) (hb : Blank b) :
      KeyText (String.ofList s) (a ++ '"' :: cs ++ '"' :: b)

mutual

inductive ValueText : JsonValue → List Char → Prop where
  | null : ValueText .null "null".toList
  | bool (b : Bool) : ValueText (.bool b) (toString b).toList
  | number {n : Option Nat} {cs : List Char} (h : NumberText n cs) : ValueText (.number n) cs
  | str {s cs : List Char} (h : StringText s cs) :
      ValueText (.str (some (String.ofList s))) ('"' :: cs ++ ['"'])
  | emptyArray {b : List Char} (hb : Blank b) : ValueText (.array []) ('[' :: b ++ [']'])
  | array {vs : List JsonValue} {cs : List Char} (h : ItemsText vs cs) :
      ValueText (.array vs) ('[' :: cs ++ [']'])
  | emptyObject {b : List Char} (hb : Blank b) :
      ValueText (.object []) ('\x7b' :: b ++ ['\x7d'])
  | object {ms : List (Option String × JsonValue)} {cs : List Char} (h : MembersText ms cs) :
      ValueText (.object ms) ('\x7b' :: cs ++ ['\x7d'])

inductive PaddedText : JsonValue → List Char → Prop where
  | mk {v : JsonValue} {a cs b : List Char} (ha : Blank a) (h : ValueText v cs) (hb : Blank b) :
      PaddedText v (a ++ cs ++ b)

inductive ItemsText : List JsonValue → List Char → Prop where
  | last {v : JsonValue} {cs : List Char} (h : PaddedText v cs) : ItemsText [v] cs
  | more {v : JsonValue} {vs : List JsonValue} {cs ds : List Char} (h : PaddedText v cs)
      (hs : ItemsText vs ds) : ItemsText (v :: vs) (cs ++ ',' :: ds)

inductive MembersText : List (Option String × JsonValue) → List Char → Prop where
  | last {k : String} {v : JsonValue} {ks cs : List Char} (hk : KeyText k ks)
      (h : PaddedText v cs) : MembersText [(some k, v)] (ks ++ ':' :: cs)
  | more {k : String} {v : JsonValue} {ms : List (Option String × JsonValue)}
      {ks cs ds : List Char} (hk : KeyText k ks) (h : PaddedText v cs) (hs : MembersText ms ds) :
      MembersText ((some k, v) :: ms) (ks ++ ':' :: cs ++ ',' :: ds)

end

end Turnstile.JsonValue
