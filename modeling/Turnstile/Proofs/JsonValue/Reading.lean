import Mathlib.Data.List.DropRight
import Turnstile.Proofs.JsonValue.Grammar
import Turnstile.Proofs.Number.Digits

namespace Turnstile.JsonValue

open Number

variable {u fuel : Nat} {c : Char} {s ds cs rest b : List Char}

theorem skipBlanks_append (hb : Blank b) (cs : List Char) :
    skipBlanks (b ++ cs) = skipBlanks cs := List.dropWhile_append_of_pos hb

theorem skipBlanks_cons (hc : isBlank c = false) (cs : List Char) :
    skipBlanks (c :: cs) = c :: cs := List.dropWhile_cons_of_neg (by simp [hc])

theorem Blank.skipBlanks (hb : Blank b) (hc : isBlank c = false) (cs : List Char) :
    JsonValue.skipBlanks (b ++ c :: cs) = c :: cs := by
  rw [skipBlanks_append hb, skipBlanks_cons hc]

theorem skipBlanks_skipBlanks (cs : List Char) : skipBlanks (skipBlanks cs) = skipBlanks cs :=
  List.dropWhile_idempotent isBlank cs

theorem IsCodeUnit.unit? (h : IsCodeUnit u ds) (rest : List Char) :
    JsonValue.unit? (ds ++ rest) = some (u, rest) := by
  have ht : (ds ++ rest).take 4 = ds := by rw [← h.length, List.take_left]
  have hd : (ds ++ rest).drop 4 = rest := by rw [← h.length, List.drop_left]
  have ha : ds.all (isDigitOf 16) = true := List.all_eq_true.mpr h.digits
  simp [JsonValue.unit?, ht, hd, h.length, ha, h.value]

theorem string?_of_escape {c : Option Char} (h : escape? cs = some (c, rest)) (fuel : Nat) :
    string? (fuel + 1) ('\\' :: cs) =
      (string? fuel rest).map fun r => (consChar c r.1, r.2) := by
  simp only [string?, h, Option.bind_eq_bind, Option.bind_some]
  cases string? fuel rest <;> rfl

theorem CharText.string? (h : CharText c ds) (fuel : Nat) (rest : List Char) :
    JsonValue.string? (fuel + 1) (ds ++ rest) =
      (JsonValue.string? fuel rest).map fun r => (consChar (some c) r.1, r.2) := by
  cases h with
  | plain hs hq hb => simp [JsonValue.string?, hs]
  | escape h =>
    apply string?_of_escape
    simp only [escapes, List.mem_cons, Prod.mk.injEq, List.not_mem_nil, or_false] at h
    rcases h with ⟨rfl, rfl⟩ | ⟨rfl, rfl⟩ | ⟨rfl, rfl⟩ | ⟨rfl, rfl⟩ | ⟨rfl, rfl⟩ | ⟨rfl, rfl⟩ |
      ⟨rfl, rfl⟩ | ⟨rfl, rfl⟩ <;> rfl
  | unit hu hh hl =>
    apply string?_of_escape
    simp [escape?, unicode?, hu.unit?, hh, hl]
  | @pair u l ds es hu hl hh hw =>
    have hlow : lowUnit? ('\\' :: 'u' :: (es ++ rest)) = some (l, rest) := by
      simp [lowUnit?, hl.unit?, hw]
    have hlist : ('\\' :: 'u' :: ds ++ '\\' :: 'u' :: es) ++ rest =
        '\\' :: 'u' :: (ds ++ '\\' :: 'u' :: (es ++ rest)) := by simp
    rw [hlist]
    apply string?_of_escape
    simp [escape?, unicode?, hu.unit?, hh, hlow]

theorem CharText.length_pos (h : CharText c ds) : 0 < ds.length := by
  cases h <;> simp

theorem StringText.string? (h : StringText s cs) (rest : List Char) (hf : cs.length < fuel) :
    JsonValue.string? fuel (cs ++ '"' :: rest) = some (some s, rest) := by
  induction h generalizing fuel with
  | nil =>
    obtain ⟨f, rfl⟩ : ∃ f, fuel = f + 1 := Nat.exists_eq_add_one.mpr hf
    rfl
  | @cons c s ds cs hc hs ih =>
    obtain ⟨f, rfl⟩ : ∃ f, fuel = f + 1 := Nat.exists_eq_add_one.mpr (Nat.zero_lt_of_lt hf)
    -- each character takes up one fuel, and at least one character of the text
    have hpos := hc.length_pos
    have hf' : cs.length < f := by
      rw [List.length_append] at hf
      omega
    rw [List.append_assoc, hc.string?, ih hf']
    rfl

theorem StringText.text? (h : StringText s cs) (rest : List Char) :
    JsonValue.text? (cs ++ '"' :: rest) = some (some (String.ofList s), rest) := by
  have hf : cs.length < (cs ++ '"' :: rest).length + 1 := by
    rw [List.length_append]
    omega
  rw [JsonValue.text?, h.string? rest hf, Option.map_some, Option.map_some]

/-- A number is not continued here. -/
def Ends (cs : List Char) : Prop :=
  ∀ c ∈ cs.head?, c.isDigit = false ∧ c ≠ '.' ∧ c ≠ 'e' ∧ c ≠ 'E'

theorem ends_cons (h : c.isDigit = false ∧ c ≠ '.' ∧ c ≠ 'e' ∧ c ≠ 'E') (cs : List Char) :
    Ends (c :: cs) := by
  intro x hx
  cases hx
  exact h

theorem Blank.ends_append (hb : Blank b) (hr : Ends rest) : Ends (b ++ rest) := by
  cases b with
  | nil => exact hr
  | cons c b =>
    apply ends_cons
    have hc := hb c List.mem_cons_self
    simp only [isBlank, Bool.or_eq_true, decide_eq_true_eq] at hc
    rcases hc with ((rfl | rfl) | rfl) | rfl <;> decide

theorem IsDigits.spanDigits (hd : IsDigits ds) (hr : ∀ c ∈ rest.head?, c.isDigit = false) :
    Number.spanDigits (ds ++ rest) = (ds, rest) := spanDigits_append hd.digits hr

theorem IsDigits.exists_head (hd : IsDigits ds) :
    ∃ c cs, ds = c :: cs ∧ c.isDigit = true := by
  obtain ⟨c, cs, rfl⟩ := List.exists_cons_of_ne_nil hd.ne_nil
  exact ⟨c, cs, rfl, hd.digits c List.mem_cons_self⟩

theorem ne_of_isDigit {x : Char} (hc : c.isDigit = true) (hx : x.isDigit = false) : c ≠ x := by
  rintro rfl
  rw [hc] at hx
  cases hx

theorem IsWhole.whole? (hd : IsWhole ds) (hr : ∀ c ∈ rest.head?, c.isDigit = false) :
    JsonValue.whole? (ds ++ rest) = some (ds, rest) := by
  obtain ⟨c, cs, rfl, -⟩ := hd.exists_head
  have hs := hd.toIsDigits.spanDigits hr
  unfold JsonValue.whole?
  rw [hs]
  split
  · rename_i h
    cases h
  · rename_i x xs _ h
    cases h
    have := hd.zero rfl
    cases this
  · rfl

theorem FractionText.fraction? {f : Bool} (h : FractionText f cs)
    (hr : ∀ c ∈ rest.head?, c.isDigit = false ∧ c ≠ '.') :
    JsonValue.fraction? (cs ++ rest) = some (f, rest) := by
  cases h with
  | absent =>
    cases rest with
    | nil => rfl
    | cons c cs => simp [JsonValue.fraction?, (hr c rfl).2]
  | present hd => simp [JsonValue.fraction?, hd.spanDigits fun c hc => (hr c hc).1, hd.ne_nil]

theorem ExponentText.exponent? {e : Bool} (h : ExponentText e cs) (hr : Ends rest) :
    JsonValue.exponent? (cs ++ rest) = some (e, rest) := by
  cases h with
  | absent =>
    cases rest with
    | nil => rfl
    | cons c cs =>
      obtain ⟨-, -, he, hE⟩ := hr c rfl
      simp [JsonValue.exponent?, he, hE]
  | @present e sign ds he hs hd =>
    have hsplit : (splitSign (sign ++ (ds ++ rest))).2 = ds ++ rest := by
      rcases hs with rfl | rfl | rfl
      · obtain ⟨c, cs, rfl, hc⟩ := hd.exists_head
        have hp : c ≠ '+' := ne_of_isDigit hc (by decide)
        have hm : c ≠ '-' := ne_of_isDigit hc (by decide)
        simp [splitSign_cons hp hm]
      · rfl
      · rfl
    simp [JsonValue.exponent?, he, hsplit, hd.spanDigits fun c hc => (hr c hc).1, hd.ne_nil]

theorem ExponentText.head?_append {e : Bool} (h : ExponentText e cs) (hr : Ends rest) :
    ∀ c ∈ (cs ++ rest).head?, c.isDigit = false ∧ c ≠ '.' := by
  intro c hc
  cases h with
  | absent => exact ⟨(hr c hc).1, (hr c hc).2.1⟩
  | present he =>
    cases hc
    rcases he with rfl | rfl <;> decide

theorem FractionText.head?_append {f : Bool} (h : FractionText f cs)
    (hr : ∀ c ∈ rest.head?, c.isDigit = false ∧ c ≠ '.') :
    ∀ c ∈ (cs ++ rest).head?, c.isDigit = false := by
  intro c hc
  cases h with
  | absent => exact (hr c hc).1
  | present =>
    cases hc
    decide

theorem NumberText.number? {n : Option Nat} (h : NumberText n cs) (hr : Ends rest) :
    JsonValue.number? (cs ++ rest) = some (.number n, rest) := by
  obtain ⟨hn, hd, hf, he⟩ := h
  rename_i n f e sign ds fraction exponent
  have hexp := he.head?_append hr
  have hwhole := hd.whole? (hf.head?_append hexp)
  have hfraction := hf.fraction? hexp
  have hexponent := he.exponent? hr
  have hassoc : sign ++ ds ++ fraction ++ exponent ++ rest =
      sign ++ (ds ++ (fraction ++ (exponent ++ rest))) := by simp
  rw [hassoc]
  cases hn with
  | minus => simp [JsonValue.number?, hwhole, hfraction, hexponent]
  | absent =>
    obtain ⟨c, cs, rfl, hc⟩ := hd.exists_head
    have hm : c ≠ '-' := ne_of_isDigit hc (by decide)
    rw [List.nil_append]
    simp only [List.cons_append] at hwhole ⊢
    rw [JsonValue.number?]
    · simp [hwhole, hfraction, hexponent]
    · simp [hm]

theorem NumberText.exists_head {n : Option Nat} (h : NumberText n cs) :
    ∃ c ds, cs = c :: ds ∧ (c = '-' ∨ c.isDigit = true) := by
  obtain ⟨hn, hd, -, -⟩ := h
  obtain ⟨c, cs, rfl, hc⟩ := hd.exists_head
  cases hn with
  | absent => exact ⟨c, _, rfl, .inr hc⟩
  | minus => exact ⟨'-', _, rfl, .inl rfl⟩

theorem ne_of_numeral {x : Char} (hc : c = '-' ∨ c.isDigit = true)
    (hx : ¬ (x = '-' ∨ x.isDigit = true)) : c ≠ x := by
  rintro rfl
  exact hx hc

theorem isBlank_of_numeral (hc : c = '-' ∨ c.isDigit = true) : isBlank c = false := by
  have hne (x : Char) (hx : ¬ (x = '-' ∨ x.isDigit = true)) : c ≠ x := ne_of_numeral hc hx
  simp [isBlank, hne ' ' (by decide), hne '\t' (by decide), hne '\n' (by decide),
    hne '\r' (by decide)]

theorem value?_of_number (hc : c = '-' ∨ c.isDigit = true) (fuel : Nat) (cs : List Char) :
    value? (fuel + 1) (c :: cs) = number? (c :: cs) := by
  rw [value?, skipBlanks_cons (isBlank_of_numeral hc)]
  split
  case h_7 => rfl
  all_goals
    rename_i h
    cases h
    exact absurd hc (by decide)

theorem value?_skipBlanks (fuel : Nat) (cs : List Char) :
    value? fuel (skipBlanks cs) = value? fuel cs := by
  cases fuel with
  | zero => rfl
  | succ fuel => rw [value?, value?, skipBlanks_skipBlanks]

theorem items?_skipBlanks (fuel : Nat) (cs : List Char) :
    items? fuel (skipBlanks cs) = items? fuel cs := by
  cases fuel with
  | zero => rfl
  | succ fuel => rw [items?, items?, value?_skipBlanks]

theorem members?_skipBlanks (fuel : Nat) (cs : List Char) :
    members? fuel (skipBlanks cs) = members? fuel cs := by
  cases fuel with
  | zero => rfl
  | succ fuel => rw [members?, members?, skipBlanks_skipBlanks]

theorem value?_bracket (fuel : Nat) (cs : List Char) : value? (fuel + 1) ('[' :: cs) =
    match skipBlanks cs with
    | ']' :: cs => some (.array [], cs)
    | cs => (items? fuel cs).map fun r => (.array r.1, r.2) := rfl

theorem value?_brace (fuel : Nat) (cs : List Char) : value? (fuel + 1) ('\x7b' :: cs) =
    match skipBlanks cs with
    | '\x7d' :: cs => some (.object [], cs)
    | cs => (members? fuel cs).map fun r => (.object r.1, r.2) := rfl

theorem value?_of_items (h : ∀ ds, skipBlanks cs ≠ ']' :: ds) (fuel : Nat) :
    value? (fuel + 1) ('[' :: cs) = (items? fuel cs).map fun r => (.array r.1, r.2) := by
  rw [value?_bracket]
  split
  · rename_i ds hds
    exact (h ds hds).elim
  · rw [items?_skipBlanks]

theorem value?_of_members (h : ∀ ds, skipBlanks cs ≠ '\x7d' :: ds) (fuel : Nat) :
    value? (fuel + 1) ('\x7b' :: cs) = (members? fuel cs).map fun r => (.object r.1, r.2) := by
  rw [value?_brace]
  split
  · rename_i ds hds
    exact (h ds hds).elim
  · rw [members?_skipBlanks]

theorem ValueText.exists_head {v : JsonValue} (h : ValueText v cs) :
    ∃ c ds, cs = c :: ds ∧ isBlank c = false ∧ c ≠ ']' := by
  cases h with
  | number h =>
    obtain ⟨c, ds, rfl, hc⟩ := h.exists_head
    exact ⟨c, ds, rfl, isBlank_of_numeral hc, ne_of_numeral hc (by decide)⟩
  | bool b => cases b <;> exact ⟨_, _, rfl, by decide⟩
  | _ => exact ⟨_, _, rfl, by decide⟩

theorem PaddedText.skipBlanks_ne {v : JsonValue} (h : PaddedText v cs) (rest ds : List Char) :
    skipBlanks (cs ++ rest) ≠ ']' :: ds := by
  obtain ⟨ha, h, -⟩ := h
  obtain ⟨c, es, rfl, hc, hn⟩ := h.exists_head
  rw [List.append_assoc, List.append_assoc, skipBlanks_append ha, List.cons_append,
    skipBlanks_cons hc]
  intro he
  exact hn (List.cons.inj he).1

theorem ItemsText.skipBlanks_ne {vs : List JsonValue} (h : ItemsText vs cs) (rest ds : List Char) :
    skipBlanks (cs ++ rest) ≠ ']' :: ds := by
  cases h with
  | last h => exact h.skipBlanks_ne rest ds
  | more h =>
    rw [List.append_assoc]
    exact h.skipBlanks_ne _ ds

theorem KeyText.skipBlanks_ne {k : String} (h : KeyText k cs) (rest ds : List Char) :
    skipBlanks (cs ++ rest) ≠ '\x7d' :: ds := by
  obtain ⟨ha, -, -⟩ := h
  rw [List.append_assoc, List.append_assoc, skipBlanks_append ha, List.cons_append,
    skipBlanks_cons (by decide)]
  intro he
  exact absurd (List.cons.inj he).1 (by decide)

theorem MembersText.skipBlanks_ne {ms : List (Option String × JsonValue)}
    (h : MembersText ms cs) (rest ds : List Char) : skipBlanks (cs ++ rest) ≠ '\x7d' :: ds := by
  cases h with
  | last hk =>
    rw [List.append_assoc]
    exact hk.skipBlanks_ne _ ds
  | more hk =>
    rw [List.append_assoc, List.append_assoc]
    exact hk.skipBlanks_ne _ ds

theorem KeyText.text? {k : String} (h : KeyText k ds) (cs : List Char) :
    ∃ es b, skipBlanks (ds ++ ':' :: cs) = '"' :: es ∧ JsonValue.text? es = some (some k, b) ∧
      skipBlanks b = ':' :: cs := by
  obtain ⟨ha, hs, hb⟩ := h
  rename_i s a es b
  refine ⟨es ++ '"' :: (b ++ ':' :: cs), b ++ ':' :: cs, ?_, hs.text? _, ?_⟩
  · have hassoc : a ++ '"' :: es ++ '"' :: b ++ ':' :: cs =
        a ++ '"' :: (es ++ '"' :: (b ++ ':' :: cs)) := by simp
    rw [hassoc, ha.skipBlanks (by decide)]
  · exact hb.skipBlanks (by decide) cs

theorem KeyText.members?_last {k : String} {v : JsonValue} (h : KeyText k ds)
    (hv : value? fuel cs = some (v, b)) (hb : skipBlanks b = '\x7d' :: rest) :
    members? (fuel + 1) (ds ++ ':' :: cs) = some ([(some k, v)], rest) := by
  obtain ⟨es, b', hq, ht, hc⟩ := h.text? cs
  simp [members?, hq, ht, hc, hv, hb]

theorem KeyText.members?_more {k : String} {v : JsonValue} (h : KeyText k ds)
    (hv : value? fuel cs = some (v, b)) (hb : skipBlanks b = ',' :: rest) :
    members? (fuel + 1) (ds ++ ':' :: cs) =
      (members? fuel rest).map fun r => ((some k, v) :: r.1, r.2) := by
  obtain ⟨es, b', hq, ht, hc⟩ := h.text? cs
  simp [members?, hq, ht, hc, hv, hb]

/-- With this much fuel every text that is no longer than that is read to its end. The members of a
list need one more, as they are read a step further down than the list. -/
structure Reads (fuel : Nat) : Prop where
  value : ∀ {v : JsonValue} {cs rest : List Char}, ValueText v cs → cs.length ≤ fuel →
    Ends rest → value? fuel (cs ++ rest) = some (v, rest)
  items : ∀ {vs : List JsonValue} {cs : List Char}, ItemsText vs cs → cs.length < fuel →
    ∀ rest, items? fuel (cs ++ ']' :: rest) = some (vs, rest)
  members : ∀ {ms : List (Option String × JsonValue)} {cs : List Char}, MembersText ms cs →
    cs.length < fuel → ∀ rest, members? fuel (cs ++ '\x7d' :: rest) = some (ms, rest)

namespace Reads

theorem padded (ih : Reads fuel) {v : JsonValue} (h : PaddedText v cs) (hf : cs.length ≤ fuel)
    (hr : Ends rest) : ∃ b, Blank b ∧ value? fuel (cs ++ rest) = some (v, b ++ rest) := by
  obtain ⟨ha, h, hb⟩ := h
  rename_i a cs b
  have hl : cs.length ≤ fuel := by
    simp only [List.length_append] at hf
    omega
  have hskip : skipBlanks (a ++ cs ++ b ++ rest) = skipBlanks (cs ++ (b ++ rest)) := by
    rw [List.append_assoc, List.append_assoc, skipBlanks_append ha]
  refine ⟨b, hb, ?_⟩
  rw [← value?_skipBlanks, hskip, value?_skipBlanks]
  exact ih.value h hl (hb.ends_append hr)

theorem value_step (ih : Reads fuel) {v : JsonValue} (h : ValueText v cs)
    (hf : cs.length ≤ fuel + 1) (hr : Ends rest) :
    value? (fuel + 1) (cs ++ rest) = some (v, rest) := by
  cases h with
  | null => rfl
  | bool b => cases b <;> rfl
  | number h =>
    obtain ⟨c, ds, rfl, hc⟩ := h.exists_head
    rw [List.cons_append, value?_of_number hc]
    exact h.number? hr
  | @str s cs h =>
    have hv : value? (fuel + 1) ('"' :: (cs ++ '"' :: rest)) =
        (text? (cs ++ '"' :: rest)).map fun r => (.str r.1, r.2) := rfl
    rw [h.text?] at hv
    simpa using hv
  | @emptyArray b hb =>
    have hv := value?_bracket fuel (b ++ ']' :: rest)
    rw [hb.skipBlanks (by decide)] at hv
    simpa using hv
  | @array vs cs h =>
    have hl : cs.length < fuel := by
      simp only [List.cons_append, List.length_cons, List.length_append] at hf
      omega
    have hv := value?_of_items (fun ds => h.skipBlanks_ne (']' :: rest) ds) fuel
    rw [ih.items h hl] at hv
    simpa using hv
  | @emptyObject b hb =>
    have hv := value?_brace fuel (b ++ '\x7d' :: rest)
    rw [hb.skipBlanks (by decide)] at hv
    simpa using hv
  | @object ms cs h =>
    have hl : cs.length < fuel := by
      simp only [List.cons_append, List.length_cons, List.length_append] at hf
      omega
    have hv := value?_of_members (fun ds => h.skipBlanks_ne ('\x7d' :: rest) ds) fuel
    rw [ih.members h hl] at hv
    simpa using hv

theorem items_step (ih : Reads fuel) {vs : List JsonValue} (h : ItemsText vs cs)
    (hf : cs.length < fuel + 1) (rest : List Char) :
    items? (fuel + 1) (cs ++ ']' :: rest) = some (vs, rest) := by
  cases h with
  | last h =>
    have hr : Ends (']' :: rest) := ends_cons (by decide) rest
    obtain ⟨b, hb, hv⟩ := ih.padded h (by omega) hr
    simp [items?, hv, hb.skipBlanks (c := ']') (by decide)]
  | @more v vs cs ds h hds =>
    simp only [List.length_append, List.length_cons] at hf
    have hr : Ends (',' :: (ds ++ ']' :: rest)) := ends_cons (by decide) _
    obtain ⟨b, hb, hv⟩ := ih.padded h (by omega) hr
    have hi := ih.items hds (by omega) rest
    simp [items?, hv, hb.skipBlanks (c := ',') (by decide), hi]

theorem members_step (ih : Reads fuel) {ms : List (Option String × JsonValue)}
    (h : MembersText ms cs) (hf : cs.length < fuel + 1) (rest : List Char) :
    members? (fuel + 1) (cs ++ '\x7d' :: rest) = some (ms, rest) := by
  cases h with
  | @last k v ks cs hk h =>
    simp only [List.length_append, List.length_cons] at hf
    have hr : Ends ('\x7d' :: rest) := ends_cons (by decide) rest
    obtain ⟨b, hb, hv⟩ := ih.padded h (by omega) hr
    have hm := hk.members?_last hv (hb.skipBlanks (by decide) rest)
    simpa using hm
  | @more k v ms ks cs ds hk h hds =>
    simp only [List.length_append, List.length_cons] at hf
    have hr : Ends (',' :: (ds ++ '\x7d' :: rest)) := ends_cons (by decide) _
    obtain ⟨b, hb, hv⟩ := ih.padded h (by omega) hr
    have hm := hk.members?_more hv (hb.skipBlanks (by decide) (ds ++ '\x7d' :: rest))
    rw [ih.members hds (by omega) rest] at hm
    simpa using hm

end Reads

theorem ValueText.length_pos {v : JsonValue} (h : ValueText v cs) : 0 < cs.length := by
  obtain ⟨c, ds, rfl, -⟩ := h.exists_head
  exact Nat.zero_lt_succ _

theorem reads (fuel : Nat) : Reads fuel := by
  induction fuel with
  | zero =>
    refine ⟨fun h hf _ => ?_, fun _ hf => ?_, fun _ hf => ?_⟩
    · have := h.length_pos
      omega
    · omega
    · omega
  | succ fuel ih => exact ⟨ih.value_step, ih.items_step, ih.members_step⟩

theorem parse?_of_text {v : JsonValue} (h : PaddedText v cs) :
    parse? (String.ofList cs) = some v := by
  have hend : Ends [] := by simp [Ends]
  obtain ⟨b, hb, hv⟩ := (reads (2 * cs.length + 2)).padded h (by omega) hend
  have hs : skipBlanks b = [] := by
    rw [← List.append_nil b, skipBlanks_append hb]
    rfl
  rw [List.append_nil, List.append_nil] at hv
  simp [parse?, hv, hs]

end Turnstile.JsonValue
