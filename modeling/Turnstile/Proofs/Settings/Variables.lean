import Turnstile.Proofs.Number.Digits
import Turnstile.Proofs.Settings.Places

namespace Turnstile.Settings

open Number

namespace Environment

/-- The variable `name` has this text, and no other one sets a key. -/
structure OnlySets (env : Environment) (name text : String) : Prop where
  mem : (name, text) ∈ env.entries
  only : ∀ e ∈ env.entries, key? e.1 ≠ none → e = (name, text)

def readAs (text : String) : Value := .scalar (some origin) (scalarOf text)

def collect (t : Table String Value) (e : String × String) : Table String Value :=
  if e.2 = "" then t
  else
    match key? e.1 with
    | some k => t.put k (readAs e.2)
    | none => t

theorem mem_collect {t : Table String Value} {e : String × String} {x : String × Value}
    (h : x ∈ (collect t e).entries) :
    x ∈ t.entries ∨ e.2 ≠ "" ∧ key? e.1 = some x.1 ∧ x.2 = readAs e.2 := by
  unfold collect at h
  split at h
  · exact .inl h
  · rename_i hne
    split at h
    · rename_i k hk
      obtain rfl | h := Assoc.mem_upsert h
      · exact .inr ⟨hne, hk, rfl⟩
      · exact .inl h
    · exact .inl h

theorem get?_collect_ne_none {t : Table String Value} {e : String × String} {k : String}
    (h : t.get? k ≠ none ∨ e.2 ≠ "" ∧ key? e.1 = some k) : (collect t e).get? k ≠ none := by
  unfold collect
  split
  · rename_i hemp
    exact h.resolve_right fun h => h.1 hemp
  · split
    · rename_i j hj
      rw [Table.get?_put]
      split
      · simp
      · rename_i hjk
        exact h.resolve_right fun h => hjk (Option.some.inj (hj.symm.trans h.2))
    · rename_i hnone
      exact h.resolve_right fun h => by simp [hnone] at h

theorem mem_foldl_collect {es : List (String × String)} {t : Table String Value}
    {x : String × Value} (h : x ∈ (es.foldl collect t).entries) :
    x ∈ t.entries ∨ ∃ e ∈ es, e.2 ≠ "" ∧ key? e.1 = some x.1 ∧ x.2 = readAs e.2 := by
  induction es generalizing t with
  | nil => exact .inl h
  | cons e es ih =>
    rw [List.foldl_cons] at h
    obtain h | ⟨e', he', h⟩ := ih h
    · exact (mem_collect h).imp id fun h => ⟨e, List.mem_cons_self, h⟩
    · exact .inr ⟨e', List.mem_cons_of_mem e he', h⟩

theorem get?_foldl_collect_ne_none {es : List (String × String)} {t : Table String Value}
    {k : String} (h : t.get? k ≠ none ∨ ∃ e ∈ es, e.2 ≠ "" ∧ key? e.1 = some k) :
    (es.foldl collect t).get? k ≠ none := by
  induction es generalizing t with
  | nil => exact h.resolve_right (by simp)
  | cons e es ih =>
    rw [List.foldl_cons]
    apply ih
    obtain h | ⟨e', he', h⟩ := h
    · exact .inl (get?_collect_ne_none (.inl h))
    · obtain rfl | he' := List.mem_cons.mp he'
      · exact .inl (get?_collect_ne_none (.inr h))
      · exact .inr ⟨e', he', h⟩

theorem exists_of_mem_source {env : Environment} {x : String × Value} (h : x ∈ env.source) :
    ∃ e ∈ env.entries, e.2 ≠ "" ∧ key? e.1 = some x.1 ∧ x.2 = readAs e.2 :=
  (mem_foldl_collect h).resolve_left (by simp)

theorem exists_mem_source {env : Environment} {e : String × String} {k : String}
    (he : e ∈ env.entries) (hne : e.2 ≠ "") (hk : key? e.1 = some k) :
    ∃ v, (k, v) ∈ env.source := by
  have hsome : (env.entries.foldl collect {}).get? k ≠ none :=
    get?_foldl_collect_ne_none (.inr ⟨e, he, hne, hk⟩)
  obtain ⟨v, hv⟩ := Option.ne_none_iff_exists'.mp hsome
  exact ⟨v, Assoc.mem_of_lookup hv⟩

theorem OnlySets.eq_of_mem_source {env : Environment} {name text k : String}
    (h : env.OnlySets name text) (hk : key? name = some k) {x : String × Value}
    (hx : x ∈ env.source) : x = (k, readAs text) := by
  obtain ⟨e, he, -, hke, hve⟩ := exists_of_mem_source hx
  obtain rfl := h.only e he (by simp [hke])
  have hkx : k = x.1 := Option.some.inj (hk.symm.trans hke)
  rw [hkx, ← hve]

/-- Without a file, loading puts the one variable into its place among the defaults. -/
theorem OnlySets.exists_tree {env : Environment} {name text : String} {f : Field}
    (h : env.OnlySets name text) (hk : key? name = some f.dotted) (ht : text ≠ "")
    (hf : env.get? configPath = none) (w : Walk) (files : Files) :
    ∃ tree, load w files env = decode w tree ∧ tree.at? f.path = some (readAs text) ∧
      ∀ g, f ≠ g → tree.at? g.path = some (g.value {}) := by
  have hload : load w files env =
      decode w (combine w ({} : Settings).baseSource [] env.source) := by
    simp only [load, hf, toSource_of_isStorable isStorable_default]
    rfl
  have hfile : w.source .file [] = [] := List.eq_nil_iff_forall_not_mem.mpr fun e he => by
    obtain ⟨d, hd, -⟩ := Walk.mem_source.mp he
    cases hd
  have hsets : Sets (f.dotted, readAs text) f (readAs text) :=
    sets_dotted f (some origin) (scalarOf text)
  have honly : ∀ x ∈ w.source .environment env.source, x = (f.dotted, readAs text) := by
    intro x hx
    obtain ⟨d, hd, rfl⟩ := Walk.mem_source.mp hx
    rw [h.eq_of_mem_source hk hd, readAs, w.entry_scalar]
  refine ⟨_, hload, ?_, fun g hg => ?_⟩
  · obtain ⟨v, hv⟩ := exists_mem_source h.mem ht hk
    have hmem : w.entry .environment (f.dotted, v) ∈ w.source .environment env.source :=
      Walk.mem_source.mpr ⟨_, hv, rfl⟩
    refine at?_overlay_of_sets (fun x hx => .inr (honly x hx ▸ hsets)) ⟨_, hmem, ?_⟩ _
    exact honly _ hmem ▸ hsets
  · have hleaves : ∀ x ∈ w.source .environment env.source, Leaves x g := fun x hx =>
      honly x hx ▸ leaves_dotted hg (readAs text)
    rw [combine, hfile, at?_overlay_of_leaves hleaves]
    exact at?_baseTree w {} g

end Environment

theorem toList_asciiLower (s : String) : (asciiLower s).toList = s.toList.map Char.toLower := by
  simp [asciiLower]

theorem exists_head_of_truth {v : String} {b : Bool} (h : asciiLower v = toString b) :
    ∃ c cs, v.toList = c :: cs ∧ c.isDigit = false ∧ c ∉ ['+', '-', '.'] := by
  have hl : v.toList.map Char.toLower = (toString b).toList := by rw [← toList_asciiLower, h]
  obtain ⟨l, ls, hb, hd, hn⟩ : ∃ l ls, (toString b).toList = l :: ls ∧ l.isDigit = false ∧
      l ∉ ['+', '-', '.'] := by
    cases b with
    | false => exact ⟨'f', ['a', 'l', 's', 'e'], by decide, by decide, by decide⟩
    | true => exact ⟨'t', ['r', 'u', 'e'], by decide, by decide, by decide⟩
  rw [hb, List.map_eq_cons_iff] at hl
  obtain ⟨c, cs, hv, rfl, -⟩ := hl
  refine ⟨c, cs, hv, ?_, fun hc => hn ?_⟩
  · apply Bool.eq_false_iff.mpr
    intro hc
    rw [toLower_of_isDigit hc, hc] at hd
    cases hd
  · simp only [List.mem_cons, List.not_mem_nil, or_false] at hc
    rcases hc with rfl | rfl | rfl <;> decide

theorem splitSign_of_not_mem {c : Char} (hc : c ∉ ['+', '-', '.']) (cs : List Char) :
    splitSign (c :: cs) = (false, c :: cs) := by
  apply splitSign_cons
  · rintro rfl
    simp at hc
  · rintro rfl
    simp at hc

theorem int64?_of_truth {v : String} {b : Bool} (h : asciiLower v = toString b) :
    int64? v = none := by
  obtain ⟨c, cs, hv, hd, hn⟩ := exists_head_of_truth h
  simp [int64?, hv, splitSign_of_not_mem hn, natural?, hd]

theorem ofText?_of_truth {v : String} {b : Bool} (h : asciiLower v = toString b) :
    Binary64.ofText? v = none := by
  obtain ⟨c, cs, hv, hd, hn⟩ := exists_head_of_truth h
  have hl : String.ofList ((c :: cs).map Char.toLower) = toString b := by
    rw [← hv, ← h]
    rfl
  have hu : Binary64.unsigned? false (c :: cs) = none := by
    have hp : c ≠ '.' := fun he => hn (by simp [he])
    unfold Binary64.unsigned?
    simp only [spanDigits, List.takeWhile_cons, List.dropWhile_cons, hd, Bool.false_eq_true,
      ↓reduceIte]
    simp [hp]
  simp only [Binary64.ofText?, hv, splitSign_of_not_mem hn, hl]
  cases b <;> exact hu

namespace Environment

theorem scalarOf_of_truth {v : String} {b : Bool} (h : asciiLower v = toString b) :
    scalarOf v = .bool b := by
  unfold scalarOf
  rw [h]
  cases b <;> rfl

theorem scalarOf_of_not_truth {v : String} (h : ∀ b : Bool, asciiLower v ≠ toString b) :
    scalarOf v =
      match int64? v with
      | some i => .int i
      | none =>
        match Binary64.ofText? v with
        | some x => .float x
        | none => .str v := by
  unfold scalarOf
  split
  · rename_i ht
    exact (h true ht).elim
  · rename_i hf
    exact (h false hf).elim
  · rfl

end Environment

def nameVariable : String := "DISPATCH__DISPATCHER__NAME"

theorem load_name {env : Environment} {v n : String} (h : env.OnlySets nameVariable v) (hv : v ≠ "")
    (hf : env.get? configPath = none)
    (hn : (Environment.readAs v).text "dispatcher.name" = .ok n) (files : Files) (w : Walk) :
    load w files env = .ok { dispatcher := { name := n } } := by
  have hk : Environment.key? nameVariable = some Field.name.dotted := by decide
  obtain ⟨tree, hload, hname, hrest⟩ := h.exists_tree hk hv hf w files
  rw [hload]
  exact decode_of_places (hrest .lockTimeoutMs (by simp)) hname (hrest .slowTurnWarnMs (by simp))
    rfl hn rfl w

end Turnstile.Settings

namespace Turnstile

open Settings

/-- A dispatcher name from the environment is loaded as it stands there unless it reads as a truth
value or a number: then the name is that value, written plainly. -/
theorem name_from_environment (files : Files) {env : Environment} {v : String} (hv : v ≠ "")
    (h : env.OnlySets nameVariable v) (hf : env.get? configPath = none) :
    ∃ name, (∀ w, load w files env = .ok { dispatcher := { name := name } }) ∧
      (∀ b : Bool, asciiLower v = toString b → name = toString b) ∧
      (∀ i, Number.int64? v = some i → name = toString i) ∧
      (∀ x, Number.int64? v = none → Binary64.ofText? v = some x → name = x.text) ∧
      ((∀ b : Bool, asciiLower v ≠ toString b) → Number.int64? v = none →
        Binary64.ofText? v = none → name = v) := by
  have hload {n : String} (hn : (Environment.readAs v).text "dispatcher.name" = .ok n) (w : Walk) :
      load w files env = .ok { dispatcher := { name := n } } := load_name h hv hf hn files w
  rw [Environment.readAs] at hload
  -- a text is tried as a truth value, as a whole number and as a number, in this order
  by_cases ht : ∃ b : Bool, asciiLower v = toString b
  · obtain ⟨b, hb⟩ := ht
    rw [Environment.scalarOf_of_truth hb] at hload
    refine ⟨toString b, hload rfl, ?_, ?_, ?_, ?_⟩
    · rintro c hc
      rw [← hb, hc]
    · intro i hi
      rw [int64?_of_truth hb] at hi
      cases hi
    · intro x _ hx
      rw [ofText?_of_truth hb] at hx
      cases hx
    · intro hn
      exact (hn b hb).elim
  · have ht' : ∀ b : Bool, asciiLower v ≠ toString b := fun b hb => ht ⟨b, hb⟩
    rw [Environment.scalarOf_of_not_truth ht'] at hload
    cases hi : Number.int64? v with
    | some i =>
      rw [hi] at hload
      exact ⟨toString i, hload rfl, fun b hb => (ht' b hb).elim, by simp, by simp, by simp⟩
    | none =>
      rw [hi] at hload
      cases hx : Binary64.ofText? v with
      | some x =>
        rw [hx] at hload
        exact ⟨x.text, hload rfl, fun b hb => (ht' b hb).elim, by simp, by simp, by simp⟩
      | none =>
        rw [hx] at hload
        exact ⟨v, hload rfl, fun b hb => (ht' b hb).elim, by simp, by simp, by simp⟩

/-- A number with an exponent is written out. -/
theorem name_from_environment_exponent :
    let env : Environment := ⟨[("PATH", "/bin"), (nameVariable, "1e3")]⟩
    ("1e3" ≠ "" ∧ Environment.OnlySets env nameVariable "1e3" ∧ env.get? configPath = none) ∧
      ∀ w, load w {} env = .ok { dispatcher := { name := "1000" } } := by
  have hs : Environment.OnlySets ⟨[("PATH", "/bin"), (nameVariable, "1e3")]⟩ nameVariable "1e3" :=
    ⟨by simp, by decide +kernel⟩
  have hx : Binary64.ofText? "1e3" = some (.finite false 8796093022208000 (-43)) := by
    decide +kernel
  have hw : Binary64.text (.finite false 8796093022208000 (-43)) = "1000" := by decide +kernel
  obtain ⟨name, hl, -, -, hn, -⟩ := name_from_environment {} (by decide) hs (by decide)
  refine ⟨⟨by decide, hs, by decide⟩, fun w => ?_⟩
  rw [hl w, hn _ (by decide) hx, hw]

/-- A name of digits loses its leading zeros. -/
theorem name_loses_zeros :
    let env : Environment := ⟨[(nameVariable, "007")]⟩
    Environment.OnlySets env nameVariable "007" ∧ env.get? configPath = none ∧
      (∀ w, load w {} env = .ok { dispatcher := { name := "7" } }) ∧ "7" ≠ "007" := by
  have hs : Environment.OnlySets ⟨[(nameVariable, "007")]⟩ nameVariable "007" :=
    ⟨by simp, by simp⟩
  have hi : Environment.scalarOf "007" = .int 7 := by decide +kernel
  refine ⟨hs, by decide, load_name hs (by decide) (by decide) ?_ {}, by decide⟩
  rw [Environment.readAs, hi]
  rfl

end Turnstile
