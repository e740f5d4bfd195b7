import Mathlib.Data.List.TakeWhile
import Mathlib.Tactic.MkIffOfInductiveProp
import Turnstile.Proofs.Settings.Counts

namespace Turnstile.Settings

open Number

def Overlay.scalar? (p : Overlay) : Field → Option Scalar
  | .lockTimeoutMs => p.lockTimeoutMs.map fun n => .int n.toNat
  | .name => p.name.map .str
  | .slowTurnWarnMs => p.slowTurnWarnMs.map fun n => .int n.toNat

variable {s : Settings} {p q : Overlay} {f g : Field} {x : Option Scalar} {y : Scalar}
  {tree : Value} {source : Source} {k o t : String} {es : Toml.Entries} {env : Environment}
  {w : Walk}

theorem Overlay.scalar_apply (p : Overlay) (s : Settings) (f : Field) :
    f.scalar (p.apply s) = (p.scalar? f).getD (f.scalar s) := by
  obtain ⟨a, b, c⟩ := p
  cases f
  · cases a <;> rfl
  · cases b <;> rfl
  · cases c <;> rfl

theorem decode_of_scalars (h : ∀ f : Field, ∃ o, tree.at? f.path = some (.scalar o (f.scalar s)))
    (w : Walk) : decode w tree = .ok s := by
  obtain ⟨o, ht⟩ := h .lockTimeoutMs
  obtain ⟨o', hn⟩ := h .name
  obtain ⟨o'', hw⟩ := h .slowTurnWarnMs
  exact decode_of_places ht hn hw (by simp [Field.scalar, Value.count]) rfl
    (by simp [Field.scalar, Value.count]) w

def Gives (source : Source) (f : Field) (x : Option Scalar) : Prop :=
  ∃ o, (∀ e ∈ source, Leaves e f ∨ ∃ y ∈ x, Sets e f (.scalar o y)) ∧
    ∀ y ∈ x, ∃ e ∈ source, Sets e f (.scalar o y)

theorem Gives.at?_overlay (h : Gives source f x)
    (ht : ∃ o, tree.at? f.path = some (.scalar o y)) :
    ∃ o, (tree.overlay source).at? f.path = some (.scalar o (x.getD y)) := by
  obtain ⟨o, hall, hx⟩ := h
  cases x with
  | none =>
    rw [at?_overlay_of_leaves fun e he => (hall e he).resolve_right (by simp)]
    exact ht
  | some z =>
    refine ⟨o, at?_overlay_of_sets (fun e he => (hall e he).imp id ?_) (hx z rfl) tree⟩
    rintro ⟨y, hy, hset⟩
    obtain rfl := Option.some.inj hy
    exact hset

def scalarOfNode? : Toml.Node → Option Scalar
  | .str v | .date v => some (.str v)
  | .int i => some (.int i)
  | .float x => some (.float x)
  | .bool b => some (.bool b)
  | .array _ | .table .. | .tables _ => none

def isTable : Toml.Node → Bool
  | .table .. => true
  | _ => false

/-- What a document gives a field, at most once and in the table that the field belongs to. The
other keys at its top are bare ones and do not spell the name of that table. -/
@[mk_iff]
structure DocumentGives (es : Toml.Entries) (f : Field) (x : Option Scalar) : Prop where
  top : ∀ e ∈ es, e.1 = f.table ∧ isTable e.2 = true ∨
    e.1.toList.all Toml.isBareKey = true ∧ asciiLower e.1 ≠ f.table
  fields : ∀ e ∈ es, e.1 = f.table → ∀ d ∈ e.2.entries, Value.foldCase d.1 = f.key →
    ∃ y ∈ x, scalarOfNode? d.2 = some y
  present : ∀ y ∈ x, ∃ e ∈ es, e.1 = f.table ∧ ∃ d ∈ e.2.entries, Value.foldCase d.1 = f.key

instance (es : Toml.Entries) (f : Field) (x : Option Scalar) : Decidable (DocumentGives es f x) :=
  decidable_of_iff' _ (documentGives_iff es f x)

theorem isNameChar_of_isBareKey {c : Char} (h : Toml.isBareKey c = true) :
    Segment.isNameChar c = true := by
  simp only [Toml.isBareKey, Bool.or_eq_true, decide_eq_true_eq] at h
  simp only [Segment.isNameChar, Bool.or_eq_true, decide_eq_true_eq]
  tauto

theorem pathOf_of_bare (h : k.toList.all Toml.isBareKey = true) :
    Segment.pathOf k = [.key k] := by
  have hall : ∀ c ∈ k.toList, Segment.isNameChar c = true := fun c hc =>
    isNameChar_of_isBareKey (List.all_eq_true.mp h c hc)
  have htake : k.toList.takeWhile Segment.isNameChar = k.toList :=
    List.takeWhile_eq_self_iff.mpr hall
  have hdrop : k.toList.dropWhile Segment.isNameChar = [] := List.dropWhile_eq_nil_iff.mpr hall
  simp only [Segment.pathOf, Segment.path?, Segment.name?, htake, hdrop]
  split <;> simp [Segment.segments?]

theorem foldCase_of_bare (h : k.toList.all Toml.isBareKey = true) :
    Value.foldCase k = asciiLower k := by
  have hchar : ∀ c ∈ k.toList, Value.foldChar c = c.toLower := by
    intro c hc
    unfold Value.foldChar
    split
    · rename_i hkelvin
      subst hkelvin
      exact absurd (List.all_eq_true.mp h _ hc) (by decide)
    · rfl
  rw [Value.foldCase, asciiLower, List.map_congr_left hchar]

theorem ofEntries_eq (o : String) (es : Toml.Entries) :
    ofEntries o es = es.map fun e => (e.1, ofNode o e.2) := by
  induction es with
  | nil => rfl
  | cons e es ih => rw [ofEntries, ih, List.map_cons]

theorem ofNode_of_scalar {n : Toml.Node} (h : scalarOfNode? n = some y) (o : String) :
    ofNode o n = .scalar (some o) y := by
  cases n <;> simp_all [scalarOfNode?, ofNode]

theorem ofNode_of_isTable {n : Toml.Node} (h : isTable n = true) (o : String) :
    ofNode o n = .table (some o) (ofEntries o n.entries) := by
  cases n with
  | table kind t => rfl
  | _ => cases h

theorem DocumentGives.sets (h : DocumentGives es f x) {e : String × Toml.Node} (he : e ∈ es)
    (hf : e.1 = f.table) (hk : ∃ d ∈ e.2.entries, Value.foldCase d.1 = f.key) (hy : y ∈ x) :
    Sets (w.entry .file (e.1, ofNode o e.2)) f (.scalar (some o) y) := by
  have htable : isTable e.2 = true := by
    obtain ⟨d, hd, -⟩ := hk
    cases hn : e.2 with
    | table kind t => rfl
    | _ => simp [hn, Toml.Node.entries] at hd
  rw [hf, ofNode_of_isTable htable, ofEntries_eq]
  refine sets_table (fun d hd hkey => ?_) ?_ w .file
  · obtain ⟨d, hmem, rfl⟩ := List.mem_map.mp hd
    obtain ⟨z, hz, hnode⟩ := h.fields e he hf d hmem hkey
    obtain rfl : y = z := Option.mem_unique hy hz
    exact ofNode_of_scalar hnode o
  · obtain ⟨d, hmem, hkey⟩ := hk
    exact ⟨_, List.mem_map_of_mem hmem, hkey⟩

theorem DocumentGives.leaves_or_sets (h : DocumentGives es f x) {e : String × Toml.Node}
    (he : e ∈ es) :
    Leaves (w.entry .file (e.1, ofNode o e.2)) f ∨
      ∃ y ∈ x, Sets (w.entry .file (e.1, ofNode o e.2)) f (.scalar (some o) y) := by
  obtain ⟨hf, htable⟩ | ⟨hbare, hne⟩ := h.top e he
  · by_cases hk : ∃ d ∈ e.2.entries, Value.foldCase d.1 = f.key
    · obtain ⟨d, hd, hkey⟩ := hk
      obtain ⟨y, hy, -⟩ := h.fields e he hf d hd hkey
      exact .inr ⟨y, hy, h.sets he hf ⟨d, hd, hkey⟩ hy⟩
    · rw [hf, ofNode_of_isTable htable, ofEntries_eq]
      refine .inl (leaves_table (fun d hd hkey => hk ?_) w .file)
      obtain ⟨d, hmem, rfl⟩ := List.mem_map.mp hd
      exact ⟨d, hmem, hkey⟩
  · rw [← foldCase_of_bare hbare] at hne
    exact .inl (leaves_of_ne (pathOf_of_bare hbare) hne w .file)

theorem DocumentGives.gives (h : DocumentGives es f x) (o : String) (w : Walk) :
    Gives (w.source .file (ofEntries o es)) f x := by
  rw [ofEntries_eq]
  refine ⟨some o, fun v hv => ?_, fun y hy => ?_⟩
  · obtain ⟨d, hd, rfl⟩ := Walk.mem_source.mp hv
    obtain ⟨e, he, rfl⟩ := List.mem_map.mp hd
    exact h.leaves_or_sets he
  · obtain ⟨e, he, hf, hk⟩ := h.present y hy
    exact ⟨_, Walk.mem_source.mpr ⟨_, List.mem_map_of_mem he, rfl⟩, h.sets he hf hk hy⟩

namespace Environment

inductive TextOf : Scalar → String → Prop where
  | count {t : String} {n : Nat} (hne : t ≠ "") (hd : ∀ c ∈ t.toList, c.isDigit = true)
      (hn : Nat.ofDigitChars 10 t.toList 0 = n) (hlt : n < signedLimit) : TextOf (.int n) t
  | name {v : String} (hne : v ≠ "") (ht : ∀ b : Bool, asciiLower v ≠ toString b)
      (hi : int64? v = none) (hf : Binary64.ofText? v = none) : TextOf (.str v) v

/-- What an environment gives a field. The variable may be spelled in any case, and where it is
empty it gives nothing. -/
structure VariableGives (env : Environment) (f : Field) (x : Option Scalar) : Prop where
  texts : ∀ e ∈ env.entries, Value.foldCase e.1 = Value.foldCase f.variable →
    e.2 = "" ∨ ∃ y ∈ x, TextOf y e.2
  present : ∀ y ∈ x, ∃ e ∈ env.entries, Value.foldCase e.1 = Value.foldCase f.variable ∧ e.2 ≠ ""

/-- An environment that sets just these fields. The names of its other variables do not begin with
the marker. -/
structure Lays (env : Environment) (q : Overlay) : Prop where
  fields : ∀ f, env.VariableGives f (q.scalar? f)
  others : ∀ e ∈ env.entries, (∃ f : Field, Value.foldCase e.1 = Value.foldCase f.variable) ∨
    ¬ marker <+: (Value.foldCase e.1).toList

theorem key?_eq_none (h : ¬ marker <+: (Value.foldCase k).toList) : key? k = none := by
  have htake : ¬ (Value.foldCase k).toList.take marker.length = marker := fun he =>
    h (List.prefix_iff_eq_take.mpr he.symm)
  simp only [key?, htake, ↓reduceIte]

theorem key?_of_foldCase (h : Value.foldCase k = Value.foldCase f.variable) :
    key? k = some f.dotted := by
  rw [← f.key?_variable, key?, key?, h]

theorem readAs_of_textOf (h : TextOf y t) : readAs t = .scalar (some origin) y := by
  cases h with
  | count hne hd hn hlt =>
    subst hn
    rw [readAs, scalarOf_of_digits hne hd, if_pos hlt]
  | name hne ht hi hf => rw [readAs, scalarOf_of_not_truth ht, hi, hf]

theorem VariableGives.sets {e : String × String} (h : env.VariableGives f x) (he : e ∈ env.entries)
    (hne : e.2 ≠ "") (hk : Value.foldCase e.1 = Value.foldCase f.variable) :
    ∃ y ∈ x, Sets (f.dotted, readAs e.2) f (.scalar (some origin) y) := by
  obtain hemp | ⟨y, hy, htext⟩ := h.texts e he hk
  · exact (hne hemp).elim
  · rw [readAs_of_textOf htext]
    exact ⟨y, hy, sets_dotted f (some origin) y⟩

theorem Lays.exists_field (h : env.Lays q) {e : String × String} (he : e ∈ env.entries)
    (hk : key? e.1 = some k) :
    ∃ g : Field, Value.foldCase e.1 = Value.foldCase g.variable ∧ g.dotted = k := by
  obtain ⟨g, hg⟩ | hother := h.others e he
  · exact ⟨g, hg, Option.some.inj ((key?_of_foldCase hg).symm.trans hk)⟩
  · rw [key?_eq_none hother] at hk
    cases hk

theorem Lays.gives_source (h : env.Lays q) (f : Field) (w : Walk) :
    Gives (w.source .environment env.source) f (q.scalar? f) := by
  have hentry {e : String × String} {k : String} :
      w.entry .environment (k, readAs e.2) = (k, readAs e.2) := w.entry_scalar .environment _ _ _
  refine ⟨some origin, fun v hv => ?_, fun y hy => ?_⟩
  · obtain ⟨d, hd, rfl⟩ := Walk.mem_source.mp hv
    obtain ⟨e, he, hne, hk, hread⟩ := exists_of_mem_source hd
    obtain ⟨g, hg, hdot⟩ := h.exists_field he hk
    obtain rfl : (g.dotted, readAs e.2) = d := Prod.ext hdot hread.symm
    rw [hentry]
    by_cases hgf : g = f
    · subst g
      exact .inr ((h.fields f).sets he hne hg)
    · exact .inl (leaves_dotted hgf _)
  · obtain ⟨e, he, hfold, hne⟩ := (h.fields f).present y hy
    obtain ⟨v, hv⟩ := exists_mem_source he hne (key?_of_foldCase hfold)
    obtain ⟨e', he', hne', hk, hread⟩ := exists_of_mem_source hv
    obtain ⟨g, hg, hdot⟩ := h.exists_field he' hk
    obtain rfl : g = f := Field.dotted_inj hdot
    obtain ⟨z, hz, hset⟩ := (h.fields g).sets he' hne' hg
    obtain rfl : y = z := Option.mem_unique hy hz
    obtain rfl : v = readAs e'.2 := hread
    exact ⟨_, Walk.mem_source.mpr ⟨_, hv, hentry⟩, hset⟩

end Environment

end Turnstile.Settings

namespace Turnstile

open Settings

/-- Each field has the value that the environment gives it, else that of the file, else that of the
settings over which both are laid. -/
theorem environment_over_file_over_base {s : Settings} (hs : s.IsStorable) {files : Files}
    {path text : String} {found : SettingsFile} {es : Toml.Entries}
    (hfile : files.locate path = .ok found) (htext : found.content.text? = some text)
    (hparse : Toml.parse? text = some es) {p q : Overlay}
    (hp : ∀ f, DocumentGives es f (p.scalar? f)) {env : Environment} (hq : env.Lays q) (w : Walk) :
    override w s files env path = .ok (q.apply (p.apply s)) := by
  have hread : found.source = .ok (ofEntries found.path es) := by
    simp only [SettingsFile.source, htext, hparse]
  have hsource : files.source path = .ok (ofEntries found.path es) := by
    rw [Files.source, hfile]
    exact hread
  rw [override_eq_decode hs hsource]
  refine decode_of_scalars (fun f => ?_) w
  rw [Overlay.scalar_apply, Overlay.scalar_apply]
  have hbase : ∃ o, (baseTree w s).at? f.path = some (.scalar o (f.scalar s)) :=
    ⟨none, at?_baseTree w s f⟩
  exact (hq.gives_source f w).at?_overlay (((hp f).gives found.path w).at?_overlay hbase)

/-- The environment has the timeout, the file has it and the name, and neither has the other
count. -/
theorem environment_over_file_over_base_each :
    let s : Settings := { watchdog := ⟨3⟩, dispatcher := ⟨"base", 4⟩ }
    let text := "a-b = [1]\n[watchdog]\nlock_timeout_ms = 5\n[dispatcher]\nname = \"file\""
    let found : SettingsFile := ⟨"o.toml", .text text⟩
    let files := ({} : Files).write "o.toml" (.text text)
    let p : Overlay := ⟨some 5, some "file", none⟩
    let env : Environment := ⟨[("PATH", "/bin"), ("Dispatch__Watchdog__Lock_Timeout_Ms", "09"),
      ("DISPATCH__DISPATCHER__SLOW_TURN_WARN_MS", "")]⟩
    let q : Overlay := ⟨some 9, none, none⟩
    (s.IsStorable ∧ files.locate "o" = .ok found ∧ found.content.text? = some text ∧
      (∃ es, Toml.parse? text = some es ∧ ∀ f, DocumentGives es f (p.scalar? f)) ∧ env.Lays q) ∧
    ∀ w, override w s files env "o" = .ok { watchdog := ⟨9⟩, dispatcher := ⟨"file", 4⟩ } := by
  intro s text found files p env q
  have hs : s.IsStorable := by
    unfold IsStorable
    decide
  have hfile : files.locate "o" = .ok found := by rfl
  obtain ⟨es, hparse⟩ : ∃ es, Toml.parse? text = some es :=
    Option.isSome_iff_exists.mp (by decide +kernel +zetaReduce)
  have hp (f : Field) : DocumentGives es f (p.scalar? f) := by
    obtain rfl : (Toml.parse? text).getD [] = es := by rw [hparse, Option.getD_some]
    cases f <;> decide +kernel +zetaReduce
  have hvar (f : Field) : env.VariableGives f (q.scalar? f) := by
    have h9 : Environment.TextOf (.int 9) "09" :=
      .count (by decide) (List.all_eq_true.mp (by decide)) (by decide +kernel : _ = 9) (by decide)
    refine ⟨fun e he hk => ?_, fun y hy => ?_⟩
    · simp only [env, List.mem_cons, List.not_mem_nil, or_false] at he
      obtain rfl | rfl | rfl := he
      · cases f <;> exact absurd hk (by decide +kernel)
      · cases f with
        | lockTimeoutMs => exact .inr ⟨_, rfl, h9⟩
        | name | slowTurnWarnMs => exact absurd hk (by decide +kernel)
      · exact .inl rfl
    · cases f with
      | lockTimeoutMs => exact ⟨_, .tail _ (.head _), by decide +kernel, by decide⟩
      | name | slowTurnWarnMs => cases hy
  have hq : env.Lays q := by
    refine ⟨hvar, fun e he => ?_⟩
    simp only [env, List.mem_cons, List.not_mem_nil, or_false] at he
    obtain rfl | rfl | rfl := he
    · exact .inr (by decide +kernel)
    · exact .inl ⟨.lockTimeoutMs, by decide +kernel⟩
    · exact .inl ⟨.slowTurnWarnMs, by decide +kernel⟩
  exact ⟨⟨hs, hfile, rfl, ⟨es, hparse, hp⟩, hq⟩,
    environment_over_file_over_base hs hfile rfl hparse hp hq⟩

end Turnstile
