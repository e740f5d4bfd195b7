import Turnstile.Proofs.Settings.Override

namespace Turnstile.Settings

namespace Value

variable {j k : String} {o : Option String} {x : Scalar} {es : List (String × Value)}

def at? : Value → List String → Option Value
  | v, [] => some v
  | v, k :: path => (v.entries.lookup k).bind fun w => w.at? path

theorem entries_update (v : Value) (k : String) (f : Option Value → Value) :
    (v.update k f).entries = Assoc.upsert k f v.entries := by
  cases v <;> rfl

theorem lookup_setKey_of_ne (h : foldCase k ≠ j) (root v : Value) :
    (root.setKey k v).entries.lookup j = root.entries.lookup j := by
  cases v <;> simp [setKey, entries_update, Assoc.lookup_upsert, h]

theorem lookup_setKey_scalar (h : foldCase k = j) (root : Value) (o : Option String) (x : Scalar) :
    (root.setKey k (.scalar o x)).entries.lookup j = some (.scalar o x) := by
  simp [setKey, entries_update, Assoc.lookup_upsert, h]

theorem lookup_setKey_table (h : foldCase k = j) (root : Value) (o : Option String)
    (es : List (String × Value)) :
    (root.setKey k (.table o es)).entries.lookup j =
      some (mergeInto ((root.entries.lookup j).getD emptyTable) es) := by
  simp [setKey, entries_update, Assoc.lookup_upsert, h]

theorem lookup_mergeInto_of_ne (h : ∀ e ∈ es, foldCase e.1 ≠ j) (target : Value) :
    (mergeInto target es).entries.lookup j = target.entries.lookup j := by
  induction es generalizing target with
  | nil => rw [mergeInto]
  | cons e es ih =>
    obtain ⟨he, hes⟩ := List.forall_mem_cons.mp h
    rw [mergeInto, ih hes, lookup_setKey_of_ne he]

/-- Where a key is set to one value only, it has that value in the end. -/
theorem lookup_mergeInto_of_mem (h : ∀ e ∈ es, foldCase e.1 = j → e.2 = .scalar o x)
    (hj : ∃ e ∈ es, foldCase e.1 = j) (target : Value) :
    (mergeInto target es).entries.lookup j = some (.scalar o x) := by
  induction es generalizing target with
  | nil => simp at hj
  | cons e es ih =>
    obtain ⟨he, hes⟩ := List.forall_mem_cons.mp h
    rw [mergeInto]
    by_cases hlater : ∃ e ∈ es, foldCase e.1 = j
    · exact ih hes hlater _
    · have hkey : foldCase e.1 = j := by
        obtain ⟨e', he', hk⟩ := hj
        obtain rfl | he' := List.mem_cons.mp he'
        · exact hk
        · exact (hlater ⟨e', he', hk⟩).elim
      rw [lookup_mergeInto_of_ne fun e' he' hk => hlater ⟨e', he', hk⟩, he hkey]
      exact lookup_setKey_scalar hkey target o x

end Value

namespace Field

def table : Field → String
  | lockTimeoutMs => "watchdog"
  | name | slowTurnWarnMs => "dispatcher"

def key : Field → String
  | lockTimeoutMs => "lock_timeout_ms"
  | name => "name"
  | slowTurnWarnMs => "slow_turn_warn_ms"

def path (f : Field) : List String := [f.table, f.key]

def dotted (f : Field) : String := f.table ++ "." ++ f.key

theorem at?_path (f : Field) : at? f.path = some f := by
  cases f <;> rfl

theorem path_inj {f g : Field} (h : f.path = g.path) : f = g := by
  have hat := congrArg at? h
  rwa [at?_path, at?_path, Option.some.injEq] at hat

theorem dotted_inj {f g : Field} (h : f.dotted = g.dotted) : f = g := by
  cases f <;> cases g <;> first | rfl | exact absurd h (by decide)

theorem foldCase_table (f : Field) : Value.foldCase f.table = f.table := by
  cases f <;> decide

theorem foldCase_key (f : Field) : Value.foldCase f.key = f.key := by
  cases f <;> decide

theorem pathOf_table (f : Field) : Segment.pathOf f.table = [.key f.table] := by
  cases f <;> decide

theorem pathOf_dotted (f : Field) : Segment.pathOf f.dotted = [.key f.table, .key f.key] := by
  cases f <;> decide

end Field

/-- An entry of a source that does not change what stands in the place of the field. -/
def Leaves (e : String × Value) (f : Field) : Prop :=
  ∀ tree : Value, (tree.setPath (Segment.pathOf e.1) e.2).at? f.path = tree.at? f.path

def Sets (e : String × Value) (f : Field) (v : Value) : Prop :=
  ∀ tree : Value, (tree.setPath (Segment.pathOf e.1) e.2).at? f.path = some v

variable {f g : Field} {source : Source} {v : Value} {k : String} {o : Option String} {x : Scalar}
  {es : List (String × Value)}

theorem at?_overlay_of_leaves (h : ∀ e ∈ source, Leaves e f) (tree : Value) :
    (tree.overlay source).at? f.path = tree.at? f.path := by
  induction source generalizing tree with
  | nil => rfl
  | cons e source ih =>
    obtain ⟨he, hes⟩ := List.forall_mem_cons.mp h
    exact (ih hes _).trans (he tree)

theorem at?_overlay_of_sets (h : ∀ e ∈ source, Leaves e f ∨ Sets e f v)
    (hv : ∃ e ∈ source, Sets e f v) (tree : Value) :
    (tree.overlay source).at? f.path = some v := by
  induction source generalizing tree with
  | nil => simp at hv
  | cons e source ih =>
    obtain ⟨he, hes⟩ := List.forall_mem_cons.mp h
    by_cases hlater : ∃ e ∈ source, Sets e f v
    · exact ih hes hlater _
    · have hset : Sets e f v := by
        obtain ⟨e', he', hv⟩ := hv
        obtain rfl | he' := List.mem_cons.mp he'
        · exact hv
        · exact (hlater ⟨e', he', hv⟩).elim
      have hleave : ∀ e ∈ source, Leaves e f := fun e' he' =>
        (hes e' he').resolve_right fun hv => hlater ⟨e', he', hv⟩
      exact (at?_overlay_of_leaves hleave _).trans (hset tree)

theorem Walk.entries_eq_map (w : Walk) (layer : Layer) (path : List String)
    (es : List (String × Value)) :
    w.entries layer path es = es.map fun e => (e.1, w.value layer (path ++ [e.1]) e.2) := by
  induction es with
  | nil => rfl
  | cons e es ih =>
    rw [List.map_cons, ← ih]
    rfl

theorem Walk.mem_source {w : Walk} {layer : Layer} {e : String × Value} :
    e ∈ w.source layer source ↔ ∃ d ∈ source, w.entry layer d = e := by
  rw [Walk.source, List.mem_map]
  exact exists_congr fun d => and_congr_left fun _ => (w.visit_perm _ _ _ source).mem_iff

theorem Walk.entry_scalar (w : Walk) (layer : Layer) (k : String) (o : Option String) (x : Scalar) :
    w.entry layer (k, .scalar o x) = (k, .scalar o x) := by
  unfold Walk.entry
  split <;> rfl

theorem Walk.exists_entry_table (w : Walk) (layer : Layer) (f : Field) (o : Option String)
    (es : List (String × Value)) :
    ∃ ds, w.entry layer (f.table, .table o es) = (f.table, .table o ds) ∧
      ∀ d, d ∈ ds ↔ ∃ e ∈ es, (e.1, w.value layer ([f.table] ++ [e.1]) e.2) = d := by
  refine ⟨w.visit layer [f.table] Prod.fst (w.entries layer [f.table] es), ?_, fun d => ?_⟩
  · simp [Walk.entry, f.pathOf_table, Segment.endsInKey, Walk.value]
  · rw [(w.visit_perm _ _ _ _).mem_iff, Walk.entries_eq_map, List.mem_map]

theorem leaves_of_ne (hp : Segment.pathOf k = [.key k]) (hk : Value.foldCase k ≠ f.table)
    (w : Walk) (layer : Layer) : Leaves (w.entry layer (k, v)) f := by
  have hany (v : Value) : Leaves (k, v) f := by
    intro tree
    simp [hp, Value.setPath, Field.path, Value.at?, Value.lookup_setKey_of_ne hk]
  unfold Walk.entry
  split <;> exact hany _

theorem lookup_getD_entries (k j : String) (d : Value) (hd : d.entries = []) (tree : Value) :
    ((tree.entries.lookup k).getD d).entries.lookup j = tree.at? [k, j] := by
  cases hk : tree.entries.lookup k with
  | none => simp [Value.at?, hk, hd]
  | some w => cases hj : w.entries.lookup j <;> simp [Value.at?, hk, hj]

theorem at?_setKey_table (f : Field) (o : Option String) (es : List (String × Value))
    (tree : Value) :
    (tree.setPath (Segment.pathOf f.table) (.table o es)).at? f.path = (Value.mergeInto
      ((tree.entries.lookup f.table).getD .emptyTable) es).entries.lookup f.key := by
  simp [f.pathOf_table, Value.setPath, Field.path, Value.at?,
    Value.lookup_setKey_table f.foldCase_table]

theorem leaves_table (h : ∀ e ∈ es, Value.foldCase e.1 ≠ f.key) (w : Walk) (layer : Layer) :
    Leaves (w.entry layer (f.table, .table o es)) f := by
  obtain ⟨ds, hds, hmem⟩ := w.exists_entry_table layer f o es
  have hne : ∀ d ∈ ds, Value.foldCase d.1 ≠ f.key := by
    intro d hd
    obtain ⟨e, he, rfl⟩ := (hmem d).mp hd
    exact h e he
  intro tree
  rw [hds, at?_setKey_table, Value.lookup_mergeInto_of_ne hne]
  exact lookup_getD_entries f.table f.key .emptyTable rfl tree

theorem sets_table (h : ∀ e ∈ es, Value.foldCase e.1 = f.key → e.2 = .scalar o x)
    (hk : ∃ e ∈ es, Value.foldCase e.1 = f.key) (w : Walk) (layer : Layer) :
    Sets (w.entry layer (f.table, .table o es)) f (.scalar o x) := by
  obtain ⟨ds, hds, hmem⟩ := w.exists_entry_table layer f o es
  have hall : ∀ d ∈ ds, Value.foldCase d.1 = f.key → d.2 = .scalar o x := by
    intro d hd hkey
    obtain ⟨e, he, rfl⟩ := (hmem d).mp hd
    rw [h e he hkey]
    rfl
  have hsome : ∃ d ∈ ds, Value.foldCase d.1 = f.key := by
    obtain ⟨e, he, hkey⟩ := hk
    exact ⟨_, (hmem _).mpr ⟨e, he, rfl⟩, hkey⟩
  intro tree
  rw [hds, at?_setKey_table]
  exact Value.lookup_mergeInto_of_mem hall hsome _

theorem sets_dotted (f : Field) (o : Option String) (x : Scalar) :
    Sets (f.dotted, .scalar o x) f (.scalar o x) := by
  intro tree
  simp [f.pathOf_dotted, Value.setPath, Field.path, Value.at?, f.foldCase_table,
    Value.entries_update, Assoc.lookup_upsert, Value.lookup_setKey_scalar f.foldCase_key]

theorem leaves_dotted (hne : g ≠ f) (v : Value) : Leaves (g.dotted, v) f := by
  intro tree
  by_cases ht : g.table = f.table
  · have hk : Value.foldCase g.key ≠ f.key := by
      rw [g.foldCase_key]
      rintro hk
      exact hne (Field.path_inj (by rw [Field.path, Field.path, ht, hk]))
    have hget := lookup_getD_entries f.table f.key .nil rfl tree
    simp only [Field.path] at hget ⊢
    rw [← hget]
    simp [g.pathOf_dotted, Value.setPath, Value.at?, ht, f.foldCase_table,
      Value.entries_update, Assoc.lookup_upsert, Value.lookup_setKey_of_ne hk]
  · simp [g.pathOf_dotted, Value.setPath, Field.path, Value.at?, g.foldCase_table, ht,
      Value.entries_update, Assoc.lookup_upsert]

theorem exists_table {j : String} {tree v : Value} (h : tree.at? [k, j] = some v) :
    ∃ o es, tree.entries.lookup k = some (Value.table o es) ∧ es.lookup j = some v := by
  obtain ⟨w, hk, hw⟩ := Option.bind_eq_some_iff.mp h
  obtain ⟨u, hj, hu⟩ := Option.bind_eq_some_iff.mp hw
  obtain rfl : u = v := Option.some.inj hu
  cases w with
  | table o es => exact ⟨o, es, hk, hj⟩
  | scalar | array => simp [Value.entries] at hj

/-- A tree is decoded from what stands in the places of the three fields. -/
theorem decode_of_places {tree timeout name warn : Value}
    (ht : tree.at? Field.lockTimeoutMs.path = some timeout)
    (hn : tree.at? Field.name.path = some name)
    (hu : tree.at? Field.slowTurnWarnMs.path = some warn) {t u : UInt64} {n : String}
    (htimeout : timeout.count "watchdog.lock_timeout_ms" = .ok t)
    (hname : name.text "dispatcher.name" = .ok n)
    (hwarn : warn.count "dispatcher.slow_turn_warn_ms" = .ok u) (w : Walk) :
    decode w tree = .ok ⟨⟨t⟩, ⟨n, u⟩⟩ := by
  obtain ⟨o, es, hes, ht⟩ : ∃ o es, tree.entries.lookup "watchdog" = some (.table o es) ∧
      es.lookup "lock_timeout_ms" = some timeout := exists_table ht
  obtain ⟨o', es', hes', hn⟩ : ∃ o es, tree.entries.lookup "dispatcher" = some (.table o es) ∧
      es.lookup "name" = some name := exists_table hn
  obtain ⟨o'', es'', hes'', hu⟩ : ∃ o es, tree.entries.lookup "dispatcher" = some (.table o es) ∧
      es.lookup "slow_turn_warn_ms" = some warn := exists_table hu
  obtain ⟨rfl, rfl⟩ : o' = o'' ∧ es' = es'' := by simpa using hes'.symm.trans hes''
  have hwatchdog : (watchdogSection .listed).readFrom (some (.table o es)) "watchdog" =
      .ok fun s => { s with watchdog := ⟨t⟩ } := by
    change Except.map _ (Member.inOrder [lockTimeout.readFrom (es.lookup "lock_timeout_ms")
      "watchdog.lock_timeout_ms"] {}) = _
    simp only [ht, Member.readFrom, lockTimeout, Member.field, htimeout]
    rfl
  have hdispatcher : (dispatcherSection .listed).readFrom (some (.table o' es')) "dispatcher" =
      .ok fun s => { s with dispatcher := ⟨n, u⟩ } := by
    change Except.map _ (Member.inOrder [dispatcherName.readFrom (es'.lookup "name")
      "dispatcher.name", slowTurnWarn.readFrom (es'.lookup "slow_turn_warn_ms")
      "dispatcher.slow_turn_warn_ms"] {}) = _
    simp only [hn, hu, Member.readFrom, dispatcherName, slowTurnWarn, Member.field, hname, hwarn]
    rfl
  have hlisted : decode .listed tree = .ok ⟨⟨t⟩, ⟨n, u⟩⟩ := by
    change Member.inOrder (sectionChanges .listed tree) {} = _
    rw [sectionChanges, hes, hes', hwatchdog, hdispatcher]
    rfl
  rw [decode_eq_of_faults w .listed (by rw [faults_eq_nil_of_ok hlisted]; decide), hlisted]

theorem at?_baseTree (w : Walk) (s : Settings) (f : Field) :
    (baseTree w s).at? f.path = some (f.value s) := by
  obtain ⟨es, ds, hes, hds, heq⟩ := exists_baseTree w
  rw [heq]
  rcases List.perm_pair.mp hes with rfl | rfl <;> rcases List.perm_pair.mp hds with rfl | rfl <;>
    cases f <;> rfl

end Turnstile.Settings
