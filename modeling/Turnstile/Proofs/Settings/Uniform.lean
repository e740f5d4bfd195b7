import Turnstile.Settings.Load

namespace Turnstile.Settings

inductive Field where
  | lockTimeoutMs
  | name
  | slowTurnWarnMs
deriving DecidableEq, Repr

namespace Field

def scalar (s : Settings) : Field → Scalar
  | lockTimeoutMs => .int s.watchdog.lockTimeoutMs.toNat
  | name => .str s.dispatcher.name
  | slowTurnWarnMs => .int s.dispatcher.slowTurnWarnMs.toNat

def value (f : Field) (s : Settings) : Value := .scalar none (f.scalar s)

def at? : List String → Option Field
  | ["watchdog", "lock_timeout_ms"] => some lockTimeoutMs
  | ["dispatcher", "name"] => some name
  | ["dispatcher", "slow_turn_warn_ms"] => some slowTurnWarnMs
  | _ => none

end Field

def fill (s : Settings) (es : List (String × (Settings → Value))) : List (String × Value) :=
  es.map fun e => (e.1, e.2 s)

/-- What a change does to settings that differ from the base ones by `app`: it makes the same change
to the difference whatever the base settings are, or it cannot be read. -/
def UniformChange {α P : Type} (app : P → Settings → α)
    (change : Settings → Except SettingsError (α → α)) : Prop :=
  ∃ r : Except SettingsError (P → P), ∀ s p,
    (change s).map (· (app p s)) = r.map fun f => app (f p) s

namespace UniformChange

variable {α β P : Type} {app : P → Settings → α}

theorem exists_inOrder {change : β → Settings → Except SettingsError (α → α)} {bs : List β}
    (h : ∀ b ∈ bs, UniformChange app (change b)) (p : P) :
    ∃ r : Except SettingsError P, ∀ s,
      Member.inOrder (bs.map fun b => change b s) (app p s) = r.map fun q => app q s := by
  induction bs generalizing p with
  | nil => exact ⟨.ok p, fun s => rfl⟩
  | cons b bs ih =>
    obtain ⟨⟨r, hr⟩, hbs⟩ := List.forall_mem_cons.mp h
    cases r with
    | error e =>
      refine ⟨.error e, fun s => ?_⟩
      rw [List.map_cons, Member.inOrder_cons, hr]
      rfl
    | ok f =>
      obtain ⟨q, hq⟩ := ih hbs (f p)
      refine ⟨q, fun s => ?_⟩
      rw [List.map_cons, Member.inOrder_cons, hr, ← hq]
      rfl

theorem readFrom {m : Member α} {u : Option (Settings → Value)} {key : String}
    (h : ∀ t ∈ u, UniformChange app fun s => m.read (t s) key) :
    UniformChange app fun s => m.readFrom (u.map fun t => t s) key := by
  cases u with
  | none => exact ⟨.ok id, fun s p => rfl⟩
  | some t => exact h t rfl

end UniformChange

/-- A tree that depends on the base settings in one way only: where a field of theirs stands in its
place, it has the value that they give it. The rest is the same for all. -/
inductive Uniform : (List String → Option Field) → (Settings → Value) → Prop where
  | fixed {place : List String → Option Field} (v : Value) : Uniform place fun _ => v
  | blank {place : List String → Option Field} {f : Field} (hf : place [] = some f) :
      Uniform place f.value
  | table {place : List String → Option Field} (o : Option String)
      (es : List (String × (Settings → Value)))
      (hes : ∀ e ∈ es, Uniform (fun p => place (e.1 :: p)) e.2) :
      Uniform place fun s => .table o (fill s es)

namespace Uniform

variable {place : List String → Option Field} {t : Settings → Value}
  {es : List (String × (Settings → Value))} {f : Settings → Option Value → Value} {k : String}

theorem exists_upsert (hes : ∀ e ∈ es, Uniform (fun p => place (e.1 :: p)) e.2)
    (hn : Uniform (fun p => place (k :: p)) fun s => f s none)
    (hs : ∀ u, Uniform (fun p => place (k :: p)) u →
      Uniform (fun p => place (k :: p)) fun s => f s (some (u s))) :
    ∃ es', (∀ s, Assoc.upsert k (f s) (fill s es) = fill s es') ∧
      ∀ e ∈ es', Uniform (fun p => place (e.1 :: p)) e.2 := by
  induction es with
  | nil =>
    refine ⟨[(k, fun s => f s none)], fun s => rfl, fun e he => ?_⟩
    obtain rfl := List.mem_singleton.mp he
    exact hn
  | cons e es ih =>
    obtain ⟨he, hes⟩ := List.forall_mem_cons.mp hes
    by_cases hk : e.1 = k
    · subst k
      refine ⟨(e.1, fun s => f s (some (e.2 s))) :: es, fun s => ?_, ?_⟩
      · simp [fill, Assoc.upsert]
      · exact List.forall_mem_cons.mpr ⟨hs e.2 he, hes⟩
    · obtain ⟨es', heq, hes'⟩ := ih hes
      refine ⟨e :: es', fun s => ?_, List.forall_mem_cons.mpr ⟨he, hes'⟩⟩
      have hs' := heq s
      simp only [fill] at hs'
      simp [fill, Assoc.upsert, hk, hs']

theorem update_table (o : Option String) (hes : ∀ e ∈ es, Uniform (fun p => place (e.1 :: p)) e.2)
    (hn : Uniform (fun p => place (k :: p)) fun s => f s none)
    (hs : ∀ u, Uniform (fun p => place (k :: p)) u →
      Uniform (fun p => place (k :: p)) fun s => f s (some (u s))) :
    Uniform place fun s => (Value.table o (fill s es)).update k (f s) := by
  obtain ⟨es', heq, hes'⟩ := exists_upsert hes hn hs
  simp only [Value.update, heq]
  exact .table o es' hes'

/-- A change below a key looks at nothing but what is there, and so leaves all else uniform. -/
theorem update (h : Uniform place t) (hn : Uniform (fun p => place (k :: p)) fun s => f s none)
    (hs : ∀ u, Uniform (fun p => place (k :: p)) u →
      Uniform (fun p => place (k :: p)) fun s => f s (some (u s))) :
    Uniform place fun s => (t s).update k (f s) := by
  -- what is no table gives way to an empty one
  have anew : Uniform place fun s => (Value.table none (fill s [])).update k (f s) :=
    update_table none (by simp) hn hs
  cases h with
  | table o es hes => exact update_table o hes hn hs
  | blank hf => exact anew
  | fixed v =>
    cases v with
    | scalar o x => exact anew
    | array o vs => exact anew
    | table o es =>
      have hfix : ∀ s, fill s (es.map fun e => (e.1, fun _ => e.2)) = es := by
        intro s
        simp [fill, Function.comp_def]
      have hes : ∀ e ∈ es.map fun e => (e.1, fun _ : Settings => e.2),
          Uniform (fun p => place (e.1 :: p)) e.2 := by
        intro e he
        obtain ⟨e, -, rfl⟩ := List.mem_map.mp he
        exact .fixed e.2
      simpa only [hfix] using update_table o hes hn hs

mutual

theorem setKey {place : List String → Option Field} {t : Settings → Value}
    (h : Uniform place t) (k : String) (v : Value) :
    Uniform place fun s => (t s).setKey k v := by
  match v with
  | .scalar o x =>
    simp only [Value.setKey]
    exact h.update (.fixed _) fun u _ => .fixed _
  | .array o vs =>
    simp only [Value.setKey]
    exact h.update (.fixed _) fun u _ => .fixed _
  | .table o es =>
    simp only [Value.setKey]
    exact h.update (mergeInto (.fixed _) es) fun u hu => mergeInto hu es

theorem mergeInto {place : List String → Option Field} {t : Settings → Value}
    (h : Uniform place t) (es : List (String × Value)) :
    Uniform place fun s => Value.mergeInto (t s) es := by
  match es with
  | [] =>
    simp only [Value.mergeInto]
    exact h
  | (k, v) :: es =>
    simp only [Value.mergeInto]
    exact mergeInto (setKey h k v) es

end

/-- An array is never changed in place where a field may stand. -/
theorem updateElement (h : Uniform place t) (i : Int) (g : Value → Value) :
    Uniform place fun s => (t s).updateElement i g := by
  cases h with
  | fixed v => exact .fixed _
  | blank hf => exact .fixed (Value.nil.updateElement i g)
  | table o es hes => exact .fixed (Value.nil.updateElement i g)

theorem setPath (h : Uniform place t) (path : List Segment) (v : Value) :
    Uniform place fun s => (t s).setPath path v := by
  induction path generalizing place t with
  | nil => exact .fixed v
  | cons g path ih =>
    cases g with
    | index i =>
      simp only [Value.setPath]
      exact h.updateElement i _
    | key k =>
      cases path with
      | nil =>
        simp only [Value.setPath]
        exact h.setKey k v
      | cons g path =>
        simp only [Value.setPath]
        exact h.update (ih (.fixed .nil)) fun u hu => ih hu

theorem overlay (h : Uniform place t) (source : Source) :
    Uniform place fun s => (t s).overlay source := by
  induction source generalizing t with
  | nil => exact h
  | cons e source ih => exact ih (h.setPath (Segment.pathOf e.1) e.2)

section Reading

variable {es : List (String × (Settings → Value))} {α P : Type} {app : P → Settings → α}
  {members : List (Member α)}

theorem exists_lookup (hes : ∀ e ∈ es, Uniform (fun p => place (e.1 :: p)) e.2) (k : String) :
    ∃ u : Option (Settings → Value), (∀ s, (fill s es).lookup k = u.map fun t => t s) ∧
      ∀ t ∈ u, Uniform (fun p => place (k :: p)) t := by
  refine ⟨es.lookup k, fun s => ?_, fun t ht => hes _ (Assoc.mem_of_lookup ht)⟩
  induction es with
  | nil => rfl
  | cons e es ih =>
    rw [fill, List.map_cons, Assoc.lookup_cons, Assoc.lookup_cons, apply_ite (Option.map _)]
    exact congrArg _ (ih (List.forall_mem_cons.mp hes).2)

theorem exists_entry (h : Uniform place t) (hp : place [] = none) (k : String) :
    ∃ u : Option (Settings → Value), (∀ s, (t s).entries.lookup k = u.map fun t => t s) ∧
      ∀ t ∈ u, Uniform (fun p => place (k :: p)) t := by
  cases h with
  | blank hf => simp [hp] at hf
  | table o es hes => exact exists_lookup hes k
  | fixed v =>
    refine ⟨(v.entries.lookup k).map fun w _ => w, fun s => ?_, ?_⟩
    · cases v.entries.lookup k <;> rfl
    · intro t ht
      obtain ⟨w, -, rfl⟩ := Option.map_eq_some_iff.mp ht
      exact .fixed w

theorem exists_read (h : Uniform place t) (read : Value → String → Except SettingsError α)
    (key : String) (own : Settings → α)
    (hblank : ∀ f, place [] = some f → ∀ s, read (f.value s) key = .ok (own s))
    (htable : ∀ o es es', read (.table o es) key = read (.table o es') key) :
    ∃ r : Except SettingsError (Option α), ∀ s, read (t s) key = r.map (·.getD (own s)) := by
  cases h with
  | blank hf => exact ⟨.ok none, fun s => hblank _ hf s⟩
  | fixed v =>
    refine ⟨(read v key).map some, fun s => ?_⟩
    cases read v key <;> rfl
  | table o es hes =>
    refine ⟨(read (.table o []) key).map some, fun s => ?_⟩
    rw [htable o (fill s es) []]
    cases read (.table o []) key <;> rfl

theorem exists_readTable (h : Uniform place t) (hp : place [] = none)
    (hm : ∀ m ∈ members, ∀ u, Uniform (fun p => place (m.name :: p)) u → ∀ key,
      UniformChange app fun s => m.read (u s) key)
    (w : Walk) (path : List String) (key : String → String) (p : P) :
    ∃ r : Except SettingsError P, ∀ s,
      Member.readTable w path key members (t s).entries (app p s) = r.map fun q => app q s := by
  apply UniformChange.exists_inOrder
  intro m hvisit
  obtain ⟨u, hu, hut⟩ := h.exists_entry hp m.name
  simp only [hu]
  exact .readFrom fun v hv => hm m ((w.visit_perm _ _ _ members).mem_iff.mp hvisit) v (hut v hv) _

theorem exists_readSection (h : Uniform place t) (hp : place [] = none)
    (hm : ∀ m ∈ members, ∀ u, Uniform (fun p => place (m.name :: p)) u → ∀ key,
      UniformChange app fun s => m.read (u s) key)
    (w : Walk) (expected key : String) (p : P) :
    ∃ r : Except SettingsError P, ∀ s,
      Member.readSection w expected members (app p s) (t s) key = r.map fun q => app q s := by
  have htable := h.exists_readTable hp hm w [key] (fun name => key ++ "." ++ name) p
  cases h with
  | blank hf => simp [hp] at hf
  | table o es hes => exact htable
  | fixed v =>
    cases v with
    | table o es => exact htable
    | scalar o x => exact ⟨.error _, fun s => rfl⟩
    | array o vs =>
      apply UniformChange.exists_inOrder
      intro e he
      have hmem : e.1 ∈ members := List.fst_mem_of_mem_zipIdx he
      cases vs[e.2]? with
      | none => exact ⟨.ok id, fun s p => rfl⟩
      | some v => exact hm e.1 hmem (fun _ => v) (.fixed v) _

theorem uniformChange_field {β : Type} {read : Value → String → Except SettingsError β}
    {key : String} {put : β → α → α} (h : Uniform place t) (own : Settings → β)
    (set : Option β → P → P)
    (hblank : ∀ f, place [] = some f → ∀ s, read (f.value s) key = .ok (own s))
    (htable : ∀ o es es', read (.table o es) key = read (.table o es') key)
    (hput : ∀ r s p, put (r.getD (own s)) (app p s) = app (set r p) s) (name : String) :
    UniformChange app fun s => (Member.field name read put).read (t s) key := by
  obtain ⟨r, hr⟩ := h.exists_read read key own hblank htable
  refine ⟨r.map set, fun s p => ?_⟩
  simp only [Member.field, hr]
  cases r with
  | error e => rfl
  | ok b => exact congrArg Except.ok (hput b s p)

theorem uniformChange_section {β Q : Type} {app' : Q → Settings → β} {expected key : String}
    {a : α} {put : α → β → β} (h : Uniform place t) (hp : place [] = none) (q : P)
    (set : P → Q → Q)
    (hm : ∀ m ∈ members, ∀ u, Uniform (fun p => place (m.name :: p)) u → ∀ key,
      UniformChange app fun s => m.read (u s) key)
    (ha : ∀ s, app q s = a) (hput : ∀ q s p, put (app q s) (app' p s) = app' (set q p) s)
    (w : Walk) (name : String) :
    UniformChange app' fun s =>
      (Member.field name (Member.readSection w expected members a) put).read (t s) key := by
  obtain ⟨r, hr⟩ := h.exists_readSection hp hm w expected key q
  refine ⟨r.map set, fun s p => ?_⟩
  have hs := hr s
  rw [ha] at hs
  simp only [Member.field, hs]
  cases r with
  | error e => rfl
  | ok b => exact congrArg Except.ok (hput b s p)

end Reading

end Uniform

end Turnstile.Settings
