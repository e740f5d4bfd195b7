import Turnstile.Proofs.Settings.RoundTrip
import Turnstile.Table

namespace Turnstile

namespace JsonValue

variable {ms : List (Option String × JsonValue)} {m : Option String × JsonValue} {cs : List Char}

theorem MembersText.of_mem (h : MembersText ms cs) (hm : m ∈ ms) :
    m.1.isSome = true ∧ ∃ ds, PaddedText m.2 ds := by
  induction ms generalizing cs with
  | nil => cases hm
  | cons m' ms ih =>
    cases h with
    | last hk hv =>
      obtain rfl := List.mem_singleton.1 hm
      exact ⟨rfl, _, hv⟩
    | more hk hv hs =>
      obtain rfl | hm := List.mem_cons.1 hm
      · exact ⟨rfl, _, hv⟩
      · exact ih hs hm

theorem PaddedText.of_mem (h : PaddedText (.object ms) cs) (hm : m ∈ ms) :
    m.1.isSome = true ∧ ∃ ds, PaddedText m.2 ds := by
  obtain ⟨-, h, -⟩ := h
  cases h with
  | emptyObject => cases hm
  | object h => exact h.of_mem hm

end JsonValue

namespace Settings

open JsonValue

/-- What an object holds for a key, in order. -/
def given (k : String) : List (Option String × JsonValue) → List JsonValue
  | [] => []
  | (k', v) :: ms => if k' = some k then v :: given k ms else given k ms

section Members

variable {α β : Type} {fields : JsonFields α} {read : JsonValue → α → Option α}
  {read? : JsonValue → Option β} {put : α → β → α} {seen : List String} {k : String} {v : JsonValue}
  {m : Option String × JsonValue} {ms : List (Option String × JsonValue)} {a b : α}

theorem given_cons_self (k : String) (v : JsonValue) (ms : List (Option String × JsonValue)) :
    given k ((some k, v) :: ms) = v :: given k ms := if_pos rfl

theorem given_cons_of_ne {k' : String} (h : k' ≠ k) (v : JsonValue)
    (ms : List (Option String × JsonValue)) : given k ((some k', v) :: ms) = given k ms :=
  if_neg fun e => h (Option.some.inj e)

theorem readMembers_cons_eq_some : readMembers fields seen (m :: ms) a = some b ↔
    ∃ k v, m = (some k, v) ∧ (fields.lookup k = none ∧ readMembers fields seen ms a = some b ∨
      ∃ read c, fields.lookup k = some read ∧ read v a = some c ∧ k ∉ seen ∧
        readMembers fields (k :: seen) ms c = some b) := by
  obtain ⟨k, v⟩ := m
  cases k with
  | none => simp [readMembers]
  | some k =>
    cases hf : fields.lookup k with
    | none => simp [readMembers, hf, -List.lookup_eq_none_iff]
    | some read => cases hr : read v a <;> simp [readMembers, hf, hr, -List.lookup_eq_none_iff]

theorem length_given_le (hk : (fields.lookup k).isSome = true)
    (h : readMembers fields seen ms a = some b) :
    (given k ms).length ≤ if k ∈ seen then 0 else 1 := by
  induction ms generalizing seen a with
  | nil => exact Nat.zero_le _
  | cons m ms ih =>
    obtain ⟨k', v, rfl, ⟨hn, hr⟩ | ⟨_, c, -, -, hs, hr⟩⟩ := readMembers_cons_eq_some.1 h
    · have hne : k' ≠ k := by
        rintro rfl
        simp [hn] at hk
      rw [given_cons_of_ne hne]
      exact ih hr
    · by_cases hkk : k' = k
      · subst k'
        have hrest := ih hr
        rw [if_pos List.mem_cons_self] at hrest
        rw [given_cons_self, if_neg hs, List.length_cons]
        omega
      · rw [given_cons_of_ne hkk]
        simpa [Ne.symm hkk] using ih hr

theorem exists_read_of_given (hk : fields.lookup k = some read)
    (h : readMembers fields seen ms a = some b) (hv : v ∈ given k ms) :
    ∃ c, (read v c).isSome = true := by
  induction ms generalizing seen a with
  | nil => cases hv
  | cons m ms ih =>
    obtain ⟨k', v', rfl, hstep⟩ := readMembers_cons_eq_some.1 h
    obtain ⟨seen', c, hr⟩ : ∃ seen' c, readMembers fields seen' ms c = some b := by
      obtain ⟨-, hr⟩ | ⟨_, c, -, -, -, hr⟩ := hstep
      · exact ⟨_, _, hr⟩
      · exact ⟨_, _, hr⟩
    by_cases hkk : k' = k
    · subst k'
      rw [given_cons_self, List.mem_cons] at hv
      obtain rfl | hv := hv
      · obtain ⟨hn, -⟩ | ⟨_, c, hf, hc, -⟩ := hstep
        · simp [hn] at hk
        · obtain rfl := Option.mem_unique hf hk
          exact ⟨a, by simp [hc]⟩
      · exact ih hr hv
    · rw [given_cons_of_ne hkk] at hv
      exact ih hr hv

/-- An object in which nothing stands in the way of a reading: the keys in `seen` do not come again,
the other fields come once at most, and their values can be read. -/
structure Readable (fields : JsonFields α) (seen : List String)
    (ms : List (Option String × JsonValue)) : Prop where
  keys : ∀ m ∈ ms, m.1.isSome = true
  once : ∀ f ∈ fields, (given f.1 ms).length ≤ if f.1 ∈ seen then 0 else 1
  values : ∀ f ∈ fields, ∀ v ∈ given f.1 ms, ∀ a, (f.2 v a).isSome = true

theorem Readable.of_given (hkeys : ∀ m ∈ ms, m.1.isSome = true)
    (h : ∀ f ∈ fields, ∃ x : Option JsonValue, given f.1 ms = x.toList ∧
      ∀ v ∈ x, ∀ a, (f.2 v a).isSome = true) : Readable fields [] ms where
  keys := hkeys
  once f hf := by
    obtain ⟨x, hx, -⟩ := h f hf
    rw [hx, if_neg List.not_mem_nil]
    cases x <;> simp
  values f hf v hv := by
    obtain ⟨x, hx, hread⟩ := h f hf
    rw [hx, Option.mem_toList] at hv
    exact hread v hv

theorem mem_given_cons {k' : String} {v' : JsonValue} (h : v ∈ given k ms) :
    v ∈ given k ((some k', v') :: ms) := by
  by_cases hk : k' = k
  · subst k'
    rw [given_cons_self]
    exact List.mem_cons_of_mem _ h
  · rwa [given_cons_of_ne hk]

theorem Readable.skip (h : Readable fields seen ((some k, v) :: ms))
    (hk : fields.lookup k = none) : Readable fields seen ms where
  keys m hm := h.keys m (List.mem_cons_of_mem _ hm)
  once f hf := by
    have hne : k ≠ f.1 := bne_iff_ne.1 (List.lookup_eq_none_iff.1 hk f hf)
    simpa [given_cons_of_ne hne] using h.once f hf
  values f hf v' hv := h.values f hf v' (mem_given_cons hv)

theorem Readable.field (h : Readable fields seen ((some k, v) :: ms))
    (hk : fields.lookup k = some read) :
    k ∉ seen ∧ (∀ a, (read v a).isSome = true) ∧ Readable fields (k :: seen) ms := by
  have hf := Assoc.mem_of_lookup hk
  have hfirst : (given k ((some k, v) :: ms)).length ≤ if k ∈ seen then 0 else 1 := h.once _ hf
  rw [given_cons_self, List.length_cons] at hfirst
  have hs : k ∉ seen := by
    intro hs
    rw [if_pos hs] at hfirst
    omega
  rw [if_neg hs] at hfirst
  refine ⟨hs, h.values _ hf v ?_, ?_, ?_, ?_⟩
  · rw [given_cons_self]
    exact List.mem_cons_self
  · exact fun m hm => h.keys m (List.mem_cons_of_mem _ hm)
  · intro f hf
    by_cases hkk : k = f.1
    · rw [← hkk, if_pos List.mem_cons_self]
      omega
    · simpa [given_cons_of_ne hkk, Ne.symm hkk] using h.once f hf
  · exact fun f hf v' hv => h.values f hf v' (mem_given_cons hv)

theorem Readable.exists_readMembers (h : Readable fields seen ms) (a : α) :
    ∃ b, readMembers fields seen ms a = some b := by
  induction ms generalizing seen a with
  | nil => exact ⟨a, rfl⟩
  | cons m ms ih =>
    obtain ⟨k, v⟩ := m
    obtain ⟨k, rfl⟩ := Option.isSome_iff_exists.1 (h.keys _ List.mem_cons_self)
    cases hk : fields.lookup k with
    | none =>
      obtain ⟨b, hb⟩ := ih (h.skip hk) a
      exact ⟨b, readMembers_cons_eq_some.2 ⟨k, v, rfl, .inl ⟨hk, hb⟩⟩⟩
    | some read =>
      obtain ⟨hs, hv, hrest⟩ := h.field hk
      obtain ⟨c, hc⟩ := Option.isSome_iff_exists.1 (hv a)
      obtain ⟨b, hb⟩ := ih hrest c
      exact ⟨b, readMembers_cons_eq_some.2 ⟨k, v, rfl, .inr ⟨read, c, hk, hc, hs, hb⟩⟩⟩

theorem isSome_readInto : (readInto read? put v a).isSome = (read? v).isSome := Option.isSome_map

/-- What only one field puts in is what was given for that field, or what it was. -/
theorem readMembers_field {g : α → β} {x : Option JsonValue}
    (hk : fields.lookup k = some (readInto read? put)) (hput : ∀ a y, g (put a y) = y)
    (hother : ∀ f ∈ fields, f.1 ≠ k → ∀ v a c, f.2 v a = some c → g c = g a)
    (hx : given k ms = x.toList) (h : readMembers fields seen ms a = some b) :
    g b = (x.bind read?).getD (g a) := by
  induction ms generalizing seen a x with
  | nil =>
    obtain rfl : a = b := Option.some.inj h
    cases x with
    | none => rfl
    | some v => cases hx
  | cons m ms ih =>
    obtain ⟨k', v, rfl, hstep⟩ := readMembers_cons_eq_some.1 h
    by_cases hkk : k' = k
    · subst k'
      rw [given_cons_self] at hx
      cases x with
      | none => cases hx
      | some v' =>
        obtain ⟨rfl, hnone⟩ : v = v' ∧ given k ms = [] := by simpa using hx
        obtain ⟨hn, -⟩ | ⟨_, c, hf, hc, -, hr⟩ := hstep
        · simp [hn] at hk
        · obtain rfl := Option.mem_unique hf hk
          obtain ⟨y, hy, rfl⟩ := readInto_eq_some.1 hc
          -- none of the members behind it is for `k`
          have hrest : g b = g (put a y) := ih (x := none) hnone hr
          rw [hrest, hput, Option.bind_some, hy, Option.getD_some]
    · rw [given_cons_of_ne hkk] at hx
      obtain ⟨-, hr⟩ | ⟨read, c, hf, hc, -, hr⟩ := hstep
      · exact ih hx hr
      · rw [ih hx hr, hother _ (Assoc.mem_of_lookup hf) hkk v a c hc]

theorem readRecord_repeated (hk : (fields.lookup k).isSome = true)
    (h : 2 ≤ (given k ms).length) : readRecord fields a (.object ms) = none := by
  rw [readRecord, Option.eq_none_iff_forall_ne_some]
  intro b hb
  have hle := length_given_le hk hb
  rw [if_neg List.not_mem_nil] at hle
  omega

theorem readRecord_unreadable (hk : fields.lookup k = some (readInto read? put))
    (hv : v ∈ given k ms) (h : read? v = none) :
    readRecord fields a (.object ms) = none := by
  rw [readRecord, Option.eq_none_iff_forall_ne_some]
  intro b hb
  obtain ⟨c, hc⟩ := exists_read_of_given hk hb hv
  simp [isSome_readInto, h] at hc

end Members

variable {ms ws ds : List (Option String × JsonValue)}

theorem mem_of_mem_given {k : String} {v : JsonValue} (h : v ∈ given k ms) : (some k, v) ∈ ms := by
  induction ms with
  | nil => cases h
  | cons m ms ih =>
    obtain ⟨k', v'⟩ := m
    rw [given] at h
    split_ifs at h with hk
    · subst hk
      obtain rfl | h := List.mem_cons.1 h
      · exact List.mem_cons_self
      · exact List.mem_cons_of_mem _ (ih h)
    · exact List.mem_cons_of_mem _ (ih h)

def countValue (n : UInt64) : JsonValue := .number (some n.toNat)

def nameValue (s : String) : JsonValue := .str (some s)

theorem bind_jsonCount?_countValue (n : Option UInt64) :
    (n.map countValue).bind jsonCount? = n := by
  cases n with
  | none => rfl
  | some n => exact jsonCount?_toNat n

theorem bind_jsonName?_nameValue (s : Option String) : (s.map nameValue).bind jsonName? = s := by
  cases s <;> rfl

theorem isSome_jsonCount?_of_mem {n : Option UInt64} {v : JsonValue} (hv : v ∈ n.map countValue) :
    (jsonCount? v).isSome = true := by
  obtain ⟨m, -, rfl⟩ := Option.map_eq_some_iff.1 hv
  rw [countValue, jsonCount?_toNat, Option.isSome_some]

theorem isSome_jsonName?_of_mem {s : Option String} {v : JsonValue} (hv : v ∈ s.map nameValue) :
    (jsonName? v).isSome = true := by
  obtain ⟨t, -, rfl⟩ := Option.map_eq_some_iff.1 hv
  rfl

theorem readRecord_watchdogFields_given {t : Option UInt64} (hkeys : ∀ m ∈ ws, m.1.isSome = true)
    (ht : given "lock_timeout_ms" ws = (t.map countValue).toList) :
    readRecord watchdogFields {} (.object ws) =
      some ⟨t.getD ({} : WatchdogSettings).lockTimeoutMs⟩ := by
  have readable : Readable watchdogFields [] ws := by
    refine .of_given hkeys (List.forall_mem_singleton.2 ⟨_, ht, fun v hv a => ?_⟩)
    simpa [isSome_readInto] using isSome_jsonCount?_of_mem hv
  obtain ⟨w, hw⟩ := readable.exists_readMembers {}
  have timeout := readMembers_field (g := WatchdogSettings.lockTimeoutMs) rfl (fun _ _ => rfl)
    (by simp [watchdogFields]) ht hw
  rw [bind_jsonCount?_countValue] at timeout
  rw [readRecord, hw, ← timeout]

theorem readRecord_dispatcherFields_given {n : Option String} {w : Option UInt64}
    (hkeys : ∀ m ∈ ds, m.1.isSome = true) (hn : given "name" ds = (n.map nameValue).toList)
    (hw : given "slow_turn_warn_ms" ds = (w.map countValue).toList) :
    readRecord dispatcherFields {} (.object ds) = some ⟨n.getD ({} : DispatcherSettings).name,
      w.getD ({} : DispatcherSettings).slowTurnWarnMs⟩ := by
  have readable : Readable dispatcherFields [] ds := by
    refine .of_given hkeys (List.forall_mem_cons.2 ⟨⟨_, hn, fun v hv a => ?_⟩,
      List.forall_mem_singleton.2 ⟨_, hw, fun v hv a => ?_⟩⟩)
    · simpa [isSome_readInto] using isSome_jsonName?_of_mem hv
    · simpa [isSome_readInto] using isSome_jsonCount?_of_mem hv
  obtain ⟨d, hd⟩ := readable.exists_readMembers {}
  have name := readMembers_field (g := DispatcherSettings.name) rfl (fun _ _ => rfl)
    (by simp [dispatcherFields, readInto]) hn hd
  have warn := readMembers_field (g := DispatcherSettings.slowTurnWarnMs) rfl (fun _ _ => rfl)
    (by simp [dispatcherFields, readInto]) hw hd
  rw [bind_jsonName?_nameValue] at name
  rw [bind_jsonCount?_countValue] at warn
  rw [readRecord, hd, ← name, ← warn]

theorem ofJsonValue?_given {w : WatchdogSettings} {d : DispatcherSettings}
    {ws ds : Option (List (Option String × JsonValue))} (hkeys : ∀ m ∈ ms, m.1.isSome = true)
    (hws : given "watchdog" ms = (ws.map .object).toList)
    (hw : ∀ ms ∈ ws, readRecord watchdogFields {} (.object ms) = some w)
    (hds : given "dispatcher" ms = (ds.map .object).toList)
    (hd : ∀ ms ∈ ds, readRecord dispatcherFields {} (.object ms) = some d) :
    ofJsonValue? (.object ms) =
      some ⟨(ws.map fun _ => w).getD {}, (ds.map fun _ => d).getD {}⟩ := by
  have readable : Readable sections [] ms := by
    refine .of_given hkeys (List.forall_mem_cons.2 ⟨⟨_, hws, fun v hv a => ?_⟩,
      List.forall_mem_singleton.2 ⟨_, hds, fun v hv a => ?_⟩⟩)
    · obtain ⟨x, hx, rfl⟩ := Option.map_eq_some_iff.1 hv
      rw [isSome_readInto, hw x hx, Option.isSome_some]
    · obtain ⟨x, hx, rfl⟩ := Option.map_eq_some_iff.1 hv
      rw [isSome_readInto, hd x hx, Option.isSome_some]
  obtain ⟨s, hs⟩ := readable.exists_readMembers {}
  have watchdog := readMembers_field (g := Settings.watchdog) rfl (fun _ _ => rfl)
    (by simp [sections, readInto]) hws hs
  have dispatcher := readMembers_field (g := Settings.dispatcher) rfl (fun _ _ => rfl)
    (by simp [sections, readInto]) hds hs
  have hws' : (ws.map JsonValue.object).bind (readRecord watchdogFields {}) =
      ws.map fun _ => w := by
    cases ws with
    | none => rfl
    | some x => exact hw x rfl
  have hds' : (ds.map JsonValue.object).bind (readRecord dispatcherFields {}) =
      ds.map fun _ => d := by
    cases ds with
    | none => rfl
    | some x => exact hd x rfl
  rw [hws'] at watchdog
  rw [hds'] at dispatcher
  rw [ofJsonValue?, readRecord, hs, ← watchdog, ← dispatcher]

end Settings

open Settings JsonValue

/-- An object with some of the known members is read, whatever is around them, and what is missing
is as it is by default; a known member that comes twice is an error. -/
theorem absent_json_fields_are_defaults (cs : List Char) (ms : List (Option String × JsonValue))
    (htext : PaddedText (.object ms) cs) :
    (∀ (ws ds : Option (List (Option String × JsonValue))) (timeout warn : Option UInt64)
      (name : Option String),
      given "watchdog" ms = (ws.map .object).toList →
      given "lock_timeout_ms" (ws.getD []) = (timeout.map countValue).toList →
      given "dispatcher" ms = (ds.map .object).toList →
      given "name" (ds.getD []) = (name.map nameValue).toList →
      given "slow_turn_warn_ms" (ds.getD []) = (warn.map countValue).toList →
      ofJson? (String.ofList cs) = some
        { watchdog := { lockTimeoutMs := timeout.getD ({} : Settings).watchdog.lockTimeoutMs }
          dispatcher := {
            name := name.getD ({} : Settings).dispatcher.name
            slowTurnWarnMs := warn.getD ({} : Settings).dispatcher.slowTurnWarnMs } }) ∧
    ((∃ k ∈ ["watchdog", "dispatcher"], 2 ≤ (given k ms).length) ∨
      (∃ ws, .object ws ∈ given "watchdog" ms ∧ 2 ≤ (given "lock_timeout_ms" ws).length) ∨
      (∃ ds, .object ds ∈ given "dispatcher" ms ∧
        ∃ k ∈ ["name", "slow_turn_warn_ms"], 2 ≤ (given k ds).length) →
      ofJson? (String.ofList cs) = none) := by
  have hparse : ofJson? (String.ofList cs) = ofJsonValue? (.object ms) := by
    rw [ofJson?, parse?_of_text htext, Option.bind_some]
  have hkeys : ∀ m ∈ ms, m.1.isSome = true := fun m hm => (htext.of_mem hm).1
  have keys_of_given (k : String) (ws : List (Option String × JsonValue))
      (hv : .object ws ∈ given k ms) : ∀ m ∈ ws, m.1.isSome = true := by
    obtain ⟨-, ds, hds⟩ := htext.of_mem (mem_of_mem_given hv)
    exact fun m hm => (hds.of_mem hm).1
  rw [hparse]
  constructor
  · intro ws ds timeout warn name hws htimeout hds hname hwarn
    have hw : ∀ x ∈ ws, readRecord watchdogFields {} (.object x) =
        some ⟨timeout.getD ({} : WatchdogSettings).lockTimeoutMs⟩ := by
      rintro x rfl
      exact readRecord_watchdogFields_given (keys_of_given "watchdog" x (by simp [hws])) htimeout
    have hd : ∀ x ∈ ds, readRecord dispatcherFields {} (.object x) = some
        ⟨name.getD ({} : DispatcherSettings).name,
          warn.getD ({} : DispatcherSettings).slowTurnWarnMs⟩ := by
      rintro x rfl
      exact readRecord_dispatcherFields_given (keys_of_given "dispatcher" x (by simp [hds])) hname
        hwarn
    -- a section that is missing gives no field a value
    have absent {β : Type} {k : String} {y : Option β} {enc : β → JsonValue}
        (h : given k [] = (y.map enc).toList) : y = none := by
      cases y with
      | none => rfl
      | some y => cases h
    have watchdog : (ws.map fun _ => (⟨timeout.getD ({} : WatchdogSettings).lockTimeoutMs⟩ :
        WatchdogSettings)).getD {} = ⟨timeout.getD ({} : WatchdogSettings).lockTimeoutMs⟩ := by
      cases ws with
      | none => rw [absent htimeout]; rfl
      | some x => rfl
    rw [ofJsonValue?_given hkeys hws hw hds hd, watchdog]
    cases ds with
    | none => rw [absent hname, absent hwarn]; rfl
    | some x => rfl
  · rw [ofJsonValue?]
    rintro (⟨k, hk, h⟩ | ⟨ws, hws, h⟩ | ⟨ds, hds, k, hk, h⟩)
    · have hfield : (sections.lookup k).isSome = true := by
        obtain rfl | rfl : k = "watchdog" ∨ k = "dispatcher" := by simpa using hk
        all_goals rfl
      exact readRecord_repeated hfield h
    · have hnone : readRecord watchdogFields {} (.object ws) = none := readRecord_repeated rfl h
      exact readRecord_unreadable rfl hws hnone
    · have hfield : (dispatcherFields.lookup k).isSome = true := by
        obtain rfl | rfl : k = "name" ∨ k = "slow_turn_warn_ms" := by simpa using hk
        all_goals rfl
      have hnone : readRecord dispatcherFields {} (.object ds) = none :=
        readRecord_repeated hfield h
      exact readRecord_unreadable rfl hds hnone

/-- One field of one section between members that nobody knows, and a section that comes twice. -/
theorem absent_json_fields_are_defaults_partial :
    let ds : List (Option String × JsonValue) :=
      [(some "slow_turn_warn_ms", countValue 7), (some "x", .object [])]
    let ms : List (Option String × JsonValue) :=
      [(some "y", .array [.null, .str (some "z")]), (some "dispatcher", .object ds)]
    let twice : List (Option String × JsonValue) :=
      [(some "watchdog", .object []), (some "watchdog", .object [])]
    let text :=
      "\x7b\"y\":[null,\"z\"],\"dispatcher\":\x7b\"slow_turn_warn_ms\":7,\"x\":\x7b\x7d\x7d\x7d"
    let repeated := "\x7b\"watchdog\":\x7b\x7d,\"watchdog\":\x7b\x7d\x7d"
    PaddedText (.object ms) text.toList ∧ PaddedText (.object twice) repeated.toList ∧
      ofJson? (String.ofList text.toList) = some { dispatcher := { slowTurnWarnMs := 7 } } ∧
      ofJson? (String.ofList repeated.toList) = none := by
  intro ds ms twice text repeated
  have x := keyText_of_plain (k := "x") (by simp [writeChar])
  have y := keyText_of_plain (k := "y") (by simp [writeChar])
  have watchdog := keyText_of_plain (k := "watchdog") (by simp [writeChar])
  have dispatcher := keyText_of_plain (k := "dispatcher") (by simp [writeChar])
  have warn := keyText_of_plain (k := "slow_turn_warn_ms") (by simp [writeChar])
  have seven : Nat.toDigits 10 7 = ['7'] := by decide
  have hseven := paddedText_of_text (.number (numberText_toDigits 7))
  have hempty := paddedText_of_text (.emptyObject (b := []) (by simp [Blank]))
  have harray := paddedText_of_text (.array (.more (paddedText_of_text .null)
    (.last (paddedText_of_text (valueText_writeString "z")))))
  have hds := paddedText_of_text (.object (.more warn hseven (.last x hempty)))
  have htext : PaddedText (.object ms) text.toList := by
    have h := paddedText_of_text (.object (.more y harray (.last dispatcher hds)))
    simpa [ms, ds, text, countValue, seven, writeString, writeChar] using h
  have hrepeated : PaddedText (.object twice) repeated.toList := by
    have h := paddedText_of_text (.object (.more watchdog hempty (.last watchdog hempty)))
    simpa [twice, repeated] using h
  refine ⟨htext, hrepeated, ?_, ?_⟩
  · exact (absent_json_fields_are_defaults text.toList ms htext).1 none (some ds) none (some 7) none
      rfl rfl rfl rfl rfl
  · exact (absent_json_fields_are_defaults repeated.toList twice hrepeated).2
      (.inl ⟨"watchdog", by simp, by decide⟩)

end Turnstile
