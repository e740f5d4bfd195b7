import Mathlib.Data.List.Permutation
import Turnstile.Proofs.Settings.Apart
import Turnstile.Proofs.Settings.Faults
import Turnstile.Proofs.Settings.Uniform

namespace Turnstile.Settings

/-- What is laid over settings: each field is kept or set. -/
structure Overlay where
  lockTimeoutMs : Option UInt64
  name : Option String
  slowTurnWarnMs : Option UInt64
deriving DecidableEq, Repr

def Overlay.apply (p : Overlay) (s : Settings) : Settings where
  watchdog := ⟨p.lockTimeoutMs.getD s.watchdog.lockTimeoutMs⟩
  dispatcher := ⟨p.name.getD s.dispatcher.name, p.slowTurnWarnMs.getD s.dispatcher.slowTurnWarnMs⟩

/-- Both counts fit into a signed 64-bit word. -/
def IsStorable (s : Settings) : Prop :=
  s.watchdog.lockTimeoutMs.toNat < Number.signedLimit ∧
    s.dispatcher.slowTurnWarnMs.toNat < Number.signedLimit

def baseSource (s : Settings) : Source :=
  [("watchdog", .table none [("lock_timeout_ms", Field.lockTimeoutMs.value s)]),
    ("dispatcher", .table none [("name", Field.name.value s),
      ("slow_turn_warn_ms", Field.slowTurnWarnMs.value s)])]

theorem toSource_of_isStorable {s : Settings} (hs : s.IsStorable) :
    s.toSource = .ok s.baseSource := by
  simp only [toSource, storable, hs.1, hs.2, ↓reduceIte]
  rfl

def baseTree (w : Walk) (s : Settings) : Value :=
  Value.emptyTable.overlay (w.source .base s.baseSource)

theorem exists_baseTree (w : Walk) : ∃ es ds : List (String × (Settings → Value)),
    es.Perm [("watchdog", fun s =>
        .table none (fill s [("lock_timeout_ms", Field.lockTimeoutMs.value)])),
      ("dispatcher", fun s => .table none (fill s ds))] ∧
    ds.Perm [("name", Field.name.value), ("slow_turn_warn_ms", Field.slowTurnWarnMs.value)] ∧
    ∀ s, baseTree w s = .table none (fill s es) := by
  refine ⟨_, _, w.visit_perm .base [] Prod.fst _, w.visit_perm .base ["dispatcher"] Prod.fst _,
    fun s => ?_⟩
  have hone := List.perm_singleton.mp (w.perm .base ["watchdog"] ["lock_timeout_ms"])
  have htwo := List.perm_pair.mp (w.perm .base ["dispatcher"] ["name", "slow_turn_warn_ms"])
  have htop := List.perm_pair.mp (w.perm .base [] ["watchdog", "dispatcher"])
  have hw : Segment.pathOf "watchdog" = [.key "watchdog"] := by decide
  have hd : Segment.pathOf "dispatcher" = [.key "dispatcher"] := by decide
  have hfold : ∀ k ∈ ["watchdog", "dispatcher", "lock_timeout_ms", "name", "slow_turn_warn_ms"],
      Value.foldCase k = k := by decide
  simp only [List.forall_mem_cons] at hfold
  obtain ⟨hfw, hfd, hfl, hfn, hfs, -⟩ := hfold
  rcases htop with htop | htop <;> rcases htwo with htwo | htwo <;>
    simp [baseTree, baseSource, fill, Field.value, Walk.source, Walk.entry, Segment.endsInKey,
      Walk.entries, Walk.value, Walk.visit, hone, htwo, htop, Value.overlay, Value.setPath,
      Value.setKey, Value.mergeInto, Value.update, Assoc.upsert, Value.emptyTable, hw, hd, hfw, hfd,
      hfl, hfn, hfs]

theorem uniform_baseTree (w : Walk) : Uniform Field.at? (baseTree w) := by
  obtain ⟨es, ds, hes, hds, heq⟩ := exists_baseTree w
  rw [funext heq]
  refine .table none es fun e he => ?_
  obtain rfl | he := List.mem_cons.mp (hes.mem_iff.mp he)
  · refine .table none _ fun e he => ?_
    obtain rfl := List.mem_singleton.mp he
    exact .blank rfl
  · obtain rfl := List.mem_singleton.mp he
    refine .table none ds fun e he => ?_
    obtain rfl | he := List.mem_cons.mp (hds.mem_iff.mp he)
    · exact .blank rfl
    · obtain rfl := List.mem_singleton.mp he
      exact .blank rfl

theorem count_value (f : Field) (n : UInt64) (s : Settings) (hf : f.scalar s = .int n.toNat)
    (key : String) : (f.value s).count key = .ok n := by
  simp [Field.value, hf, Value.count]

theorem uniformChange_watchdogSection (w : Walk) (t : Settings → Value)
    (h : Uniform (fun p => Field.at? ("watchdog" :: p)) t) (key : String) :
    UniformChange Overlay.apply fun s => (watchdogSection w).read (t s) key := by
  have hm : ∀ m ∈ [lockTimeout], ∀ u, Uniform (fun p => Field.at? ("watchdog" :: m.name :: p)) u →
      ∀ key, UniformChange (fun (n : Option UInt64) s => ⟨n.getD s.watchdog.lockTimeoutMs⟩)
        fun s => m.read (u s) key := by
    rintro m hmem u hu key
    obtain rfl := List.mem_singleton.mp hmem
    exact hu.uniformChange_field (·.watchdog.lockTimeoutMs) (fun n _ => n)
      (fun f hf s => by cases hf; exact count_value _ _ s rfl key) (fun _ _ _ => rfl)
      (fun _ _ _ => rfl) _
  exact h.uniformChange_section rfl (some 60000) (fun n p => { p with lockTimeoutMs := n }) hm
    (fun _ => rfl) (fun _ _ _ => rfl) w _

theorem uniformChange_dispatcherSection (w : Walk) (t : Settings → Value)
    (h : Uniform (fun p => Field.at? ("dispatcher" :: p)) t) (key : String) :
    UniformChange Overlay.apply fun s => (dispatcherSection w).read (t s) key := by
  have hm : ∀ m ∈ [dispatcherName, slowTurnWarn],
      ∀ u, Uniform (fun p => Field.at? ("dispatcher" :: m.name :: p)) u →
      ∀ key, UniformChange (fun (e : Option String × Option UInt64) s =>
          ⟨e.1.getD s.dispatcher.name, e.2.getD s.dispatcher.slowTurnWarnMs⟩)
        fun s => m.read (u s) key := by
    rintro m hmem u hu key
    obtain rfl | hmem := List.mem_cons.mp hmem
    · exact hu.uniformChange_field (·.dispatcher.name) (fun n p => (n, p.2))
        (fun f hf s => by cases hf; rfl) (fun _ _ _ => rfl) (fun _ _ _ => rfl) _
    · obtain rfl := List.mem_singleton.mp hmem
      exact hu.uniformChange_field (·.dispatcher.slowTurnWarnMs) (fun n p => (p.1, n))
        (fun f hf s => by cases hf; exact count_value _ _ s rfl key) (fun _ _ _ => rfl)
        (fun _ _ _ => rfl) _
  exact h.uniformChange_section rfl (some "callbacks", some 1000)
    (fun e p => { p with name := e.1, slowTurnWarnMs := e.2 }) hm (fun _ => rfl)
    (fun _ _ _ => rfl) w _

/-- What is decoded from a uniform tree is one overlay on the base settings, or one error. -/
theorem Uniform.exists_decode {t : Settings → Value} (h : Uniform Field.at? t) (w : Walk) :
    ∃ r : Except SettingsError Overlay, ∀ s, decode w (t s) = r.map (·.apply s) := by
  have hm : ∀ m ∈ [watchdogSection w, dispatcherSection w],
      ∀ u, Uniform (fun p => Field.at? (m.name :: p)) u →
      ∀ key, UniformChange Overlay.apply fun s => m.read (u s) key := by
    rintro m hmem u hu key
    obtain rfl | hmem := List.mem_cons.mp hmem
    · exact uniformChange_watchdogSection w u hu key
    · obtain rfl := List.mem_singleton.mp hmem
      exact uniformChange_dispatcherSection w u hu key
  -- decoding starts from the defaults, which are the base settings with every field set
  exact h.exists_readTable rfl hm w [] id ⟨some 60000, some "callbacks", some 1000⟩

variable {files : Files} {env : Environment} {path : String} {s : Settings} {file : Source}

theorem override_eq_decode (hs : s.IsStorable) (hfile : files.source path = .ok file) (w : Walk) :
    override w s files env path = decode w (combine w s.baseSource file env.source) := by
  simp only [override, toSource_of_isStorable hs, hfile]
  rfl

theorem override_eq_error (hs : s.IsStorable) {e : SettingsError}
    (hfile : files.source path = .error e) (w : Walk) :
    override w s files env path = .error e := by
  simp only [override, toSource_of_isStorable hs, hfile]
  rfl

theorem exists_override (w : Walk) (files : Files) (env : Environment) (path : String) :
    ∃ r : Except SettingsError Overlay, ∀ s : Settings, s.IsStorable →
      override w s files env path = r.map (·.apply s) := by
  cases hfile : files.source path with
  | error e => exact ⟨.error e, fun s hs => override_eq_error hs hfile w⟩
  | ok file =>
    obtain ⟨r, hr⟩ := (((uniform_baseTree w).overlay (w.source .file file)).overlay
      (w.source .environment env.source)).exists_decode w
    exact ⟨r, fun s hs => (override_eq_decode hs hfile w).trans (hr s)⟩

theorem isStorable_default : ({} : Settings).IsStorable := by
  unfold IsStorable
  decide

end Turnstile.Settings

namespace Turnstile

open Settings

/-- Of two spellings of one section the one that is visited last counts. -/
example :
    let files := ({} : Files).write "f.toml"
      (.text "[watchdog]\nlock_timeout_ms = 1\n[Watchdog]\nlock_timeout_ms = 2")
    let backward : Walk :=
      ⟨fun _ _ names => (List.range names.length).reverse, fun _ _ _ => List.reverse_perm _⟩
    (override .listed {} files {} "f").toOption = some { watchdog := ⟨2⟩ } ∧
      (override backward {} files {} "f").toOption = some { watchdog := ⟨1⟩ } := by
  decide +kernel

end Turnstile
