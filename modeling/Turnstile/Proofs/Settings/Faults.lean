import Mathlib.Data.List.Perm.Basic
import Turnstile.Proofs.Settings.Same
import Turnstile.Settings.Decode

namespace Turnstile.Settings

def fault? {α : Type} : Except SettingsError α → Option SettingsError
  | .ok _ => none
  | .error e => some e

theorem fault?_map {α β : Type} (f : α → β) (r : Except SettingsError α) :
    fault? (r.map f) = fault? r := by
  cases r <;> rfl

namespace Member

variable {α β γ : Type} {a : α} {cs ds : List (Except SettingsError (α → α))} {m : Member α}
  {members : List (Member α)}

def Commute (c d : Except SettingsError (α → α)) : Prop :=
  ∀ f g, c = .ok f → d = .ok g → ∀ a, f (g a) = g (f a)

theorem inOrder_perm (hperm : cs.Perm ds) (hcomm : cs.Pairwise Commute)
    (hone : (cs.filterMap fault?).length ≤ 1) (a : α) : inOrder cs a = inOrder ds a := by
  induction hperm generalizing a with
  | nil => rfl
  | cons c hperm ih =>
    rw [inOrder_cons, inOrder_cons]
    cases c with
    | error e => rfl
    | ok f => exact ih (List.pairwise_cons.mp hcomm).2 hone (f a)
  | swap c d cs =>
    have hcd := (List.pairwise_cons.mp hcomm).1 c List.mem_cons_self
    rw [inOrder_cons, inOrder_cons]
    cases c with
    | error e =>
      cases d with
      | error e' => simp [fault?] at hone
      | ok g => rfl
    | ok f =>
      cases d with
      | error e' => rfl
      | ok g =>
        simp only [Except.map, Except.bind, inOrder_cons, hcd g f rfl rfl a]
  | trans hperm _ ih ih' =>
    have hsymm {c d : Except SettingsError (α → α)} (h : Commute c d) : Commute d c :=
      fun f g hf hg a => (h g f hg hf a).symm
    have hone' := hone
    rw [(hperm.filterMap fault?).length_eq] at hone'
    exact (ih hcomm hone a).trans (ih' (hperm.pairwise hcomm hsymm) hone' a)

theorem fault?_inOrder_eq_none_iff : fault? (inOrder cs a) = none ↔ cs.filterMap fault? = [] := by
  induction cs generalizing a with
  | nil => exact iff_of_true rfl rfl
  | cons c cs ih =>
    rw [inOrder_cons]
    cases c with
    | error e => simp [fault?, Except.map, Except.bind]
    | ok f => exact ih

/-- The faults of a section that a walk may come upon. Of an array only the first is ever found. -/
def sectionFaults (expected : String) (members : List (Member α)) (v : Value) (key : String) :
    List SettingsError :=
  match v with
  | .table _ es =>
    (members.map fun m => m.readFrom (es.lookup m.name) (key ++ "." ++ m.name)).filterMap fault?
  | .array _ vs =>
    ((members.zipIdx.map fun e =>
      e.1.readFrom vs[e.2]? (key ++ "[" ++ toString e.2 ++ "]")).filterMap fault?).take 1
  | .scalar .. => [.notASection v.found expected]

variable {expected key : String} {v v' : Value}

theorem fault?_readSection_eq_none_iff (w : Walk) :
    fault? (readSection w expected members a v key) = none ↔
      sectionFaults expected members v key = [] := by
  cases v with
  | scalar o x => simp [readSection, sectionFaults, fault?]
  | array o vs =>
    simp only [readSection, readArray, sectionFaults, fault?_inOrder_eq_none_iff,
      List.take_eq_nil_iff, Nat.one_ne_zero, false_or]
  | table o es =>
    simp only [readSection, readTable, sectionFaults, fault?_inOrder_eq_none_iff]
    have hperm := ((w.visit_perm .tree [key] name members).map fun m =>
      m.readFrom (es.lookup m.name) (key ++ "." ++ m.name)).filterMap fault?
    rw [← List.length_eq_zero_iff, hperm.length_eq, List.length_eq_zero_iff]

theorem commute_field {put : β → α → α} {put' : γ → α → α}
    (h : ∀ b c a, put b (put' c a) = put' c (put b a)) (j k : String)
    (read : Value → String → Except SettingsError β)
    (read' : Value → String → Except SettingsError γ) (x y : Option Value) (key key' : String) :
    Commute ((field j read put).readFrom x key) ((field k read' put').readFrom y key') := by
  intro f g hf hg a
  cases x with
  | none =>
    obtain rfl := Except.ok.inj hf
    rfl
  | some v =>
    cases y with
    | none =>
      obtain rfl := Except.ok.inj hg
      rfl
    | some v' =>
      simp only [readFrom, field] at hf hg
      cases hr : read v key with
      | error e => simp [hr, Except.map] at hf
      | ok b =>
        cases hr' : read' v' key' with
        | error e => simp [hr', Except.map] at hg
        | ok c =>
          rw [hr] at hf
          rw [hr'] at hg
          obtain rfl := Except.ok.inj hf
          obtain rfl := Except.ok.inj hg
          exact h b c a

theorem readSection_eq_of_faults (w w' : Walk)
    (hcomm : members.Pairwise fun m n =>
      ∀ x y key key', Commute (m.readFrom x key) (n.readFrom y key'))
    (hone : (sectionFaults expected members v key).length ≤ 1) :
    readSection w expected members a v key = readSection w' expected members a v key := by
  cases v with
  | scalar o x => rfl
  | array o vs => rfl
  | table o es =>
    have hpair : (members.map fun m =>
        m.readFrom (es.lookup m.name) (key ++ "." ++ m.name)).Pairwise Commute :=
      hcomm.map _ fun m n h => h _ _ _ _
    have hw (w : Walk) := (w.visit_perm .tree [key] name members).map fun m =>
      m.readFrom (es.lookup m.name) (key ++ "." ++ m.name)
    exact (inOrder_perm (hw w).symm hpair hone a).symm.trans
      (inOrder_perm (hw w').symm hpair hone a)

/-- The faults of a section that may be missing. -/
def faultsFrom (expected : String) (members : List (Member α)) (x : Option Value) (key : String) :
    List SettingsError :=
  x.elim [] fun v => sectionFaults expected members v key

section Sections

variable {put : α → β → β} {x : Option Value}

theorem fault?_section_eq_none_iff (w : Walk) (k : String) :
    fault? ((field k (readSection w expected members a) put).readFrom x key) = none ↔
      faultsFrom expected members x key = [] := by
  cases x with
  | none => exact iff_of_true rfl rfl
  | some v =>
    simp only [readFrom, field, fault?_map]
    exact fault?_readSection_eq_none_iff w

theorem length_fault?_section_le (w : Walk) (k : String) :
    (fault? ((field k (readSection w expected members a) put).readFrom x key)).toList.length ≤
      (faultsFrom expected members x key).length := by
  cases hfault : fault? ((field k (readSection w expected members a) put).readFrom x key) with
  | none => exact Nat.zero_le _
  | some e =>
    refine List.length_pos_of_ne_nil fun hnil => ?_
    rw [(fault?_section_eq_none_iff w k).mpr hnil] at hfault
    cases hfault

theorem section_eq_of_faults (w w' : Walk) (k : String)
    (hcomm : members.Pairwise fun m n =>
      ∀ x y key key', Commute (m.readFrom x key) (n.readFrom y key'))
    (hone : (faultsFrom expected members x key).length ≤ 1) :
    (field k (readSection w expected members a) put).readFrom x key =
      (field k (readSection w' expected members a) put).readFrom x key := by
  cases x with
  | none => rfl
  | some v =>
    simp only [readFrom, field]
    rw [readSection_eq_of_faults w w' hcomm hone]

end Sections

end Member

def watchdogFaults (tree : Value) : List SettingsError :=
  Member.faultsFrom "WatchdogConfig" [lockTimeout] (tree.entries.lookup "watchdog") "watchdog"

def dispatcherFaults (tree : Value) : List SettingsError :=
  Member.faultsFrom "DispatcherConfig" [dispatcherName, slowTurnWarn]
    (tree.entries.lookup "dispatcher") "dispatcher"

/-- The faults of the sections and fields of a tree that cannot be read. -/
def Value.faults (tree : Value) : List SettingsError := watchdogFaults tree ++ dispatcherFaults tree

def sectionChanges (w : Walk) (tree : Value) : List (Except SettingsError (Settings → Settings)) :=
  [(watchdogSection w).readFrom (tree.entries.lookup "watchdog") "watchdog",
    (dispatcherSection w).readFrom (tree.entries.lookup "dispatcher") "dispatcher"]

theorem exists_decode_eq_inOrder (w : Walk) (tree : Value) :
    ∃ cs, cs.Perm (sectionChanges w tree) ∧ decode w tree = Member.inOrder cs {} :=
  ⟨_, (w.visit_perm .tree [] Member.name _).map _, rfl⟩

theorem commute_sectionChanges (w : Walk) (tree : Value) :
    (sectionChanges w tree).Pairwise Member.Commute := by
  refine List.pairwise_pair.mpr (Member.commute_field ?_ _ _ _ _ _ _ _ _)
  exact fun _ _ _ => rfl

theorem sectionChanges_eq (w w' : Walk) {tree : Value} (hone : tree.faults.length ≤ 1) :
    sectionChanges w tree = sectionChanges w' tree := by
  rw [Value.faults, List.length_append] at hone
  have hw : (watchdogFaults tree).length ≤ 1 := by omega
  have hd : (dispatcherFaults tree).length ≤ 1 := by omega
  have hcomm : [dispatcherName, slowTurnWarn].Pairwise fun m n =>
      ∀ x y key key', Member.Commute (m.readFrom x key) (n.readFrom y key') := by
    refine List.pairwise_pair.mpr (Member.commute_field ?_ _ _ _ _)
    exact fun _ _ _ => rfl
  rw [sectionChanges, watchdogSection, dispatcherSection,
    Member.section_eq_of_faults w w' _ (List.pairwise_singleton _ _) hw,
    Member.section_eq_of_faults w w' _ hcomm hd]
  rfl

theorem length_filterMap_sectionChanges_le (w : Walk) (tree : Value) :
    ((sectionChanges w tree).filterMap fault?).length ≤ tree.faults.length := by
  rw [List.filterMap_eq_flatMap_toList, Value.faults, List.length_append]
  simp only [sectionChanges, List.flatMap_cons, List.flatMap_nil, List.append_nil,
    List.length_append]
  exact Nat.add_le_add (Member.length_fault?_section_le w _) (Member.length_fault?_section_le w _)

/-- Where no more than one part of a tree cannot be read, all walks decode the same from it. -/
theorem decode_eq_of_faults (w w' : Walk) {tree : Value} (hone : tree.faults.length ≤ 1) :
    decode w tree = decode w' tree := by
  obtain ⟨cs, hcs, hdecode⟩ := exists_decode_eq_inOrder w tree
  obtain ⟨cs', hcs', hdecode'⟩ := exists_decode_eq_inOrder w' tree
  -- the two walks make the same changes in different orders, and no two of them are faults
  have hcomm := commute_sectionChanges w tree
  have hfaults := Nat.le_trans (length_filterMap_sectionChanges_le w tree) hone
  rw [← sectionChanges_eq w w' hone] at hcs'
  rw [hdecode, hdecode']
  exact (Member.inOrder_perm hcs.symm hcomm hfaults {}).symm.trans
    (Member.inOrder_perm hcs'.symm hcomm hfaults {})

theorem faults_eq_nil_of_ok {w : Walk} {tree : Value} {s : Settings} (h : decode w tree = .ok s) :
    tree.faults = [] := by
  obtain ⟨cs, hcs, hdecode⟩ := exists_decode_eq_inOrder w tree
  have hnone : cs.filterMap fault? = [] :=
    Member.fault?_inOrder_eq_none_iff.mp (by rw [← hdecode, h]; rfl)
  have hnil := (hcs.filterMap fault?).symm
  rw [hnone, List.perm_nil, List.filterMap_eq_nil_iff] at hnil
  have hw : watchdogFaults tree = [] :=
    (Member.fault?_section_eq_none_iff w _).mp (hnil _ (.head _))
  have hd : dispatcherFaults tree = [] :=
    (Member.fault?_section_eq_none_iff w _).mp (hnil _ (.tail _ (.head _)))
  rw [Value.faults, hw, hd, List.append_nil]

end Turnstile.Settings
