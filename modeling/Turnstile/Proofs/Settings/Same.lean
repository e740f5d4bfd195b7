import Mathlib.Tactic.SplitIfs
import Turnstile.Settings.Walk

namespace Turnstile.Settings

namespace Value

def child? (v : Value) : String ⊕ Nat → Option Value
  | .inl k => v.entries.lookup k
  | .inr n => v.elements[n]?

def head : Value → Value
  | scalar o x => scalar o x
  | table o _ => table o []
  | array o _ => array o []

/-- What is found at the end of a path of keys and places. -/
def look : Value → List (String ⊕ Nat) → Option Value
  | v, [] => some v.head
  | v, s :: path => (v.child? s).bind fun w => w.look path

/-- Two trees differ in nothing but the order of the entries in their tables. -/
def Same (v w : Value) : Prop := v.look = w.look

variable {v w : Value} {j k : String} {f g : Option Value → Value}

theorem Same.head_eq (h : Same v w) : v.head = w.head := Option.some.inj (congrFun h [])

theorem Same.child?_eq (h : Same v w) (s : String ⊕ Nat) :
    (v.child? s).map look = (w.child? s).map look := by
  have hs (path : List (String ⊕ Nat)) :
      ((v.child? s).bind fun u => u.look path) = (w.child? s).bind fun u => u.look path :=
    congrFun h (s :: path)
  cases hv : v.child? s with
  | none =>
    cases hw : w.child? s with
    | none => rfl
    | some u => simpa [hv, hw, look] using hs []
  | some t =>
    cases hw : w.child? s with
    | none => simpa [hv, hw, look] using hs []
    | some u =>
      simp only [hv, hw, Option.bind_some] at hs
      simp only [Option.map_some, funext hs]

theorem same_of_child? (hh : v.head = w.head)
    (hc : ∀ s, (v.child? s).map look = (w.child? s).map look) : Same v w := by
  funext path
  cases path with
  | nil => exact congrArg some hh
  | cons s path =>
    have h := congrArg (fun o : Option _ => o.bind fun l => l path) (hc s)
    simpa [look, Option.bind_map, Function.comp_def] using h

theorem child?_update_key (v : Value) (k j : String) (f : Option Value → Value) :
    (v.update k f).child? (.inl j) =
      if k = j then some (f (v.child? (.inl k))) else v.child? (.inl j) := by
  cases v <;> exact Assoc.lookup_upsert k j f _

theorem child?_update_place (v : Value) (k : String) (f : Option Value → Value) (n : Nat) :
    (v.update k f).child? (.inr n) = none := by
  cases v <;> rfl

theorem head_update (h : v.head = w.head) (j k : String) (f g : Option Value → Value) :
    (v.update j f).head = (w.update k g).head := by
  cases v <;> cases w <;> simp_all [head, update]

theorem same_getD {a b : Option Value} (h : a.map look = b.map look) (d : Value) :
    Same (a.getD d) (b.getD d) := by
  cases a <;> cases b <;> simp_all [Same]

theorem Same.update (h : Same v w)
    (hfg : ∀ a b : Option Value, a.map look = b.map look → Same (f a) (g b)) (k : String) :
    Same (v.update k f) (w.update k g) := by
  refine same_of_child? (head_update h.head_eq k k f g) fun s => ?_
  cases s with
  | inl j =>
    rw [child?_update_key, child?_update_key]
    split
    · exact congrArg some (hfg _ _ (h.child?_eq _))
    · exact h.child?_eq _
  | inr n => rw [child?_update_place, child?_update_place]

theorem update_comm (h : j ≠ k) (v : Value) (f g : Option Value → Value) :
    Same ((v.update j f).update k g) ((v.update k g).update j f) := by
  refine same_of_child? ?_ fun s => ?_
  · cases v <;> rfl
  · cases s with
    | inr n => rw [child?_update_place, child?_update_place]
    | inl i =>
      simp only [child?_update_key]
      by_cases hj : j = i
      · subst i
        simp [Ne.symm h]
      · by_cases hk : k = i <;> simp [hj, hk]

theorem update_update (v : Value) (k : String) (f g : Option Value → Value) :
    (v.update k f).update k g = v.update k fun a => g (some (f a)) := by
  cases v <;> simp [update, Assoc.upsert_upsert]

theorem Same.length_elements (h : Same v w) : v.elements.length = w.elements.length := by
  have hle (n : Nat) : v.elements.length ≤ n ↔ w.elements.length ≤ n := by
    have hn := congrArg (· = none) (h.child?_eq (.inr n))
    simpa only [child?, Option.map_eq_none_iff, List.getElem?_eq_none_iff, eq_iff_iff] using hn
  exact Nat.le_antisymm ((hle _).mpr (Nat.le_refl _)) ((hle _).mp (Nat.le_refl _))

theorem elements_updateElement (v : Value) (i : Int) (f : Value → Value) :
    let place := position i v.elements.length
    (v.updateElement i f).elements = (v.elements ++
      List.replicate (place + 1 - v.elements.length) nil).modify place f := by
  intro place
  cases v <;> rfl

/-- What stands at a place; what lies behind the end counts as nil. -/
def element (v : Value) (n : Nat) : Value := (v.child? (.inr n)).getD nil

theorem child?_updateElement_key (v : Value) (i : Int) (f : Value → Value) (k : String) :
    (v.updateElement i f).child? (.inl k) = none := by
  cases v <;> rfl

theorem child?_updateElement_place (v : Value) (i : Int) (f : Value → Value) (n : Nat) :
    (v.updateElement i f).child? (.inr n) =
      if n = position i v.elements.length then some (f (v.element n))
      else if n < v.elements.length ∨ n < position i v.elements.length + 1 then
        some (v.element n)
      else none := by
  simp only [element, child?, elements_updateElement, List.getElem?_modify, List.getElem?_append,
    List.getElem?_replicate]
  generalize v.elements = vs
  generalize position i vs.length = p
  by_cases hp : n = p
  · subst n
    by_cases hn : p < vs.length
    · simp [hn]
    · simp [hn, show p - vs.length < p + 1 - vs.length by omega]
  · by_cases hn : n < vs.length
    · simp [hn, hp, Ne.symm hp]
    · by_cases hm : n < p + 1
      · simp [hn, hp, Ne.symm hp, hm, show n - vs.length < p + 1 - vs.length by omega]
      · simp [hn, hp, Ne.symm hp, hm, show ¬ n - vs.length < p + 1 - vs.length by omega]

theorem element_updateElement (v : Value) (i : Int) (f : Value → Value) (n : Nat) :
    (v.updateElement i f).element n =
      if n = position i v.elements.length then f (v.element n) else v.element n := by
  have hend (h : ¬ n < v.elements.length) : v.element n = nil := by
    rw [element, child?, List.getElem?_eq_none (Nat.le_of_not_lt h)]
    rfl
  rw [element, child?_updateElement_place]
  split_ifs with hp hn
  · rfl
  · rfl
  · exact (hend fun h => hn (.inl h)).symm

theorem Same.updateElement {f g : Value → Value} (h : Same v w)
    (hfg : ∀ a b, Same a b → Same (f a) (g b)) (i : Int) :
    Same (v.updateElement i f) (w.updateElement i g) := by
  have helement (n : Nat) : Same (v.element n) (w.element n) := same_getD (h.child?_eq (.inr n)) nil
  have hhead : (v.updateElement i f).head = (w.updateElement i g).head := by
    have := h.head_eq
    cases v <;> cases w <;> simp_all [head, Value.updateElement]
  refine same_of_child? hhead fun s => ?_
  cases s with
  | inl k => rw [child?_updateElement_key, child?_updateElement_key]
  | inr n =>
    rw [child?_updateElement_place, child?_updateElement_place, h.length_elements]
    split
    · exact congrArg some (hfg _ _ (helement n))
    · split
      · exact congrArg some (helement n)
      · rfl

theorem length_updateElement (v : Value) (i : Int) (f : Value → Value) :
    (v.updateElement i f).elements.length =
      max v.elements.length (position i v.elements.length + 1) := by
  rw [elements_updateElement, List.length_modify, List.length_append, List.length_replicate]
  omega

/-- An index means the same place before and after the array has grown up to it. -/
theorem position_max (i : Int) (n : Nat) :
    position i (max n (position i n + 1)) = position i n := by
  unfold position
  split <;> omega

theorem updateElement_updateElement (v : Value) (i : Int) (f g : Value → Value) :
    (v.updateElement i f).updateElement i g = v.updateElement i fun a => g (f a) := by
  have hplace (n : Nat) : ((v.updateElement i f).updateElement i g).child? (.inr n) =
      (v.updateElement i fun a => g (f a)).child? (.inr n) := by
    rw [child?_updateElement_place, child?_updateElement_place, element_updateElement,
      length_updateElement, position_max]
    split_ifs <;> first | rfl | omega
  cases v <;> exact congrArg (array _) (List.ext_getElem? hplace)

theorem updateElement_comm {i j : Int} (hi : 0 ≤ i) (hj : 0 ≤ j) (h : i ≠ j) (v : Value)
    (f g : Value → Value) :
    Same ((v.updateElement i f).updateElement j g) ((v.updateElement j g).updateElement i f) := by
  refine same_of_child? (by cases v <;> rfl) fun s => ?_
  cases s with
  | inl k => rw [child?_updateElement_key, child?_updateElement_key]
  | inr n =>
    have hne : i.toNat ≠ j.toNat := by omega
    rw [child?_updateElement_place, child?_updateElement_place, element_updateElement,
      element_updateElement, length_updateElement, length_updateElement]
    simp only [position, hi, hj, if_true]
    split_ifs <;> first | rfl | omega

mutual

theorem Same.setKey {v w : Value} (h : Same v w) (k : String) (x : Value) :
    Same (v.setKey k x) (w.setKey k x) := by
  match x with
  | scalar o y =>
    simp only [Value.setKey]
    exact h.update (fun _ _ _ => rfl) _
  | array o vs =>
    simp only [Value.setKey]
    exact h.update (fun _ _ _ => rfl) _
  | table o es =>
    simp only [Value.setKey]
    exact h.update (fun a b hab => mergeInto (same_getD hab _) es) _

theorem Same.mergeInto {v w : Value} (h : Same v w) (es : List (String × Value)) :
    Same (Value.mergeInto v es) (Value.mergeInto w es) := by
  match es with
  | [] =>
    simp only [Value.mergeInto]
    exact h
  | (k, x) :: es =>
    simp only [Value.mergeInto]
    exact mergeInto (setKey h k x) es

end

theorem setPath_cons_key {rest : List Segment} (hrest : rest ≠ []) (v : Value) (k : String)
    (x : Value) :
    v.setPath (.key k :: rest) x =
      v.update (foldCase k) fun old => (old.getD nil).setPath rest x := by
  cases rest with
  | nil => exact (hrest rfl).elim
  | cons s rest => simp only [setPath]

theorem setPath_cons_index (v : Value) (i : Int) (rest : List Segment) (x : Value) :
    v.setPath (.index i :: rest) x = v.updateElement i fun old => old.setPath rest x := by
  simp only [setPath]

theorem exists_setPath_key (k : String) (rest : List Segment) (x : Value) :
    ∃ f, ∀ v : Value, v.setPath (.key k :: rest) x = v.update (foldCase k) f := by
  cases rest with
  | cons s rest => exact ⟨_, fun v => setPath_cons_key (by simp) v k x⟩
  | nil =>
    cases x with
    | scalar o y => exact ⟨fun _ => scalar o y, fun v => by simp only [setPath, setKey]⟩
    | array o vs => exact ⟨fun _ => array o vs, fun v => by simp only [setPath, setKey]⟩
    | table o es =>
      exact ⟨fun old => mergeInto (old.getD emptyTable) es, fun v => by simp only [setPath, setKey]⟩

theorem Same.setPath (h : Same v w) (path : List Segment) (x : Value) :
    Same (v.setPath path x) (w.setPath path x) := by
  induction path generalizing v w with
  | nil => simp only [Value.setPath, Same]
  | cons s rest ih =>
    cases s with
    | index i =>
      rw [setPath_cons_index, setPath_cons_index]
      exact h.updateElement (fun a b hab => ih hab) i
    | key k =>
      by_cases hrest : rest = []
      · subst rest
        simp only [Value.setPath]
        exact h.setKey k x
      · rw [setPath_cons_key hrest, setPath_cons_key hrest]
        exact h.update (fun a b hab => ih (same_getD hab nil)) _

end Value

namespace Segment

/-- Neither of two paths leads to the other: they go to different keys, or to different places
counted from the front, after the part that they share. -/
def apart : List Segment → List Segment → Bool
  | .key j :: p, .key k :: q => Value.foldCase j ≠ Value.foldCase k || apart p q
  | .index i :: p, .index j :: q => 0 ≤ i && 0 ≤ j && i ≠ j || i = j && apart p q
  | _, _ => false

theorem ne_nil_of_apart {p q : List Segment} (h : apart p q = true) : p ≠ [] ∧ q ≠ [] := by
  constructor
  · rintro rfl
    simp [apart] at h
  · rintro rfl
    cases p with
    | nil => simp [apart] at h
    | cons s p => cases s <;> simp [apart] at h

theorem apart_comm (p q : List Segment) : apart p q = apart q p := by
  induction p generalizing q with
  | nil => cases q <;> simp [apart]
  | cons s p ih =>
    cases q with
    | nil => cases s <;> simp [apart]
    | cons t q =>
      cases s <;> cases t <;> simp only [apart, ih q] <;> grind

end Segment

namespace Value

/-- Writing at paths that are apart leaves the same tree in either order. -/
theorem setPath_comm {p q : List Segment} (h : Segment.apart p q = true) (v x y : Value) :
    Same ((v.setPath p x).setPath q y) ((v.setPath q y).setPath p x) := by
  induction p generalizing q v with
  | nil => exact absurd rfl (Segment.ne_nil_of_apart h).1
  | cons s p ih =>
    cases q with
    | nil => exact absurd rfl (Segment.ne_nil_of_apart h).2
    | cons t q =>
      cases s with
      | key j =>
        cases t with
        | index i => simp [Segment.apart] at h
        | key k =>
          by_cases hk : foldCase j = foldCase k
          · -- both go on below the same key, where the rests of the paths are apart
            have hpq : Segment.apart p q = true := by simpa [Segment.apart, hk] using h
            obtain ⟨hp, hq⟩ := Segment.ne_nil_of_apart hpq
            rw [setPath_cons_key hp, setPath_cons_key hq, setPath_cons_key hq, setPath_cons_key hp,
              hk, update_update, update_update]
            exact Same.update rfl (fun a b hab =>
              (ih hpq (a.getD nil)).trans (((same_getD hab nil).setPath q y).setPath p x)) _
          · obtain ⟨f, hf⟩ := exists_setPath_key j p x
            obtain ⟨g, hg⟩ := exists_setPath_key k q y
            rw [hf, hg, hg, hf]
            exact update_comm hk v f g
      | index i =>
        cases t with
        | key k => simp [Segment.apart] at h
        | index j =>
          simp only [setPath_cons_index]
          by_cases hij : i = j
          · subst j
            have hpq : Segment.apart p q = true := by simpa [Segment.apart] using h
            rw [updateElement_updateElement, updateElement_updateElement]
            exact Same.updateElement rfl (fun a b hab =>
              (ih hpq a).trans ((hab.setPath q y).setPath p x)) i
          · obtain ⟨hi, hj⟩ : 0 ≤ i ∧ 0 ≤ j := by simpa [Segment.apart, hij] using h
            exact updateElement_comm hi hj hij v _ _

end Value

end Turnstile.Settings
