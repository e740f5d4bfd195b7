import Mathlib.Data.List.Perm.Basic
import Turnstile.Proofs.Settings.Same

namespace Turnstile.Settings

namespace Value

mutual

/-- What setting a value at a path writes: a table is merged entry by entry, down to what is no
table or an empty one. -/
def writes (path : List Segment) : Value → List (List Segment × Value)
  | table o es => if es = [] then [(path, table o [])] else writesOf path es
  | scalar o x => [(path, scalar o x)]
  | array o vs => [(path, array o vs)]

def writesOf (path : List Segment) : List (String × Value) → List (List Segment × Value)
  | [] => []
  | (k, v) :: es => v.writes (path ++ [.key k]) ++ writesOf path es

end

def write (tree : Value) (e : List Segment × Value) : Value := tree.setPath e.1 e.2

variable {es : List (String × Value)} {v w : Value} {k : String} {path : List Segment}

theorem foldl_update {α : Type} {xs : List α} (hxs : xs ≠ []) (v : Value) (k : String) (d : Value)
    (g : Value → α → Value) :
    xs.foldl (fun t x => t.update k fun old => g (old.getD d) x) v =
      v.update k fun old => xs.foldl g (old.getD d) := by
  induction xs generalizing v with
  | nil => exact (hxs rfl).elim
  | cons x xs ih =>
    by_cases h : xs = []
    · subst xs
      rfl
    · rw [List.foldl_cons, ih h, update_update]
      rfl

theorem foldl_updateElement {α : Type} {xs : List α} (hxs : xs ≠ []) (v : Value) (i : Int)
    (g : Value → α → Value) :
    xs.foldl (fun t x => t.updateElement i fun old => g old x) v =
      v.updateElement i fun old => xs.foldl g old := by
  induction xs generalizing v with
  | nil => exact (hxs rfl).elim
  | cons x xs ih =>
    by_cases h : xs = []
    · subst xs
      rfl
    · rw [List.foldl_cons, ih h, updateElement_updateElement]
      rfl

theorem mergeInto_eq_foldl (v : Value) (es : List (String × Value)) :
    mergeInto v es = es.foldl (fun t e => t.setKey e.1 e.2) v := by
  induction es generalizing v with
  | nil => simp only [mergeInto, List.foldl_nil]
  | cons e es ih =>
    rw [mergeInto, ih]
    rfl

theorem mergeInto_getD (hes : es ≠ []) (old : Option Value) :
    mergeInto (old.getD emptyTable) es = es.foldl (fun t e => t.setKey e.1 e.2) (old.getD nil) := by
  rw [mergeInto_eq_foldl]
  cases old with
  | some v => rfl
  | none =>
    cases es with
    | nil => exact (hes rfl).elim
    | cons e es =>
      have hfirst : (none.getD emptyTable : Value).setKey e.1 e.2 =
          (none.getD nil : Value).setKey e.1 e.2 := by
        cases e.2 <;> simp only [setKey] <;> rfl
      rw [List.foldl_cons, List.foldl_cons, hfirst]

theorem setPath_table (hes : es ≠ []) (path : List Segment) (k : String) (o : Option String)
    (v : Value) :
    v.setPath (path ++ [.key k]) (.table o es) =
      es.foldl (fun t e => t.setPath (path ++ [.key k] ++ [.key e.1]) e.2) v := by
  induction path generalizing v with
  | nil =>
    have hone (t : Value) (e : String × Value) : t.setPath [.key k, .key e.1] e.2 =
        t.update (foldCase k) fun old => (old.getD nil).setKey e.1 e.2 := by
      simp only [setPath]
    simp only [List.nil_append, List.cons_append, hone, setPath, setKey, mergeInto_getD hes]
    exact (foldl_update hes v (foldCase k) nil fun t e => t.setKey e.1 e.2).symm
  | cons s path ih =>
    cases s with
    | key j =>
      have hrest (t : Value) (rest : List Segment) (x : Value) :
          t.setPath (.key j :: (path ++ [.key k] ++ rest)) x =
            t.update (foldCase j) fun old => (old.getD nil).setPath (path ++ [.key k] ++ rest) x :=
        setPath_cons_key (by simp) t j x
      have hnil := hrest v [] (.table o es)
      simp only [List.append_nil] at hnil
      simp only [List.cons_append, hrest, hnil, ih]
      exact (foldl_update hes v (foldCase j) nil fun t e =>
        t.setPath (path ++ [.key k] ++ [.key e.1]) e.2).symm
    | index i => simp only [List.cons_append, setPath_cons_index, foldl_updateElement hes, ih]

mutual

theorem foldl_writes (path : List Segment) (k : String) (x v : Value) :
    (x.writes (path ++ [.key k])).foldl write v = v.setPath (path ++ [.key k]) x := by
  match x with
  | scalar o y => simp only [writes, List.foldl_cons, List.foldl_nil, write]
  | array o vs => simp only [writes, List.foldl_cons, List.foldl_nil, write]
  | table o es =>
    simp only [writes]
    split
    · subst es
      simp only [List.foldl_cons, List.foldl_nil, write]
    · rename_i hes
      rw [foldl_writesOf, setPath_table hes]

theorem foldl_writesOf (path : List Segment) (es : List (String × Value)) (v : Value) :
    (writesOf path es).foldl write v =
      es.foldl (fun t e => t.setPath (path ++ [.key e.1]) e.2) v := by
  match es with
  | [] => simp only [writesOf, List.foldl_nil]
  | (k, x) :: es =>
    simp only [writesOf, List.foldl_append, foldl_writes path k x, foldl_writesOf path es,
      List.foldl_cons]

end

theorem writesOf_eq_flatMap (path : List Segment) (es : List (String × Value)) :
    writesOf path es = es.flatMap fun e => e.2.writes (path ++ [.key e.1]) := by
  induction es with
  | nil => rfl
  | cons e es ih =>
    rw [writesOf, ih]
    rfl

mutual

theorem writes_value_perm (w : Walk) (layer : Layer) (names : List String) (path : List Segment)
    (x : Value) : ((w.value layer names x).writes path).Perm (x.writes path) := by
  match x with
  | scalar o y => simp only [Walk.value, List.Perm.refl]
  | array o vs => simp only [Walk.value, List.Perm.refl]
  | table o es =>
    have hvisit := w.visit_perm layer names Prod.fst (w.entries layer names es)
    have hes : w.visit layer names Prod.fst (w.entries layer names es) = [] ↔ es = [] := by
      rw [← List.length_eq_zero_iff, hvisit.length_eq, List.length_eq_zero_iff]
      cases es <;> simp [Walk.entries]
    simp only [Walk.value, writes, hes]
    split
    · exact .refl _
    · refine .trans ?_ (writesOf_entries_perm w layer names path es)
      rw [writesOf_eq_flatMap, writesOf_eq_flatMap]
      exact hvisit.flatMap_right _

theorem writesOf_entries_perm (w : Walk) (layer : Layer) (names : List String)
    (path : List Segment) (es : List (String × Value)) :
    (writesOf path (w.entries layer names es)).Perm (writesOf path es) := by
  match es with
  | [] => simp only [Walk.entries, List.Perm.refl]
  | (k, x) :: es =>
    simp only [Walk.entries, writesOf]
    exact (writes_value_perm w layer _ _ x).append (writesOf_entries_perm w layer names path es)

end

end Value

open Value

def entryWrites (e : String × Value) : List (List Segment × Value) :=
  if Segment.endsInKey (Segment.pathOf e.1) then e.2.writes (Segment.pathOf e.1)
  else [(Segment.pathOf e.1, e.2)]

theorem foldl_entryWrites (e : String × Value) (v : Value) :
    (entryWrites e).foldl write v = v.setPath (Segment.pathOf e.1) e.2 := by
  unfold entryWrites
  split
  · rename_i hkey
    unfold Segment.endsInKey at hkey
    split at hkey
    · rename_i k hlast
      obtain ⟨path, hpath⟩ := List.getLast?_eq_some_iff.mp hlast
      rw [hpath, foldl_writes]
    · cases hkey
  · rfl

def Source.writes (source : Source) : List (List Segment × Value) := source.flatMap entryWrites

theorem overlay_eq_foldl (tree : Value) (source : Source) :
    tree.overlay source = (Source.writes source).foldl write tree := by
  rw [Source.writes, List.foldl_flatMap]
  simp only [foldl_entryWrites]
  rfl

/-- No two writes of a source come upon one another: what it makes of a tree hangs on no order. -/
def Source.Apart (source : Source) : Prop :=
  ((Source.writes source).map Prod.fst).Pairwise fun p q => Segment.apart p q = true

instance (source : Source) : Decidable (Source.Apart source) :=
  inferInstanceAs (Decidable (List.Pairwise _ _))

theorem entryWrites_entry_perm (w : Walk) (layer : Layer) (e : String × Value) :
    (entryWrites (w.entry layer e)).Perm (entryWrites e) := by
  unfold Walk.entry
  split
  · rename_i hkey
    simp only [entryWrites, hkey, ↓reduceIte]
    exact writes_value_perm w layer _ _ e.2
  · rfl

theorem writes_source_perm (w : Walk) (layer : Layer) (source : Source) :
    (Source.writes (w.source layer source)).Perm (Source.writes source) := by
  rw [Source.writes, Walk.source, List.flatMap_map]
  exact (w.visit_perm layer [] Prod.fst source).flatMap fun e _ => entryWrites_entry_perm w layer e

theorem Value.Same.foldl_write {v v' : Value} (h : Same v v')
    (writes : List (List Segment × Value)) :
    Same (writes.foldl write v) (writes.foldl write v') := by
  induction writes generalizing v v' with
  | nil => exact h
  | cons e writes ih => exact ih (h.setPath e.1 e.2)

theorem Value.Same.foldl_write_perm {writes writes' : List (List Segment × Value)}
    (hperm : writes.Perm writes')
    (hapart : (writes.map Prod.fst).Pairwise fun p q => Segment.apart p q = true)
    {v v' : Value} (h : Same v v') : Same (writes.foldl write v) (writes'.foldl write v') := by
  induction hperm generalizing v v' with
  | nil => exact h
  | cons e hperm ih => exact ih (List.pairwise_cons.mp hapart).2 (h.setPath e.1 e.2)
  | swap d e writes =>
    have hed : Segment.apart e.1 d.1 = true := by
      simp only [List.map_cons, List.pairwise_cons, List.forall_mem_cons] at hapart
      exact hapart.1.1
    have hswap : Same (write (write v e) d) (write (write v' d) e) :=
      (setPath_comm hed v e.2 d.2).trans ((h.setPath d.1 d.2).setPath e.1 e.2)
    exact hswap.foldl_write writes
  | trans hperm _ ih ih' =>
    have hsymm {p q : List Segment} (hpq : Segment.apart p q = true) : Segment.apart q p = true :=
      Segment.apart_comm p q ▸ hpq
    exact (ih hapart rfl).trans (ih' ((hperm.map Prod.fst).pairwise hapart hsymm) h)

/-- In whatever order two walks come upon the entries of a source, the same is laid over a tree. -/
theorem Value.Same.overlay {source : Source} (hapart : Source.Apart source) {v v' : Value}
    (h : Same v v') (layer : Layer) (w w' : Walk) :
    Same (v.overlay (w.source layer source)) (v'.overlay (w'.source layer source)) := by
  have hw (w : Walk) {v v' : Value} (h : Same v v') :
      Same ((Source.writes source).foldl write v)
        ((Source.writes (w.source layer source)).foldl write v') :=
    h.foldl_write_perm (writes_source_perm w layer source).symm hapart
  rw [overlay_eq_foldl, overlay_eq_foldl]
  exact (hw w rfl).symm.trans (hw w' h)

end Turnstile.Settings
