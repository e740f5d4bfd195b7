import Turnstile.Settings.Path

namespace Turnstile.Settings

/-- Whose tables are visited: those of the sources, entry by entry as they are merged, and those of
the merged tree, field by field as they are read. -/
inductive Layer where
  | base
  | file
  | environment
  | tree
deriving DecidableEq, Repr

/-- The orders in which tables are visited. A table keeps no order, so each of them may be any order
of the places of what is visited, and different ones for tables of the same keys. -/
structure Walk where
  order : Layer → (path names : List String) → List Nat
  perm : ∀ layer path names, (order layer path names).Perm (List.range names.length)

namespace Walk

def listed : Walk := ⟨fun _ _ names => List.range names.length, fun _ _ _ => .refl _⟩

variable {α : Type}

def visit (w : Walk) (layer : Layer) (path : List String) (name : α → String) (xs : List α) :
    List α :=
  (w.order layer path (xs.map name)).filterMap (xs[·]?)

theorem visit_perm (w : Walk) (layer : Layer) (path : List String) (name : α → String)
    (xs : List α) : (w.visit layer path name xs).Perm xs := by
  have hall : ∀ ys : List α, (List.range ys.length).filterMap (ys[·]?) = ys := by
    intro ys
    induction ys with
    | nil => rfl
    | cons y ys ih =>
      rw [List.length_cons, List.range_succ_eq_map, List.filterMap_cons, List.filterMap_map]
      exact congrArg (y :: ·) ih
  have hperm := (w.perm layer path (xs.map name)).filterMap (xs[·]?)
  rwa [List.length_map, hall] at hperm

mutual

/-- A value with the entries of its tables in the order in which they are visited. The tables within
an array are never merged. -/
def value (w : Walk) (layer : Layer) (path : List String) : Value → Value
  | .table o es => .table o (w.visit layer path Prod.fst (w.entries layer path es))
  | .scalar o x => .scalar o x
  | .array o vs => .array o vs

def entries (w : Walk) (layer : Layer) (path : List String) :
    List (String × Value) → List (String × Value)
  | [] => []
  | (k, v) :: es => (k, w.value layer (path ++ [k]) v) :: w.entries layer path es

end

/-- What an index leads to is put in place as a whole. -/
def entry (w : Walk) (layer : Layer) (e : String × Value) : String × Value :=
  if Segment.endsInKey (Segment.pathOf e.1) then (e.1, w.value layer [e.1] e.2) else e

def source (w : Walk) (layer : Layer) (source : Source) : Source :=
  (w.visit layer [] Prod.fst source).map (w.entry layer)

end Walk

end Turnstile.Settings
