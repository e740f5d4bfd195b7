namespace Turnstile

namespace Assoc

variable {κ α : Type} [DecidableEq κ] {k : κ} {a : α} {es : List (κ × α)}

/-- Puts under `k` what `f` makes of the value there, if there is one. -/
def upsert (k : κ) (f : Option α → α) : List (κ × α) → List (κ × α)
  | [] => [(k, f none)]
  | e :: es => if e.1 = k then (k, f (some e.2)) :: es else e :: upsert k f es

def put (k : κ) (a : α) : List (κ × α) → List (κ × α) := upsert k fun _ => a

theorem lookup_cons (k : κ) (e : κ × α) (es : List (κ × α)) :
    (e :: es).lookup k = if e.1 = k then some e.2 else es.lookup k := by
  obtain ⟨j, a⟩ := e
  by_cases h : j = k
  · simp [h]
  · have hb : (k == j) = false := beq_false_of_ne (Ne.symm h)
    simp [List.lookup_cons, hb, h]

theorem lookup_upsert (k j : κ) (f : Option α → α) (es : List (κ × α)) :
    (upsert k f es).lookup j = if k = j then some (f (es.lookup k)) else es.lookup j := by
  induction es with
  | nil => simp [upsert, lookup_cons]
  | cons e es ih =>
    by_cases he : e.1 = k
    · subst k
      simp only [upsert, ↓reduceIte, lookup_cons]
      split <;> rfl
    · simp only [upsert, he, ↓reduceIte, lookup_cons, ih]
      by_cases hj : e.1 = j
      · subst j
        simp [Ne.symm he]
      · simp [hj]

theorem mem_upsert {f : Option α → α} {e : κ × α} (h : e ∈ upsert k f es) :
    e = (k, f (es.lookup k)) ∨ e ∈ es := by
  induction es with
  | nil => exact .inl (List.mem_singleton.mp h)
  | cons e' es ih =>
    rw [lookup_cons]
    by_cases he : e'.1 = k
    · simp only [upsert, he, ↓reduceIte, List.mem_cons] at h ⊢
      exact h.imp id .inr
    · simp only [upsert, he, ↓reduceIte, List.mem_cons] at h ⊢
      obtain h | h := h
      · exact .inr (.inl h)
      · exact (ih h).imp id .inr

theorem mem_of_lookup (h : es.lookup k = some a) : (k, a) ∈ es := by
  obtain ⟨before, after, rfl, -⟩ := List.lookup_eq_some_iff.mp h
  simp

theorem upsert_upsert (k : κ) (f g : Option α → α) (es : List (κ × α)) :
    upsert k g (upsert k f es) = upsert k (fun a => g (some (f a))) es := by
  induction es with
  | nil => simp [upsert]
  | cons e es ih => by_cases he : e.1 = k <;> simp [upsert, he, ih]

theorem upsert_of_lookup {f : Option α → α} (h : es.lookup k = some a) (hf : f (some a) = a) :
    upsert k f es = es := by
  induction es with
  | nil => cases h
  | cons e es ih =>
    rw [lookup_cons] at h
    by_cases he : e.1 = k
    · subst k
      obtain rfl : e.2 = a := by simpa using h
      simp [upsert, hf]
    · rw [if_neg he] at h
      simp [upsert, he, ih h]

theorem upsert_of_lookup_eq_none (f : Option α → α) (h : es.lookup k = none) :
    upsert k f es = es ++ [(k, f none)] := by
  induction es with
  | nil => rfl
  | cons e es ih =>
    rw [lookup_cons] at h
    by_cases he : e.1 = k
    · simp [he] at h
    · rw [if_neg he] at h
      simp [upsert, he, ih h]

end Assoc

/-- Entries in the order in which their keys first came. -/
structure Table (κ α : Type) where
  entries : List (κ × α) := []
deriving DecidableEq, Repr

namespace Table

variable {κ α : Type} [DecidableEq κ]

def get? (t : Table κ α) (k : κ) : Option α := t.entries.lookup k

def put (t : Table κ α) (k : κ) (a : α) : Table κ α := ⟨Assoc.put k a t.entries⟩

def contains (t : Table κ α) (k : κ) : Bool := (t.get? k).isSome

theorem get?_put (t : Table κ α) (k j : κ) (a : α) :
    (t.put k a).get? j = if k = j then some a else t.get? j :=
  Assoc.lookup_upsert k j (fun _ => a) t.entries

theorem get?_put_of_ne (t : Table κ α) {k j : κ} (h : k ≠ j) (a : α) :
    (t.put k a).get? j = t.get? j := by
  simp [get?_put, h]

theorem put_put (t : Table κ α) (k : κ) (a b : α) : (t.put k a).put k b = t.put k b := by
  simp [put, Assoc.put, Assoc.upsert_upsert]

theorem put_of_get? {t : Table κ α} {k : κ} {a : α} (h : t.get? k = some a) : t.put k a = t := by
  rw [put, Assoc.put, Assoc.upsert_of_lookup h rfl]

end Table

end Turnstile
