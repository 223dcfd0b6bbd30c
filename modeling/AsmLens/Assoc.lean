namespace AsmLens

abbrev Assoc (κ α : Type) := List (κ × α)

namespace Assoc

variable {κ α : Type} [DecidableEq κ]

def get? (es : Assoc κ α) (key : κ) : Option α :=
  match es with
  | [] => none
  | (k, v) :: rest => if k = key then some v else get? rest key

def has (es : Assoc κ α) (key : κ) : Bool := (get? es key).isSome

def put (es : Assoc κ α) (key : κ) (value : α) : Assoc κ α :=
  match es with
  | [] => [(key, value)]
  | (k, v) :: rest => if k = key then (key, value) :: rest else (k, v) :: put rest key value

def erase (es : Assoc κ α) (key : κ) : Assoc κ α := es.filter fun e => e.1 ≠ key

def putAll (es changes : Assoc κ α) : Assoc κ α := changes.foldl (fun acc kv => put acc kv.1 kv.2) es

theorem get?_put (es : Assoc κ α) (k k' : κ) (v : α) :
    get? (put es k v) k' = if k = k' then some v else get? es k' := by
  induction es with
  | nil => by_cases h : k = k' <;> simp [put, get?, h]
  | cons e es ih =>
    obtain ⟨l, w⟩ := e
    by_cases hl : l = k
    · by_cases h : k = k' <;> simp [put, get?, hl, h]
    · by_cases h : l = k'
      · subst h
        simp [put, get?, hl, Ne.symm hl]
      · simp [put, get?, hl, h, ih]

theorem get?_erase (es : Assoc κ α) (k k' : κ) :
    get? (erase es k) k' = if k = k' then none else get? es k' := by
  induction es with
  | nil => simp [erase, get?]
  | cons e es ih =>
    obtain ⟨l, w⟩ := e
    by_cases hl : l = k
    · subst hl
      by_cases h : l = k' <;> simp_all [erase, get?]
    · by_cases h : l = k'
      · subst h
        simp [erase, get?, hl, Ne.symm hl]
      · simp_all [erase, get?]

theorem keys_put (es : Assoc κ α) (k : κ) (v : α) :
    (put es k v).map (·.1) = if has es k then es.map (·.1) else es.map (·.1) ++ [k] := by
  induction es with
  | nil => simp [put, has, get?]
  | cons e es ih =>
    obtain ⟨l, w⟩ := e
    by_cases hl : l = k
    · simp [put, has, get?, hl]
    · simp only [has] at ih
      by_cases h : (get? es k).isSome = true
      · simp [put, hl, ih, has, get?, h]
      · simp [put, hl, ih, has, get?, h]

end Assoc

end AsmLens
