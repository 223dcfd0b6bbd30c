import AsmLens.Value.Merge

namespace AsmLens

namespace Assoc

variable {κ α : Type} [DecidableEq κ]

theorem get?_cons (k k' : κ) (v : α) (es : Assoc κ α) :
    get? ((k, v) :: es) k' = if k = k' then some v else get? es k' := rfl

theorem has_cons (k k' : κ) (v : α) (es : Assoc κ α) :
    has ((k, v) :: es) k' = (decide (k = k') || has es k') := by
  by_cases h : k = k' <;> simp [has, get?_cons, h]

theorem has_put (es : Assoc κ α) (k k' : κ) (v : α) :
    has (put es k v) k' = (decide (k = k') || has es k') := by
  by_cases h : k = k' <;> simp [has, get?_put, h]

theorem get?_eq_none_iff {es : Assoc κ α} {k : κ} : get? es k = none ↔ k ∉ es.map (·.1) := by
  induction es with
  | nil => simp [get?]
  | cons e es ih =>
    obtain ⟨l, v⟩ := e
    by_cases h : l = k
    · simp [get?_cons, h]
    · simp only [get?_cons, h, if_false, ih, List.map_cons, List.mem_cons, not_or]
      exact ⟨fun hk => ⟨Ne.symm h, hk⟩, fun hk => hk.2⟩

theorem mem_of_get? {es : Assoc κ α} {k : κ} {v : α} (h : get? es k = some v) : (k, v) ∈ es := by
  induction es with
  | nil => contradiction
  | cons e es ih =>
    obtain ⟨l, w⟩ := e
    rw [get?_cons] at h
    split at h
    · rename_i hl
      cases h
      rw [hl]
      exact List.mem_cons_self
    · exact List.mem_cons_of_mem _ (ih h)

theorem mem_put {es : Assoc κ α} {k : κ} {v : α} {e : κ × α} (h : e ∈ put es k v) :
    e = (k, v) ∨ e ∈ es := by
  induction es with
  | nil => exact .inl (List.mem_singleton.mp h)
  | cons d es ih =>
    obtain ⟨l, w⟩ := d
    rw [put] at h
    split at h
    · rcases List.mem_cons.mp h with rfl | h
      · exact .inl rfl
      · exact .inr (List.mem_cons_of_mem _ h)
    · rcases List.mem_cons.mp h with rfl | h
      · exact .inr List.mem_cons_self
      · rcases ih h with he | he
        · exact .inl he
        · exact .inr (List.mem_cons_of_mem _ he)

theorem nodup_put {es : Assoc κ α} (h : (es.map (·.1)).Nodup) (k : κ) (v : α) :
    ((put es k v).map (·.1)).Nodup := by
  rw [keys_put]
  split
  · exact h
  · rename_i hk
    have hnone : get? es k = none := by simpa [has] using hk
    rw [List.nodup_append]
    refine ⟨h, by simp, ?_⟩
    intro a ha b hb
    rw [List.mem_singleton.mp hb]
    intro hab
    exact get?_eq_none_iff.mp hnone (hab ▸ ha)

theorem put_of_notMem {es : Assoc κ α} {k : κ} (h : k ∉ es.map (·.1)) (v : α) :
    put es k v = es ++ [(k, v)] := by
  induction es with
  | nil => rfl
  | cons e es ih =>
    obtain ⟨l, w⟩ := e
    simp only [List.map_cons, List.mem_cons, not_or] at h
    rw [put, if_neg (Ne.symm h.1), ih h.2, List.cons_append]

theorem has_eq_true_iff {es : Assoc κ α} {k : κ} : has es k = true ↔ k ∈ es.map (·.1) := by
  rw [has, Option.isSome_iff_ne_none, ne_eq, get?_eq_none_iff, Decidable.not_not]

theorem get?_of_mem {es : Assoc κ α} (h : (es.map (·.1)).Nodup) {k : κ} {v : α} (hmem : (k, v) ∈ es) :
    get? es k = some v := by
  induction es with
  | nil => contradiction
  | cons e es ih =>
    obtain ⟨l, w⟩ := e
    obtain ⟨hnew, hlater⟩ := List.nodup_cons.mp h
    rcases List.mem_cons.mp hmem with heq | hmem
    · cases heq
      rw [get?_cons, if_pos rfl]
    · have hne : l ≠ k := by
        rintro rfl
        exact hnew (List.mem_map.mpr ⟨(l, v), hmem, rfl⟩)
      rw [get?_cons, if_neg hne, ih hlater hmem]

theorem eq_of_get? {es es' : Assoc κ α} (hkeys : es.map (·.1) = es'.map (·.1))
    (hnodup : (es.map (·.1)).Nodup) (h : ∀ k, get? es k = get? es' k) : es = es' := by
  induction es generalizing es' with
  | nil =>
    rw [List.map_nil] at hkeys
    exact (List.map_eq_nil_iff.mp hkeys.symm).symm
  | cons e es ih =>
    obtain ⟨k, v⟩ := e
    obtain ⟨⟨k', w⟩, es', rfl, hk, hrest⟩ := List.map_eq_cons_iff.mp hkeys.symm
    obtain rfl : k' = k := hk
    obtain ⟨hnew, hlater⟩ := List.nodup_cons.mp hnodup
    have hvalue := h k'
    simp only [get?_cons, if_true, Option.some.injEq] at hvalue
    rw [hvalue, ih hrest.symm hlater]
    intro l
    by_cases hl : k' = l
    · -- The first key comes in neither of the rests.
      subst hl
      rw [get?_eq_none_iff.mpr hnew, get?_eq_none_iff.mpr (hrest ▸ hnew)]
    · have hsame := h l
      rwa [get?_cons, get?_cons, if_neg hl, if_neg hl] at hsame

end Assoc

inductive Value.Distinct : Value → Prop where
  | null : Distinct .null
  | bool (b : Bool) : Distinct (.bool b)
  | int (n : Int) : Distinct (.int n)
  | float (x : Binary64) : Distinct (.float x)
  | text (s : String) : Distinct (.text s)
  | moment (m : Moment) : Distinct (.moment m)
  | array {items : List Value} (h : ∀ v ∈ items, Distinct v) : Distinct (.array items)
  | table {es : List (String × Value)} (hkeys : (es.map (·.1)).Nodup)
      (h : ∀ e ∈ es, Distinct e.2) : Distinct (.table es)

namespace Entries

structure Distinct (es : Entries) : Prop where
  keys : (es.map (·.1)).Nodup
  values : ∀ e ∈ es, Value.Distinct e.2

theorem distinct_nil : Distinct [] := ⟨List.nodup_nil, fun _ h => nomatch h⟩

theorem distinct_iff {es : Entries} : Value.Distinct (.table es) ↔ Distinct es := by
  constructor
  · rintro ⟨⟩
    rename_i hkeys h
    exact ⟨hkeys, h⟩
  · intro h
    exact .table h.keys h.values

theorem Distinct.get? {es : Entries} (h : Distinct es) {k : String} {v : Value}
    (hv : Assoc.get? es k = some v) : v.Distinct :=
  h.values (k, v) (Assoc.mem_of_get? hv)

theorem Distinct.put {es : Entries} (h : Distinct es) (k : String) {v : Value} (hv : v.Distinct) :
    Distinct (Assoc.put es k v) where
  keys := Assoc.nodup_put h.keys k v
  values := by
    intro e he
    rcases Assoc.mem_put he with rfl | he
    · exact hv
    · exact h.values e he

theorem laidOver_none (v : Value) : Value.laidOver none v = v := by
  cases v <;> rfl

theorem merge_cons (base : Entries) (k : String) (v : Value) (rest : Entries) :
    merge base ((k, v) :: rest) = merge (Assoc.put base k (Value.laidOver (Assoc.get? base k) v)) rest := by
  rw [merge]

theorem get?_merge {changes : Entries} (h : (changes.map (·.1)).Nodup) (base : Entries) (k : String) :
    Assoc.get? (merge base changes) k =
      match Assoc.get? changes k with
      | none => Assoc.get? base k
      | some v => some (Value.laidOver (Assoc.get? base k) v) := by
  induction changes generalizing base with
  | nil => rfl
  | cons e rest ih =>
    obtain ⟨l, v⟩ := e
    obtain ⟨hl, hrest⟩ := List.nodup_cons.mp h
    rw [merge_cons, ih hrest, Assoc.get?_put, Assoc.get?_cons]
    by_cases hk : l = k
    · -- No later change has this key, so what is put here stays.
      subst hk
      simp only [Assoc.get?_eq_none_iff.mpr hl, if_true]
    · simp only [hk, if_false]

theorem has_merge (base changes : Entries) (k : String) :
    Assoc.has (merge base changes) k = (Assoc.has base k || Assoc.has changes k) := by
  induction changes generalizing base with
  | nil => simp [merge, Assoc.has, Assoc.get?]
  | cons e rest ih =>
    obtain ⟨l, v⟩ := e
    rw [merge_cons, ih, Assoc.has_put, Assoc.has_cons, Bool.or_left_comm, Bool.or_assoc]

theorem merge_of_disjoint {base changes : Entries} (h : ((base ++ changes).map (·.1)).Nodup) :
    merge base changes = base ++ changes := by
  induction changes generalizing base with
  | nil => rw [List.append_nil, merge]
  | cons e rest ih =>
    obtain ⟨l, v⟩ := e
    have hl : l ∉ base.map (·.1) := by
      rw [List.map_append, List.nodup_append] at h
      intro hl
      exact h.2.2 l hl l (by simp) rfl
    rw [merge_cons, Assoc.get?_eq_none_iff.mpr hl, laidOver_none, Assoc.put_of_notMem hl, ih,
      List.append_assoc, List.singleton_append]
    rwa [List.append_assoc, List.singleton_append]

theorem merge_nil_left {es : Entries} (h : (es.map (·.1)).Nodup) : merge [] es = es :=
  merge_of_disjoint h

end Entries

end AsmLens
