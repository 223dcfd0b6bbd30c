import AsmLens.Proofs.LayeredPaths

/-!
Laws of laying tables over each other, which hold entry for entry and in the order of the keys. A layer laid
over itself, or once more over what it is part of, changes nothing. Layers may be grouped in any way, unless
somewhere the outer two hold tables and the one between them some other value: that value clears what is below
it only as long as nothing is laid over it first.
-/

namespace AsmLens

namespace Entries

theorem keys_merge {changes : Entries} (h : (changes.map (·.1)).Nodup) (base : Entries) :
    (merge base changes).map (·.1) =
      base.map (·.1) ++ (changes.map (·.1)).filter fun k => !Assoc.has base k := by
  induction changes generalizing base with
  | nil => simp [merge]
  | cons e rest ih =>
    obtain ⟨k, v⟩ := e
    obtain ⟨hk, hrest⟩ := List.nodup_cons.mp h
    have hlater : (rest.map (·.1)).filter (fun l => !Assoc.has (Assoc.put base k
        (Value.laidOver (Assoc.get? base k) v)) l) =
        (rest.map (·.1)).filter fun l => !Assoc.has base l := by
      apply List.filter_congr
      intro l hl
      have hne : k ≠ l := by
        rintro rfl
        exact hk hl
      simp [Assoc.has_put, hne]
    rw [merge_cons, ih hrest, hlater, Assoc.keys_put, List.map_cons, List.filter_cons]
    cases Assoc.has base k <;> simp

theorem nodup_merge {base : Entries} (h : (base.map (·.1)).Nodup) (changes : Entries) :
    ((merge base changes).map (·.1)).Nodup := by
  induction changes generalizing base with
  | nil => exact h
  | cons e rest ih =>
    obtain ⟨k, v⟩ := e
    rw [merge_cons]
    exact ih (Assoc.nodup_put h k _)

theorem keys_merge_merge {b c : Entries} (hb : (b.map (·.1)).Nodup) (hc : (c.map (·.1)).Nodup)
    (a : Entries) :
    (merge (merge a b) c).map (·.1) = (merge a (merge b c)).map (·.1) := by
  rw [keys_merge hc, keys_merge hb, keys_merge (nodup_merge hb c), keys_merge hc, List.filter_append,
    List.filter_filter, List.append_assoc]
  simp only [has_merge, Bool.not_or]

theorem merge_assoc_of_values {a b c : Entries} (ha : (a.map (·.1)).Nodup) (hb : (b.map (·.1)).Nodup)
    (hc : (c.map (·.1)).Nodup)
    (h : ∀ k x y z, Assoc.get? a k = some x → Assoc.get? b k = some y → Assoc.get? c k = some z →
      Value.laidOver (some (Value.laidOver (some x) y)) z =
        Value.laidOver (some x) (Value.laidOver (some y) z)) :
    merge (merge a b) c = merge a (merge b c) := by
  apply Assoc.eq_of_get? (keys_merge_merge hb hc a) (nodup_merge (nodup_merge ha b) c)
  intro k
  rw [get?_merge hc, get?_merge hb, get?_merge (nodup_merge hb c), get?_merge hc]
  cases hz : Assoc.get? c k with
  | none => rfl
  | some z =>
    cases hy : Assoc.get? b k with
    | none => simp only [laidOver_none]
    | some y =>
      cases hx : Assoc.get? a k with
      | none => simp only [laidOver_none]
      | some x => exact congrArg some (h k x y z hx hy hz)

end Entries

namespace Value

theorem distinct_laidOver {old : Option Value} {v : Value} (hold : ∀ w, old = some w → w.Distinct)
    (hv : v.Distinct) : (laidOver old v).Distinct := by
  induction hv generalizing old with
  | @table upper hkeys hvalues ih =>
    by_cases htable : ∃ lower, old = some (.table lower)
    · obtain ⟨lower, rfl⟩ := htable
      have hlower : Entries.Distinct lower := Entries.distinct_iff.mp (hold _ rfl)
      have hnodup := Entries.nodup_merge hlower.keys upper
      rw [laidOver_table]
      apply Distinct.table hnodup
      intro e he
      have hget := Assoc.get?_of_mem hnodup he
      rw [Entries.get?_merge hkeys] at hget
      cases hu : Assoc.get? upper e.1 with
      | none =>
        rw [hu] at hget
        exact hlower.get? hget
      | some u =>
        rw [hu] at hget
        rw [← Option.some.inj hget]
        exact ih (e.1, u) (Assoc.mem_of_get? hu) fun w hw => hlower.get? hw
    · rw [laidOver_of_not_table htable]
      exact .table hkeys hvalues
  | _ =>
    rw [laidOver_of_plain rfl]
    constructor <;> assumption

theorem laidOver_self {v : Value} (hv : v.Distinct) : laidOver (some v) v = v := by
  induction hv with
  | @table es hkeys _ ih =>
    have hnone : (es.map (·.1)).filter (fun k => !Assoc.has es k) = [] := by
      apply List.filter_eq_nil_iff.mpr
      intro k hk
      simp [Assoc.has_eq_true_iff.mpr hk]
    have hsame : (Entries.merge es es).map (·.1) = es.map (·.1) := by
      rw [Entries.keys_merge hkeys, hnone, List.append_nil]
    rw [laidOver_table]
    apply congrArg table
    apply Assoc.eq_of_get? hsame (hsame ▸ hkeys)
    intro k
    rw [Entries.get?_merge hkeys]
    cases hget : Assoc.get? es k with
    | none => rfl
    | some v => exact congrArg some (ih (k, v) (Assoc.mem_of_get? hget))
  | _ => exact laidOver_of_plain rfl _

/-- A path leads to tables in the outer two and to some other value in the one between them. Above its end
there are tables in all three, since nothing else leads on. -/
def Clash (a b c : Value) : Prop :=
  ∃ path x y z, a.at? path = some (.table x) ∧ b.at? path = some y ∧ y.isTable = false ∧
    c.at? path = some (.table z)

theorem Clash.cons {a b c : Entries} {k : String} {x y z : Value} (hx : Assoc.get? a k = some x)
    (hy : Assoc.get? b k = some y) (hz : Assoc.get? c k = some z) (h : Clash x y z) :
    Clash (.table a) (.table b) (.table c) := by
  obtain ⟨path, s, t, u, ha, hb, hplain, hc⟩ := h
  refine ⟨k :: path, s, t, u, ?_, ?_, hplain, ?_⟩
  · rw [at?_cons, hx, Option.bind_some, ha]
  · rw [at?_cons, hy, Option.bind_some, hb]
  · rw [at?_cons, hz, Option.bind_some, hc]

theorem not_clash_left (a b : Value) : ¬Clash a a b := by
  rintro ⟨path, x, y, z, hx, hy, hplain, -⟩
  rw [← Option.some.inj (hx.symm.trans hy)] at hplain
  contradiction

theorem not_clash_right (a b : Value) : ¬Clash a b b := by
  rintro ⟨path, x, y, z, -, hy, hplain, hz⟩
  rw [← Option.some.inj (hz.symm.trans hy)] at hplain
  contradiction

theorem laidOver_assoc_of_plain {c : Value} (hc : c.isTable = false) (a b : Value) :
    laidOver (some (laidOver (some a) b)) c = laidOver (some a) (laidOver (some b) c) := by
  rw [laidOver_of_plain hc, laidOver_of_plain hc, laidOver_of_plain hc]

theorem laidOver_assoc {a b c : Value} (ha : a.Distinct) (hb : b.Distinct) (hc : c.Distinct)
    (h : ¬Clash a b c) :
    laidOver (some (laidOver (some a) b)) c = laidOver (some a) (laidOver (some b) c) := by
  -- On the upper value: only where all three are tables does the grouping have to be looked for below.
  induction hc generalizing a b with
  | @table z hkeys hvalues ih =>
    by_cases hx : ∃ x, some a = some (.table x)
    · obtain ⟨x, hx⟩ := hx
      obtain rfl := Option.some.inj hx
      cases hy : b.isTable with
      | false => exact absurd ⟨[], x, b, z, at?_nil _, at?_nil b, hy, at?_nil _⟩ h
      | true =>
        obtain ⟨y, rfl⟩ := isTable_eq_true_iff.mp hy
        have hdistinct : Entries.Distinct x := Entries.distinct_iff.mp ha
        have hdistinct' : Entries.Distinct y := Entries.distinct_iff.mp hb
        simp only [laidOver_table]
        apply congrArg table
        apply Entries.merge_assoc_of_values hdistinct.keys hdistinct'.keys hkeys
        intro k u v w hu hv hw
        exact ih (k, w) (Assoc.mem_of_get? hw) (hdistinct.get? hu) (hdistinct'.get? hv)
          fun hclash => h (hclash.cons hu hv hw)
    · rw [laidOver_of_not_table hx, laidOver_of_not_table hx]
  | _ => exact laidOver_assoc_of_plain rfl a b

end Value

namespace Entries

open Value

theorem Distinct.merge {a b : Entries} (ha : a.Distinct) (hb : b.Distinct) :
    (Entries.merge a b).Distinct := by
  apply distinct_iff.mp
  rw [← laidOver_table]
  apply distinct_laidOver _ (distinct_iff.mpr hb)
  intro w hw
  rw [← Option.some.inj hw]
  exact distinct_iff.mpr ha

theorem merge_self {a : Entries} (ha : a.Distinct) : merge a a = a :=
  table.inj (laidOver_self (distinct_iff.mpr ha))

theorem merge_assoc {a b c : Entries} (ha : a.Distinct) (hb : b.Distinct) (hc : c.Distinct)
    (h : ¬Clash (.table a) (.table b) (.table c)) : merge (merge a b) c = merge a (merge b c) :=
  table.inj (laidOver_assoc (distinct_iff.mpr ha) (distinct_iff.mpr hb) (distinct_iff.mpr hc) h)

theorem at?_of_clash {a b c x z : Entries} {y : Value} {path : List String} (hb : b.Distinct)
    (hc : c.Distinct) (hx : (table a).at? path = some (.table x)) (hy : (table b).at? path = some y)
    (hplain : y.isTable = false) (hz : (table c).at? path = some (.table z)) :
    (table (merge (merge a b) c)).at? path = some (.table z) ∧
      (table (merge a (merge b c))).at? path = some (.table (merge x z)) := by
  have hnot : ¬∃ es, some y = some (.table es) := by
    rintro ⟨es, hes⟩
    rw [Option.some.inj hes] at hplain
    contradiction
  have hover {l u : Entries} (hu : u.Distinct) {v : Value} (hv : (table u).at? path = some v) :
      (table (merge l u)).at? path = some (laidOver ((table l).at? path) v) :=
    at?_laidOver_of_some (distinct_iff.mpr hu) hv (some (.table l))
  have hlower : (table (merge a b)).at? path = some y := by
    rw [hover hb hy, laidOver_of_plain hplain]
  have hupper : (table (merge b c)).at? path = some (.table z) := by
    rw [hover hc hz, hy, laidOver_of_not_table hnot]
  constructor
  · rw [hover hc hz, hlower, laidOver_of_not_table hnot]
  · rw [hover (hb.merge hc) hupper, hx, laidOver_table]

theorem merge_layers (a b c : Entries) (ha : a.Distinct) (hb : b.Distinct) (hc : c.Distinct) :
    merge a a = a ∧ merge (merge a b) b = merge a b ∧ merge a (merge a b) = merge a b ∧
      (¬Clash (.table a) (.table b) (.table c) → merge (merge a b) c = merge a (merge b c)) ∧
      ∀ path x y z, (table a).at? path = some (.table x) → (table b).at? path = some y →
        y.isTable = false → (table c).at? path = some (.table z) →
        (table (merge (merge a b) c)).at? path = some (.table z) ∧
          (table (merge a (merge b c))).at? path = some (.table (merge x z)) := by
  refine ⟨merge_self ha, ?_, ?_, merge_assoc ha hb hc, ?_⟩
  · rw [merge_assoc ha hb hb (not_clash_right _ _), merge_self hb]
  · rw [← merge_assoc ha ha hb (not_clash_left _ _), merge_self ha]
  · intro path x y z hx hy hplain hz
    exact at?_of_clash hb hc hx hy hplain hz

def sparse : Entries := [("tools", .table [("demangler", .array [])])]

theorem distinct_packaged : packaged.Distinct := by
  have htools : Distinct [("compiler", .text "clang"), ("demangler", .array [.text "c++filt"])] := by
    refine ⟨by decide, ?_⟩
    simp only [List.forall_mem_cons]
    exact ⟨.text _, .array (by simp [Value.Distinct.text]), List.forall_mem_nil _⟩
  have houtput : Distinct [("verbosity", .text "normal")] :=
    ⟨by decide, List.forall_mem_cons.mpr ⟨.text _, List.forall_mem_nil _⟩⟩
  refine ⟨by decide, ?_⟩
  simp only [packaged, List.forall_mem_cons]
  exact ⟨distinct_iff.mpr htools, distinct_iff.mpr houtput, List.forall_mem_nil _⟩

theorem distinct_sparse : sparse.Distinct := by
  have htools : Distinct [("demangler", .array [])] :=
    ⟨by decide, List.forall_mem_cons.mpr ⟨.array (List.forall_mem_nil _), List.forall_mem_nil _⟩⟩
  exact ⟨by decide, List.forall_mem_cons.mpr ⟨distinct_iff.mpr htools, List.forall_mem_nil _⟩⟩

theorem merge_layers_sparse :
    packaged.Distinct ∧ custom.Distinct ∧ sparse.Distinct ∧
      ¬Clash (.table packaged) (.table custom) (.table sparse) ∧
      merge (merge packaged custom) sparse = merge packaged (merge custom sparse) ∧
      merge (merge packaged custom) custom = merge packaged custom ∧
      (table (merge (merge packaged custom) packaged)).at? ["output"] =
        some (.table [("verbosity", .text "normal")]) := by
  have hfree : ¬Clash (.table packaged) (.table custom) (.table sparse) := by
    rintro ⟨path, x, y, z, -, hy, hplain, hz⟩
    rcases path with _ | ⟨k, path⟩
    · cases hy
      contradiction
    · rw [at?_cons, sparse, Assoc.get?_cons] at hz
      split at hz
      · rename_i hk
        subst hk
        -- The last layer has one more table, and there the one before it has a table as well.
        rcases path with _ | ⟨l, path⟩
        · cases hy
          contradiction
        · rw [Option.bind_some, at?_cons, Assoc.get?_cons] at hz
          split at hz
          · cases path <;> cases hz
          · cases hz
      · cases hz
  have hlaws := merge_layers packaged custom sparse distinct_packaged distinct_custom distinct_sparse
  have hcycle := merge_layers packaged custom packaged distinct_packaged distinct_custom distinct_packaged
  exact ⟨distinct_packaged, distinct_custom, distinct_sparse, hfree, hlaws.2.2.2.1 hfree, hlaws.2.1,
    (hcycle.2.2.2.2 ["output"] _ _ _ rfl rfl rfl rfl).1⟩

end Entries

end AsmLens
