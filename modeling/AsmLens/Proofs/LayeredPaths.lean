import AsmLens.Proofs.DistinctKeys

namespace AsmLens

namespace Value

def isTable : Value → Bool
  | .table _ => true
  | _ => false

theorem isTable_eq_true_iff {v : Value} : v.isTable = true ↔ ∃ es, v = .table es := by
  cases v <;> simp [isTable]

@[simp] theorem at?_nil (v : Value) : v.at? [] = some v := by
  cases v <;> rfl

theorem at?_cons (es : Entries) (k : String) (path : List String) :
    (table es).at? (k :: path) = (Assoc.get? es k).bind (·.at? path) := by
  rw [at?]
  cases Assoc.get? es k <;> rfl

theorem at?_cons_of_plain {v : Value} (h : v.isTable = false) (k : String) (path : List String) :
    v.at? (k :: path) = none := by
  cases v with
  | table es => contradiction
  | _ => rfl

theorem at?_append (v : Value) (path further : List String) :
    v.at? (path ++ further) = (v.at? path).bind (·.at? further) := by
  induction path generalizing v with
  | nil => rw [List.nil_append, at?_nil, Option.bind_some]
  | cons k path ih =>
    cases hv : v.isTable with
    | false => rw [List.cons_append, at?_cons_of_plain hv, at?_cons_of_plain hv, Option.bind_none]
    | true =>
      obtain ⟨es, rfl⟩ := isTable_eq_true_iff.mp hv
      rw [List.cons_append, at?_cons, at?_cons, Option.bind_assoc]
      exact Option.bind_congr fun w _ => ih w

/-- A value that is no table stands above the end of the path, so the path cannot get there. -/
def CutsOff (v : Value) (path : List String) : Prop :=
  ∃ above k below w, path = above ++ k :: below ∧ v.at? above = some w ∧ w.isTable = false

theorem cutsOff_of_plain {v : Value} (h : v.isTable = false) (k : String) (path : List String) :
    v.CutsOff (k :: path) :=
  ⟨[], k, path, v, rfl, at?_nil v, h⟩

theorem not_cutsOff_nil (v : Value) : ¬v.CutsOff [] := by
  rintro ⟨above, k, below, w, hpath, -⟩
  simp at hpath

theorem cutsOff_cons_iff {es : Entries} {k : String} {path : List String} :
    (table es).CutsOff (k :: path) ↔ ∃ v, Assoc.get? es k = some v ∧ v.CutsOff path := by
  constructor
  · rintro ⟨above, l, below, w, hpath, hw, hplain⟩
    cases above with
    | nil =>
      rw [at?_nil] at hw
      obtain rfl := Option.some.inj hw
      contradiction
    | cons m above =>
      rw [List.cons_append] at hpath
      obtain ⟨rfl, rfl⟩ := List.cons.inj hpath
      rw [at?_cons] at hw
      obtain ⟨v, hv, hw⟩ := Option.bind_eq_some_iff.mp hw
      exact ⟨v, hv, above, l, below, w, rfl, hw, hplain⟩
  · rintro ⟨v, hv, above, l, below, w, rfl, hw, hplain⟩
    refine ⟨k :: above, l, below, w, rfl, ?_, hplain⟩
    rw [at?_cons, hv, Option.bind_some, hw]

theorem laidOver_of_plain {v : Value} (h : v.isTable = false) (old : Option Value) :
    laidOver old v = v := by
  cases v with
  | table es => contradiction
  | _ =>
    rcases old with _ | w
    · rfl
    · cases w <;> rfl

theorem laidOver_of_not_table {old : Option Value} (h : ¬∃ es, old = some (.table es)) (v : Value) :
    laidOver old v = v := by
  rcases old with _ | w
  · exact Entries.laidOver_none v
  · cases w with
    | table es => exact absurd ⟨es, rfl⟩ h
    | _ => cases v <;> rfl

theorem laidOver_table (lower upper : Entries) :
    laidOver (some (.table lower)) (.table upper) = .table (Entries.merge lower upper) := rfl

theorem isTable_laidOver (old : Option Value) (v : Value) : (laidOver old v).isTable = v.isTable := by
  cases v with
  | table es =>
    rcases old with _ | w
    · rfl
    · cases w <;> rfl
  | _ => rw [laidOver_of_plain rfl]

theorem bind_at?_of_not_table {old : Option Value} (h : ¬∃ es, old = some (.table es)) (k : String)
    (path : List String) : old.bind (·.at? (k :: path)) = none := by
  rcases old with _ | w
  · rfl
  · apply at?_cons_of_plain
    cases hw : w.isTable with
    | false => rfl
    | true =>
      obtain ⟨es, rfl⟩ := isTable_eq_true_iff.mp hw
      exact absurd ⟨es, rfl⟩ h

theorem at?_laidOver_of_some {v w : Value} {path : List String} (hv : v.Distinct)
    (h : v.at? path = some w) (old : Option Value) :
    (laidOver old v).at? path = some (laidOver (old.bind (·.at? path)) w) := by
  -- Under one key of two tables there is again one value over what was there, if anything was.
  induction path generalizing v old with
  | nil =>
    rw [at?_nil] at h ⊢
    obtain rfl := Option.some.inj h
    simp
  | cons k path ih =>
    cases htable : v.isTable with
    | false =>
      rw [at?_cons_of_plain htable] at h
      contradiction
    | true =>
      obtain ⟨upper, rfl⟩ := isTable_eq_true_iff.mp htable
      have hdistinct : Entries.Distinct upper := Entries.distinct_iff.mp hv
      by_cases hold : ∃ lower, old = some (.table lower)
      · obtain ⟨lower, rfl⟩ := hold
        rw [at?_cons] at h
        obtain ⟨u, hu, hpath⟩ := Option.bind_eq_some_iff.mp h
        rw [laidOver_table, at?_cons, Entries.get?_merge hdistinct.keys, hu, Option.bind_some,
          Option.bind_some, at?_cons, ih (hdistinct.get? hu) hpath]
      · rw [laidOver_of_not_table hold, h, bind_at?_of_not_table hold, Entries.laidOver_none]

theorem at?_laidOver_of_none {v : Value} {path : List String} (hv : v.Distinct)
    (h : v.at? path = none) (hfree : ¬v.CutsOff path) (old : Option Value) :
    (laidOver old v).at? path = old.bind (·.at? path) := by
  induction path generalizing v old with
  | nil =>
    rw [at?_nil] at h
    contradiction
  | cons k path ih =>
    cases htable : v.isTable with
    | false => exact absurd (cutsOff_of_plain htable k path) hfree
    | true =>
      obtain ⟨upper, rfl⟩ := isTable_eq_true_iff.mp htable
      have hdistinct : Entries.Distinct upper := Entries.distinct_iff.mp hv
      by_cases hold : ∃ lower, old = some (.table lower)
      · obtain ⟨lower, rfl⟩ := hold
        rw [at?_cons] at h
        rw [laidOver_table, at?_cons, Entries.get?_merge hdistinct.keys, Option.bind_some, at?_cons]
        cases hu : Assoc.get? upper k with
        | none => rfl
        | some u =>
          rw [hu, Option.bind_some] at h
          exact ih (hdistinct.get? hu) h (fun hcut => hfree (cutsOff_cons_iff.mpr ⟨u, hu, hcut⟩)) _
      · rw [laidOver_of_not_table hold, h, bind_at?_of_not_table hold]

theorem at?_laidOver_of_cutsOff {v : Value} {path : List String} (hv : v.Distinct)
    (h : v.CutsOff path) (old : Option Value) : (laidOver old v).at? path = none := by
  obtain ⟨above, k, below, w, rfl, hw, hplain⟩ := h
  rw [at?_append, at?_laidOver_of_some hv hw, laidOver_of_plain hplain, Option.bind_some,
    at?_cons_of_plain hplain]

structure LayeredAt (lower upper whole : Value) (path : List String) : Prop where
  cut : upper.CutsOff path → whole.at? path = none
  plain : ∀ v, upper.at? path = some v → v.isTable = false → whole.at? path = some v
  tables : ∀ l u, lower.at? path = some (.table l) → upper.at? path = some (.table u) →
    ∃ w, whole.at? path = some (.table w) ∧ ∀ k, Assoc.has w k = (Assoc.has l k || Assoc.has u k)
  table : ∀ u, (¬∃ l, lower.at? path = some (.table l)) → upper.at? path = some (.table u) →
    whole.at? path = some (.table u)
  below : upper.at? path = none → ¬upper.CutsOff path → whole.at? path = lower.at? path
  kept : ∀ v, lower.at? path = some v →
    whole.at? path = some v ∨ (∃ u, upper.at? path = some u) ∨ upper.CutsOff path
  source : ∀ v, whole.at? path = some v → v.isTable = false →
    lower.at? path = some v ∨ upper.at? path = some v

end Value

namespace Entries

open Value

theorem layeredAt_merge (lower upper : Entries) (path : List String) (hupper : upper.Distinct) :
    LayeredAt (.table lower) (.table upper) (.table (merge lower upper)) path := by
  have hdistinct : Value.Distinct (.table upper) := distinct_iff.mpr hupper
  have hsome {v : Value} (h : (table upper).at? path = some v) :
      (table (merge lower upper)).at? path = some (laidOver ((table lower).at? path) v) :=
    at?_laidOver_of_some hdistinct h (some (.table lower))
  have hnone (h : (table upper).at? path = none) (hfree : ¬(table upper).CutsOff path) :
      (table (merge lower upper)).at? path = (table lower).at? path :=
    at?_laidOver_of_none hdistinct h hfree (some (.table lower))
  have hcut (h : (table upper).CutsOff path) : (table (merge lower upper)).at? path = none :=
    at?_laidOver_of_cutsOff hdistinct h (some (.table lower))
  constructor
  · exact hcut
  · intro v hv hplain
    rw [hsome hv, laidOver_of_plain hplain]
  · intro l u hl hu
    refine ⟨merge l u, ?_, has_merge l u⟩
    rw [hsome hu, hl, laidOver_table]
  · intro u hl hu
    rw [hsome hu, laidOver_of_not_table hl]
  · exact hnone
  · intro v hv
    by_cases hfree : (table upper).CutsOff path
    · exact .inr (.inr hfree)
    · cases hu : (table upper).at? path with
      | none => exact .inl ((hnone hu hfree).trans hv)
      | some u => exact .inr (.inl ⟨u, rfl⟩)
  · intro v hv hplain
    by_cases hfree : (table upper).CutsOff path
    · rw [hcut hfree] at hv
      contradiction
    · cases hu : (table upper).at? path with
      | none => exact .inl ((hnone hu hfree).symm.trans hv)
      | some u =>
        -- What is laid over something is a table or not as it was before.
        rw [hsome hu] at hv
        obtain rfl := Option.some.inj hv
        rw [isTable_laidOver] at hplain
        exact .inr (congrArg some (laidOver_of_plain hplain _).symm)

def packaged : Entries :=
  [("tools", .table [("compiler", .text "clang"), ("demangler", .array [.text "c++filt"])]),
    ("output", .table [("verbosity", .text "normal")])]

def custom : Entries := [("tools", .table [("compiler", .text "clang-18")]), ("output", .text "quiet")]

theorem distinct_custom : custom.Distinct := by
  have hcompiler : Distinct [("compiler", .text "clang-18")] :=
    ⟨by decide, List.forall_mem_cons.mpr ⟨.text _, List.forall_mem_nil _⟩⟩
  refine ⟨by decide, ?_⟩
  simp only [custom, List.forall_mem_cons]
  exact ⟨distinct_iff.mpr hcompiler, .text _, List.forall_mem_nil _⟩

theorem layeredAt_merge_custom :
    custom.Distinct ∧
      (table (merge packaged custom)).at? ["tools", "compiler"] = some (.text "clang-18") ∧
      (table (merge packaged custom)).at? ["tools", "demangler"] = some (.array [.text "c++filt"]) ∧
      (table (merge packaged custom)).at? ["output", "verbosity"] = none ∧
      ∃ w, (table (merge packaged custom)).at? ["tools"] = some (.table w) ∧
        Assoc.has w "demangler" = true ∧ Assoc.has w "verbosity" = false := by
  have h (path : List String) := layeredAt_merge packaged custom path distinct_custom
  have hfree : ¬(table custom).CutsOff ["tools", "demangler"] := by
    intro h
    obtain ⟨v, hv, h⟩ := cutsOff_cons_iff.mp h
    cases hv
    obtain ⟨w, hw, -⟩ := cutsOff_cons_iff.mp h
    cases hw
  have hcut : (table custom).CutsOff ["output", "verbosity"] :=
    ⟨["output"], "verbosity", [], .text "quiet", rfl, rfl, rfl⟩
  refine ⟨distinct_custom, (h _).plain _ rfl rfl, (h _).below rfl hfree, (h _).cut hcut, ?_⟩
  obtain ⟨w, hw, hkeys⟩ := (h ["tools"]).tables _ _ rfl rfl
  exact ⟨w, hw, hkeys "demangler", hkeys "verbosity"⟩

end Entries

end AsmLens
