import AsmLens.Proofs.ShownPipeline

namespace AsmLens

open AsmLens.Flag (Kind)

namespace Flag

def IsShown (f : Flag) : Prop :=
  f.kind ≠ .warning ∧ f.kind ≠ .includePath ∧
    (f.kind = .extra → ¬(['-', 'W'] <+: f.text.toList ∨ ['-', 'I'] <+: f.text.toList))

instance : DecidablePred IsShown :=
  fun f => inferInstanceAs (Decidable (f.kind ≠ .warning ∧ f.kind ≠ .includePath ∧
    (f.kind = .extra → ¬(['-', 'W'] <+: f.text.toList ∨ ['-', 'I'] <+: f.text.toList))))

end Flag

namespace Options

variable {library : String} {o : Options} {named : Option String} {system : String}

theorem isNoise_iff {a : String} :
    isNoise a = true ↔ ['-', 'W'] <+: a.toList ∨ ['-', 'I'] <+: a.toList := by
  rw [isNoise_eq, Bool.or_eq_true, List.isPrefixOf_iff_prefix, List.isPrefixOf_iff_prefix]

theorem not_isNoise_append {switch : String} (hlength : 2 ≤ switch.toList.length)
    (h : isNoise switch = false) (t : String) : isNoise (switch ++ t) = false := by
  rw [isNoise_append hlength, h]

theorem not_isNoise_libraryOf : isNoise (libraryOf named system) = false := by
  unfold libraryOf
  split <;> decide

theorem not_isNoise_documented (hlibrary : isNoise library = false) {k : Kind} {a : String}
    (ha : a ∈ documented library o k) (hwarning : k ≠ .warning) (hinclude : k ≠ .includePath)
    (hextra : k ≠ .extra) : isNoise a = false := by
  revert a
  cases k with
  | language =>
    rw [documented, List.forall_mem_singleton]
    exact not_isNoise_append (by decide) (by decide) _
  | target =>
    rw [documented, List.forall_mem_cons]
    refine ⟨not_isNoise_append (by decide) (by decide) _, ?_⟩
    cases o.wordSize with
    | none => simp
    | some w => cases w <;> decide
  | output =>
    rw [documented]
    cases o.emitIr <;> cases o.verboseAssembly <;> decide
  | standard =>
    rw [documented, List.forall_mem_cons]
    refine ⟨not_isNoise_append (by decide) (by decide) _, ?_⟩
    cases o.language <;> simp [hlibrary]
  | optimization =>
    rw [documented, List.forall_mem_singleton]
    exact not_isNoise_append (by decide) (by decide) _
  | exceptions =>
    rw [documented]
    cases o.language <;> cases o.exceptions <;> decide
  | rtti =>
    rw [documented]
    cases o.language <;> cases o.rtti <;> decide
  | floatingPoint =>
    rw [documented]
    cases o.fastMath <;> decide
  | define =>
    rw [documented, List.forall_mem_map]
    intro d _
    exact not_isNoise_append (by decide) (by decide) _
  | undef =>
    rw [documented, List.forall_mem_map]
    intro u _
    exact not_isNoise_append (by decide) (by decide) _
  | debug =>
    rw [documented]
    cases o.debugInfo <;> decide
  | warning => contradiction
  | includePath => contradiction
  | extra => contradiction

theorem isNoise_of_mem_warning {a : String} (ha : a ∈ documented library o .warning) :
    isNoise a = true := by
  obtain ⟨w, -, rfl⟩ := List.mem_map.mp ha
  rw [isNoise_append (by decide)]
  decide

theorem isNoise_of_mem_includePath {a : String} (ha : a ∈ documented library o .includePath) :
    isNoise a = true := by
  obtain ⟨i, -, rfl⟩ := List.mem_map.mp ha
  rw [isNoise_append (by decide)]
  decide

theorem isShown_documented (hlibrary : isNoise library = false) {k : Kind} {a : String}
    (ha : a ∈ documented library o k) : Flag.IsShown ⟨k, a⟩ ↔ isNoise a = false := by
  by_cases hwarning : k = .warning
  · subst hwarning
    simp [Flag.IsShown, isNoise_of_mem_warning ha]
  by_cases hinclude : k = .includePath
  · subst hinclude
    simp [Flag.IsShown, isNoise_of_mem_includePath ha]
  by_cases hextra : k = .extra
  · subst hextra
    simp [Flag.IsShown, ← isNoise_iff]
  · simp [Flag.IsShown, hwarning, hinclude, hextra,
      not_isNoise_documented hlibrary ha hwarning hinclude hextra]

theorem isShown_iff {f : Flag} (hf : f ∈ o.flags (isDarwin named system)) :
    f.IsShown ↔ isNoise f.text = false := by
  rw [flags_eq_inOrder] at hf
  obtain ⟨k, -, hf⟩ := List.mem_flatMap.mp hf
  obtain ⟨a, ha, rfl⟩ := List.mem_map.mp hf
  exact isShown_documented not_isNoise_libraryOf ha

theorem summary_eq_filter (named : Option String) (system : String) (o : Options) :
    o.summary (isDarwin named system) =
      ((o.flags (isDarwin named system)).filter fun f => f.IsShown).map (·.text) := by
  rw [summary, arguments, List.filter_map]
  congr 1
  apply List.filter_congr
  intro f hf
  rw [Function.comp_apply, Bool.eq_iff_iff, decide_eq_true_iff, isShown_iff hf, Bool.not_eq_true']

theorem shown_withLists (library : String) (o : Options) (warnings includes : List String)
    (k : Kind) : shown library { o with warnings, includes } k = shown library o k := by
  have hempty {o : Options} : (∀ a ∈ documented library o k, isNoise a = true) →
      shown library o k = [] := by
    intro h
    apply List.filter_eq_nil_iff.mpr
    intro a ha
    simp [h a ha]
  cases k with
  | warning => rw [hempty fun a => isNoise_of_mem_warning, hempty fun a => isNoise_of_mem_warning]
  | includePath =>
    rw [hempty fun a => isNoise_of_mem_includePath, hempty fun a => isNoise_of_mem_includePath]
  | _ => rfl

theorem summary_withLists (named : Option String) (system : String) (o : Options)
    (warnings includes : List String) :
    ({ o with warnings, includes } : Options).summary (isDarwin named system) =
      o.summary (isDarwin named system) := by
  rw [summary_eq, summary_eq]
  congr 1
  funext k
  exact shown_withLists _ o warnings includes k

theorem summary_shows (o : Options) (named : Option String) (system : String) :
    let darwin := isDarwin named system
    o.summary darwin = ((o.flags darwin).filter fun f => f.IsShown).map (·.text) ∧
      ∀ warnings includes : List String,
        let o' : Options := { o with warnings, includes }
        o'.summary darwin = o.summary darwin ∧
          ∀ (t : Tools) (marker : String),
            Listing.header t darwin o' marker = Listing.header t darwin o marker := by
  intro darwin
  refine ⟨summary_eq_filter named system o, ?_⟩
  intro warnings includes o'
  have hsummary : o'.summary darwin = o.summary darwin :=
    summary_withLists named system o warnings includes
  refine ⟨hsummary, fun t marker => ?_⟩
  have hshown : Pipeline.summaryOf t darwin o' = Pipeline.summaryOf t darwin o := by
    rw [Pipeline.summaryOf, hsummary]
    rfl
  rw [Listing.header, hshown, Listing.header]

end Options

end AsmLens
