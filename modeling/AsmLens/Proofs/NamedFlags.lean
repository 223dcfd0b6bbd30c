import AsmLens.Pipeline.Stage
import AsmLens.Proofs.DistinctWarnings
import AsmLens.Proofs.SpelledFlags

/-!
Flags that name something: a macro or a directory stands in the same word as its switch. A bare switch would
take the next word for its name; the only way to one is an include directory that is written as the switch
alone.
-/

namespace AsmLens

open AsmLens.Flag (Kind)

theorem Text.isBlankText_trim (s : String) : isBlankText (trim s) = isBlankText s := by
  have htrimmed := (trimmed_trimChars s.toList).trimChars_eq
  rw [Bool.eq_iff_iff, isBlankText_iff, isBlankText_iff, toList_trim, htrimmed]

namespace Flag

/-- The switch of a kind of flag that has to name something. -/
def namingSwitch? : Kind → Option String
  | .includePath => some "-I"
  | .define => some "-D"
  | .undef => some "-U"
  | _ => none

def Names (switch text : String) : Prop :=
  ∃ name, text = switch ++ name ∧ Text.isBlankText name = false

theorem Names.ne_switch {switch text : String} (h : Names switch text) : text ≠ switch := by
  rintro rfl
  obtain ⟨name, hname, hink⟩ := h
  have hempty : "" = name := by
    rwa [← String.append_right_inj text, String.append_empty]
  rw [← hempty] at hink
  contradiction

theorem names_append_trim (switch : String) {s : String} (h : Text.isBlankText s = false) :
    Names switch (switch ++ Text.trim s) :=
  ⟨Text.trim s, rfl, by rw [Text.isBlankText_trim, h]⟩

theorem includeStem_eq_nil_iff {s : String} (h : Text.isBlankText s = false) :
    includeStem s = [] ↔ Text.TrimmedTo s.toList ['-', 'I'] := by
  obtain ⟨t, ht, p, hp, hsplit, -⟩ := remainder_includeStem s
  have hne : t ≠ [] := by
    intro hnil
    rw [← Bool.not_eq_true, Text.isBlankText_iff, ← ht.eq] at h
    exact h hnil
  constructor
  · intro hstem
    rw [hstem, List.append_nil] at hsplit
    subst hsplit
    simp only [includeSpellings, List.mem_cons, List.not_mem_nil, or_false, hne, false_or] at hp
    rwa [hp] at ht
  · intro hbare
    exact (remainder_includeStem s).unique ⟨_, hbare, unspelled_stripInclude _⟩

theorem names_include {s : String} (hstem : includeStem s ≠ []) :
    Names "-I" ("-I" ++ String.ofList (includeStem s)) := by
  refine ⟨_, rfl, ?_⟩
  obtain ⟨t, ht, p, -, hsplit, -⟩ := remainder_includeStem s
  -- The end of the remainder is the end of the trimmed text, which is no blank.
  obtain ⟨c, hc⟩ := Option.ne_none_iff_exists'.mp (mt List.getLast?_eq_none_iff.mp hstem)
  have hlast : Text.isBlank c = false := by
    apply ht.trimmed.last
    rw [hsplit, List.getLast?_append_of_ne_nil p hstem, hc]
  rw [Text.isBlankText, String.toList_ofList, List.all_eq_false]
  exact ⟨c, List.mem_of_getLast? hc, by simp [hlast]⟩

theorem mem_inOrder {texts : Kind → List String} {f : Flag} :
    f ∈ inOrder texts ↔ f.text ∈ texts f.kind := by
  simp only [inOrder, ofTexts, List.mem_flatMap, List.mem_map]
  constructor
  · rintro ⟨k, -, t, ht, rfl⟩
    exact ht
  · intro h
    exact ⟨f.kind, List.mem_of_getElem? (Kind.getElem?_rank f.kind), f.text, h, rfl⟩

end Flag

namespace Options

variable {o : Options} {named : Option String} {system : String}

theorem mem_flags_iff {f : Flag} : f ∈ o.flags (isDarwin named system) ↔
    f.text ∈ documented (libraryOf named system) o f.kind := by
  rw [flags_eq_inOrder, Flag.mem_inOrder]

theorem names_of_named (switch : String) {a : String} {entries : List String}
    (h : a ∈ (Text.inked entries).map fun d => switch ++ Text.trim d) : Flag.Names switch a := by
  obtain ⟨d, hd, rfl⟩ := List.mem_map.mp h
  exact Flag.names_append_trim switch (Text.ink_of_mem_inked hd)

theorem names_or_bare {a : String} {entries : List String}
    (h : a ∈ (Text.inked entries).map fun i => "-I" ++ String.ofList (Flag.includeStem i)) :
    Flag.Names "-I" a ∨ a = "-I" := by
  obtain ⟨i, hi, rfl⟩ := List.mem_map.mp h
  by_cases hstem : Flag.includeStem i = []
  · right
    rw [hstem]
    rfl
  · exact .inl (Flag.names_include hstem)

theorem names_or_bare_include {f : Flag} (hf : f ∈ o.flags (isDarwin named system)) {switch : String}
    (hswitch : Flag.namingSwitch? f.kind = some switch) :
    Flag.Names switch f.text ∨ f = ⟨.includePath, "-I"⟩ := by
  obtain ⟨kind, text⟩ := f
  rw [mem_flags_iff] at hf
  cases kind with
  | includePath =>
    obtain rfl := Option.some.inj hswitch
    rcases names_or_bare hf with hnames | rfl
    · exact .inl hnames
    · exact .inr rfl
  | define =>
    obtain rfl := Option.some.inj hswitch
    exact .inl (names_of_named "-D" hf)
  | undef =>
    obtain rfl := Option.some.inj hswitch
    exact .inl (names_of_named "-U" hf)
  | _ => contradiction

theorem bare_include_iff : ⟨.includePath, "-I"⟩ ∈ o.flags (isDarwin named system) ↔
    ∃ i ∈ o.includes, Text.TrimmedTo i.toList ['-', 'I'] := by
  rw [mem_flags_iff, documented, List.mem_map]
  have hstem (i : String) : "-I" ++ String.ofList (Flag.includeStem i) = "-I" ↔
      Flag.includeStem i = [] := by
    rw [String.append_eq_left_iff, String.ofList_eq_empty_iff]
  simp only [hstem]
  constructor
  · rintro ⟨i, hi, hbare⟩
    have hink := Text.ink_of_mem_inked hi
    exact ⟨i, List.mem_of_mem_filter hi, (Flag.includeStem_eq_nil_iff hink).mp hbare⟩
  · rintro ⟨i, hi, hbare⟩
    have hink : Text.isBlankText i = false := by
      rw [← Bool.not_eq_true, Text.isBlankText_iff, ← hbare.eq]
      decide
    exact ⟨i, List.mem_filter.mpr ⟨hi, by rw [hink]; rfl⟩, (Flag.includeStem_eq_nil_iff hink).mpr hbare⟩

theorem named_flags (o : Options) (named : Option String) (system : String) :
    let flags := o.flags (isDarwin named system)
    (∀ f ∈ flags, ∀ switch, Flag.namingSwitch? f.kind = some switch →
        Flag.Names switch f.text ∨ f = ⟨.includePath, "-I"⟩) ∧
      (⟨.includePath, "-I"⟩ ∈ flags ↔ ∃ i ∈ o.includes, Text.TrimmedTo i.toList ['-', 'I']) ∧
      ((∀ f ∈ flags, ∀ switch, Flag.namingSwitch? f.kind = some switch →
          Flag.Names switch f.text ∧ f.text ≠ switch) ↔
        ∀ i ∈ o.includes, ¬Text.TrimmedTo i.toList ['-', 'I']) := by
  intro flags
  refine ⟨fun f hf switch => names_or_bare_include hf, bare_include_iff, ?_⟩
  constructor
  · intro hnamed i hi hbare
    have hmem : ⟨.includePath, "-I"⟩ ∈ flags := bare_include_iff.mpr ⟨i, hi, hbare⟩
    exact (hnamed _ hmem "-I" rfl).2 rfl
  · intro hnone f hf switch hswitch
    rcases names_or_bare_include hf hswitch with hnames | rfl
    · exact ⟨hnames, hnames.ne_switch⟩
    · obtain ⟨i, hi, hbare⟩ := bare_include_iff.mp hf
      exact absurd hbare (hnone i hi)

theorem named_flags_spelled :
    ∃ o, resolve "/src" (.table [("include_directories", texts ["-I /opt", " "]),
        ("defines", texts [" A=1 "]), ("undefs", texts ["-U"])]) = .ok o ∧
      (∀ i ∈ o.includes, ¬Text.TrimmedTo i.toList ['-', 'I']) ∧
      ∀ f ∈ o.flags (isDarwin none "Linux"), ∀ switch, Flag.namingSwitch? f.kind = some switch →
        Flag.Names switch f.text ∧ f.text ≠ switch := by
  obtain ⟨o, ho, hincludes⟩ : ∃ o, resolve "/src" (.table [("include_directories", texts ["-I /opt", " "]),
      ("defines", texts [" A=1 "]), ("undefs", texts ["-U"])]) = .ok o ∧
      o.includes = ["-I /opt", " "] := ⟨_, rfl, rfl⟩
  have hnone : ∀ i ∈ o.includes, ¬Text.TrimmedTo i.toList ['-', 'I'] := by
    simp only [hincludes, Text.trimmedTo_iff]
    decide
  exact ⟨o, ho, hnone, (named_flags o none "Linux").2.2.mpr hnone⟩

theorem bare_include_takes_source :
    ∃ o, resolve "/src" (.table [("include_directories", texts ["-I"])]) = .ok o ∧
      ⟨.includePath, "-I"⟩ ∈ o.flags (isDarwin none "Linux") ∧
      (Pipeline.ofOptions Tools.standard (isDarwin none "Linux") o "a.cpp").map (·.command) =
        [["clang", "-xc++", "-march=native", "-S", "-Xclang", "-masm-verbose", "-std=c++1y",
          "-stdlib=libstdc++", "-O3", "-fno-exceptions", "-fno-rtti", "-Wall", "-Weffc++", "-I",
          "a.cpp", "-o", "-"], ["c++filt"]] := by
  have hresolve : resolve "/src" (.table [("include_directories", texts ["-I"])]) =
      .ok { unasked "/src" with includes := ["-I"] } := rfl
  refine ⟨_, hresolve, bare_include_iff.mpr ⟨"-I", ?_, ?_⟩, by decide +kernel⟩
  · exact List.mem_singleton_self _
  · rw [Text.trimmedTo_iff]
    decide

end Options

end AsmLens
