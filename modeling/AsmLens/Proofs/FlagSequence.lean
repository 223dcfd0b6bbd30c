import AsmLens.Flag.Sequence
import AsmLens.Proofs.OptionsResolution

namespace AsmLens

namespace Text

theorem isBlankText_append (s t : String) :
    isBlankText (s ++ t) = (isBlankText s && isBlankText t) := by
  simp [isBlankText]

theorem not_isBlankText_append {s : String} (h : isBlankText s = false) (t : String) :
    isBlankText (s ++ t) = false := by
  rw [isBlankText_append, h, Bool.false_and]

theorem isBlankText_iff {s : String} : isBlankText s = true ↔ trimChars s.toList = [] :=
  trimChars_eq_nil_iff.symm

def inked (texts : List String) : List String := texts.filter fun t => !isBlankText t

theorem inked_nil : inked [] = [] := rfl

theorem inked_cons {s : String} (h : isBlankText s = false) (texts : List String) :
    inked (s :: texts) = s :: inked texts := by
  rw [inked, List.filter_cons_of_pos (by rw [h]; rfl), inked]

theorem inked_cons_of_blank {s : String} (h : isBlankText s = true) (texts : List String) :
    inked (s :: texts) = inked texts := by
  rw [inked, List.filter_cons_of_neg (by rw [h]; decide), inked]

theorem ink_of_mem_inked {s : String} {texts : List String} (h : s ∈ inked texts) :
    isBlankText s = false := by
  simpa using (List.mem_filter.mp h).2

theorem inked_eq_self {texts : List String} (h : ∀ t ∈ texts, isBlankText t = false) :
    inked texts = texts := by
  apply List.filter_eq_self.mpr
  intro t ht
  rw [h t ht]
  rfl

theorem inked_map {f g : String → String} (hblank : ∀ s, isBlankText s = true → f s = "")
    (hink : ∀ s, isBlankText s = false → f s = g s ∧ isBlankText (g s) = false)
    (texts : List String) : inked (texts.map f) = (inked texts).map g := by
  induction texts with
  | nil => rfl
  | cons s texts ih =>
    cases hs : isBlankText s with
    | true =>
      rw [List.map_cons, hblank s hs, inked_cons_of_blank (by decide), inked_cons_of_blank hs, ih]
    | false =>
      obtain ⟨hf, hg⟩ := hink s hs
      rw [List.map_cons, hf, inked_cons hg, inked_cons hs, List.map_cons, ih]

end Text

namespace Flag

theorem toWarning_of_blank (s : String) (h : Text.isBlankText s = true) : toWarning s = "" :=
  if_pos (Text.isBlankText_iff.mp h)

theorem toWarning_of_ink (s : String) (h : Text.isBlankText s = false) :
    toWarning s = "-W" ++ String.ofList (warningStem s) ∧
      Text.isBlankText ("-W" ++ String.ofList (warningStem s)) = false := by
  refine ⟨?_, Text.not_isBlankText_append (by decide) _⟩
  rw [toWarning, if_neg (by rw [← Text.isBlankText_iff, h]; decide), ← String.toList_inj]
  simp

theorem toInclude_of_blank (s : String) (h : Text.isBlankText s = true) : toInclude s = "" :=
  if_pos (Text.isBlankText_iff.mp h)

theorem toInclude_of_ink (s : String) (h : Text.isBlankText s = false) :
    toInclude s = "-I" ++ String.ofList (includeStem s) ∧
      Text.isBlankText ("-I" ++ String.ofList (includeStem s)) = false := by
  refine ⟨?_, Text.not_isBlankText_append (by decide) _⟩
  rw [toInclude, if_neg (by rw [← Text.isBlankText_iff, h]; decide), ← String.toList_inj]
  simp

def textsOf (kind : Kind) (flags : List Flag) : List String :=
  (flags.filter fun f => f.kind == kind).map (·.text)

def inOrder (texts : Kind → List String) : List Flag :=
  Kind.all.flatMap fun k => ofTexts k (texts k)

theorem Kind.getElem?_rank (k : Kind) : Kind.all[k.rank]? = some k := by
  cases k <;> rfl

theorem Kind.pairwise_rank : Kind.all.Pairwise fun j k => j.rank ≤ k.rank := by
  decide

theorem present_ofTexts (kind : Kind) (texts : List String) :
    present (ofTexts kind texts) = ofTexts kind (Text.inked texts) := by
  simp only [present, ofTexts, List.filter_map]
  rfl

theorem present_inOrder (texts : Kind → List String) :
    present (inOrder texts) = inOrder fun k => Text.inked (texts k) := by
  simp only [inOrder, ← present_ofTexts]
  exact List.filter_flatMap

theorem kind_of_mem_ofTexts {kind : Kind} {texts : List String} {f : Flag}
    (h : f ∈ ofTexts kind texts) : f.kind = kind := by
  obtain ⟨t, -, rfl⟩ := List.mem_map.mp h
  rfl

theorem pairwise_inOrder (texts : Kind → List String) :
    (inOrder texts).Pairwise fun f g => f.kind.rank ≤ g.kind.rank := by
  apply List.pairwise_flatMap.mpr
  constructor
  · intro k _
    apply List.pairwise_iff_forall_sublist.mpr
    intro f g hfg
    have hf : f.kind = k := kind_of_mem_ofTexts (hfg.subset (by simp))
    have hg : g.kind = k := kind_of_mem_ofTexts (hfg.subset (by simp))
    exact Nat.le_of_eq (by rw [hf, hg])
  · apply Kind.pairwise_rank.imp
    intro j k hjk f hf g hg
    rwa [kind_of_mem_ofTexts hf, kind_of_mem_ofTexts hg]

theorem textsOf_ofTexts (j k : Kind) (texts : List String) :
    textsOf k (ofTexts j texts) = if j = k then texts else [] := by
  unfold textsOf ofTexts
  split
  · rename_i h
    simp [h, List.filter_map, Function.comp_def]
  · rename_i h
    simp [h, List.filter_map, Function.comp_def]

theorem textsOf_inOrder (k : Kind) (texts : Kind → List String) :
    textsOf k (inOrder texts) = texts k := by
  have h : textsOf k (inOrder texts) =
      Kind.all.flatMap fun j => textsOf k (ofTexts j (texts j)) := by
    simp only [textsOf, inOrder, List.filter_flatMap, List.map_flatMap]
  rw [h]
  simp only [textsOf_ofTexts]
  cases k <;> simp [Kind.all]

end Flag

namespace Options

open AsmLens.Flag (Kind)

def libraryOf (named : Option String) (system : String) : String :=
  if (named.filter (· != "")).getD system = "Darwin" then "-stdlib=libc++" else "-stdlib=libstdc++"

def documented (library : String) (o : Options) : Kind → List String
  | .language => ["-x" ++ o.language.name]
  | .target =>
    ("-march=" ++ o.architecture) ::
      match o.wordSize with
      | none => []
      | some .bits32 => ["-m32"]
      | some .bits64 => ["-m64"]
  | .output =>
    "-S" :: ((if o.emitIr then ["-emit-llvm"] else []) ++
      if o.verboseAssembly then ["-Xclang", "-masm-verbose"] else [])
  | .standard =>
    ("-std=" ++ o.standard) ::
      match o.language with
      | .c | .objC => []
      | .cxx | .objCxx => [library]
  | .optimization => ["-O" ++ o.optimization.name]
  | .exceptions =>
    match o.language, o.exceptions with
    | .c, _ | .objC, _ => []
    | .cxx, true => ["-fexceptions"]
    | .cxx, false => ["-fno-exceptions"]
    | .objCxx, true => ["-fexceptions", "-fobjc-exceptions"]
    | .objCxx, false => ["-fno-exceptions", "-fno-objc-exceptions"]
  | .rtti =>
    match o.language, o.rtti with
    | .c, _ | .objC, _ => []
    | .cxx, true | .objCxx, true => ["-frtti"]
    | .cxx, false | .objCxx, false => ["-fno-rtti"]
  | .floatingPoint => if o.fastMath then ["-ffast-math"] else []
  | .warning =>
    (Text.inked o.warnings).map fun w => "-W" ++ String.ofList (Flag.warningStem w)
  | .includePath =>
    (Text.inked o.includes).map fun i => "-I" ++ String.ofList (Flag.includeStem i)
  | .define => (Text.inked o.defines).map fun d => "-D" ++ Text.trim d
  | .undef => (Text.inked o.undefs).map fun u => "-U" ++ Text.trim u
  | .debug => if o.debugInfo then ["-g"] else []
  | .extra => Text.inked o.extraFlags

def chosen (darwin : Bool) (o : Options) : Kind → List String
  | .language => ["-x" ++ o.language.name]
  | .target => ("-march=" ++ o.architecture) :: o.sizeFlags
  | .output => o.outputFlags
  | .standard => ("-std=" ++ o.standard) :: o.libraryFlags darwin
  | .optimization => ["-O" ++ o.optimization.name]
  | .exceptions => o.exceptionFlags
  | .rtti => o.rttiFlags
  | .floatingPoint => if o.fastMath then ["-ffast-math"] else []
  | .warning => o.warnings.map Flag.toWarning
  | .includePath => o.includes.map Flag.toInclude
  | .define => named "-D" o.defines
  | .undef => named "-U" o.undefs
  | .debug => if o.debugInfo then ["-g"] else []
  | .extra => o.extraFlags

theorem allFlags_eq_inOrder (darwin : Bool) (o : Options) :
    o.allFlags darwin = Flag.inOrder (o.chosen darwin) := by
  simp only [allFlags, Flag.inOrder, Kind.all, chosen, List.flatMap_cons, List.flatMap_nil,
    List.append_assoc, List.append_nil]

theorem libraryOf_eq (named : Option String) (system : String) :
    libraryOf named system =
      if isDarwin named system then "-stdlib=libc++" else "-stdlib=libstdc++" := by
  unfold libraryOf isDarwin
  cases named with
  | none => simp
  | some p =>
    by_cases hp : p = "" <;> simp [hp, Option.filter]

theorem inked_chosen (named : Option String) (system : String) (o : Options) (k : Kind) :
    Text.inked (o.chosen (isDarwin named system) k) = documented (libraryOf named system) o k := by
  -- A text after a switch is never blank; the texts that stand alone are few and can be tried.
  cases k with
  | language =>
    rw [chosen, Text.inked_cons (Text.not_isBlankText_append (by decide) _), Text.inked_nil]
    rfl
  | target =>
    rw [chosen, Text.inked_cons (Text.not_isBlankText_append (by decide) _), documented, sizeFlags]
    congr 1
    cases o.wordSize with
    | none => rfl
    | some w => cases w <;> decide
  | output =>
    rw [chosen, documented, outputFlags]
    cases o.emitIr <;> cases o.verboseAssembly <;> decide
  | standard =>
    rw [chosen, Text.inked_cons (Text.not_isBlankText_append (by decide) _), documented]
    congr 1
    rw [libraryOf_eq, libraryFlags, isCxx]
    cases o.language <;> cases isDarwin named system <;> decide
  | optimization =>
    rw [chosen, Text.inked_cons (Text.not_isBlankText_append (by decide) _), Text.inked_nil]
    rfl
  | exceptions =>
    rw [chosen, documented, exceptionFlags]
    unfold isCxx isObjC
    cases o.language <;> cases o.exceptions <;> decide
  | rtti =>
    rw [chosen, documented, rttiFlags, isCxx]
    cases o.language <;> cases o.rtti <;> decide
  | floatingPoint =>
    rw [chosen, documented]
    cases o.fastMath <;> decide
  | warning => exact Text.inked_map Flag.toWarning_of_blank Flag.toWarning_of_ink o.warnings
  | includePath => exact Text.inked_map Flag.toInclude_of_blank Flag.toInclude_of_ink o.includes
  | define =>
    apply Text.inked_eq_self
    intro t ht
    obtain ⟨d, -, rfl⟩ := List.mem_map.mp ht
    exact Text.not_isBlankText_append (by decide) _
  | undef =>
    apply Text.inked_eq_self
    intro t ht
    obtain ⟨d, -, rfl⟩ := List.mem_map.mp ht
    exact Text.not_isBlankText_append (by decide) _
  | debug =>
    rw [chosen, documented]
    cases o.debugInfo <;> decide
  | extra => rfl

theorem flags_eq_inOrder (named : Option String) (system : String) (o : Options) :
    o.flags (isDarwin named system) = Flag.inOrder (documented (libraryOf named system) o) := by
  rw [flags, allFlags_eq_inOrder, Flag.present_inOrder]
  congr 1
  funext k
  exact inked_chosen named system o k

theorem ink_of_mem_flags {darwin : Bool} {o : Options} {f : Flag} (h : f ∈ o.flags darwin) :
    ∃ c ∈ f.text.toList, Text.isBlank c = false := by
  have hf := (List.mem_filter.mp h).2
  simpa [Text.isBlankText] using hf

theorem plusPlus_infix_standard {s : String} :
    Language.plusPlus <:+: ("-std=" ++ s).toList ↔ Language.plusPlus <:+: s.toList := by
  rw [← Text.holds_iff, ← Text.holds_iff, String.toList_append]
  exact Iff.rfl

theorem flags_documented (o : Options) (named : Option String) (system : String) (h : Resolved o) :
    o.flags (isDarwin named system) = Flag.inOrder (documented (libraryOf named system) o) ∧
      (∀ f ∈ o.flags (isDarwin named system), ∃ c ∈ f.text.toList, Text.isBlank c = false) ∧
      (o.flags (isDarwin named system)).Pairwise (fun f g => f.kind.rank ≤ g.kind.rank) ∧
      (o.language = .c ∨ o.language = .objC →
        Flag.textsOf .exceptions (o.flags (isDarwin named system)) = [] ∧
        Flag.textsOf .rtti (o.flags (isDarwin named system)) = [] ∧
        Flag.textsOf .standard (o.flags (isDarwin named system)) = ["-std=" ++ o.standard] ∧
        ¬Language.plusPlus <:+: ("-std=" ++ o.standard).toList) := by
  have hflags := flags_eq_inOrder named system o
  refine ⟨hflags, fun f hf => ink_of_mem_flags hf, ?_, ?_⟩
  · rw [hflags]
    exact Flag.pairwise_inOrder _
  · intro hl
    rw [hflags, Flag.textsOf_inOrder, Flag.textsOf_inOrder, Flag.textsOf_inOrder,
      plusPlus_infix_standard]
    have hplain := h.settled.standard_plain hl
    rcases hl with hl | hl
    · simpa only [documented, hl, true_and] using hplain
    · simpa only [documented, hl, true_and] using hplain

def plainEntries : Entries :=
  [("language", .text "objective-c"), ("standard", .text " gnu++11 "),
    ("warnings", .array [.text "all", .text "-Wall", .text " "])]

theorem flags_documented_objC :
    ∃ o, Resolved o ∧
      Flag.textsOf .standard (o.flags (isDarwin none "Linux")) = ["-std=gnu11"] ∧
      Flag.textsOf .rtti (o.flags (isDarwin none "Linux")) = [] ∧
      (o.flags (isDarwin none "Linux")).Pairwise fun f g => f.kind.rank ≤ g.kind.rank := by
  obtain ⟨o, ho, hl, hs⟩ : ∃ o, ofEntries "/work" plainEntries = .ok o ∧
      o.language = .objC ∧ o.standard = "gnu11" := ⟨_, rfl, rfl, rfl⟩
  have hresolved : Resolved o := resolved_of_ofEntries ho
  obtain ⟨-, -, hpairwise, hplain⟩ := flags_documented o none "Linux" hresolved
  obtain ⟨-, hrtti, hstandard, -⟩ := hplain (.inr hl)
  exact ⟨o, hresolved, by rw [hstandard, hs]; rfl, hrtti, hpairwise⟩

end Options

end AsmLens
