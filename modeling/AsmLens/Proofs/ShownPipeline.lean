import AsmLens.Listing
import AsmLens.Proofs.FlagSequence
import AsmLens.Proofs.PipelineExecution
import AsmLens.Session.Desk

namespace AsmLens

namespace Options

theorem isNoise_eq (a : String) :
    isNoise a = (['-', 'W'].isPrefixOf a.toList || ['-', 'I'].isPrefixOf a.toList) := by
  have hstarts (t s : List Char) : Text.starts t s = t.isPrefixOf s := by
    rw [Bool.eq_iff_iff, Text.starts_iff, List.isPrefixOf_iff_prefix]
  rw [isNoise, hstarts, hstarts]

theorem isNoise_append {switch : String} (h : 2 ≤ switch.toList.length) (t : String) :
    isNoise (switch ++ t) = isNoise switch := by
  rw [isNoise_eq, isNoise_eq, String.toList_append]
  match hs : switch.toList with
  | [] => simp [hs] at h
  | [a] => simp [hs] at h
  | a :: b :: s => simp [List.isPrefixOf]

theorem filter_switched {switch : String} (hlength : 2 ≤ switch.toList.length) {α : Type}
    (text : α → String) (xs : List α) :
    (xs.map fun x => switch ++ text x).filter (fun a => !isNoise a) =
      if isNoise switch then [] else xs.map fun x => switch ++ text x := by
  have hnoise (t : String) : isNoise (switch ++ t) = isNoise switch := isNoise_append hlength t
  cases hswitch : isNoise switch <;> simp [hnoise, hswitch]

def shown (library : String) (o : Options) (k : Flag.Kind) : List String :=
  (documented library o k).filter fun a => !isNoise a

theorem summary_eq (named : Option String) (system : String) (o : Options) :
    o.summary (isDarwin named system) = Flag.Kind.all.flatMap (shown (libraryOf named system) o) := by
  rw [summary, arguments, flags_eq_inOrder, Flag.inOrder, List.map_flatMap, List.filter_flatMap]
  simp only [Flag.ofTexts, List.map_map, Function.comp_def, List.map_id']
  rfl

end Options

namespace Pipeline

/-- A command without the last three words, and without warnings and include directories after the
program. -/
def readable (command : List String) : List String :=
  match command.take (command.length - 3) with
  | [] => []
  | program :: arguments =>
    program :: arguments.filter fun a =>
      !(['-', 'W'].isPrefixOf a.toList || ['-', 'I'].isPrefixOf a.toList)

theorem readable_command (program : String) (arguments : List String) (source : String) :
    readable (program :: (arguments ++ [source, "-o", "-"])) =
      program :: arguments.filter fun a => !Options.isNoise a := by
  have htake : (program :: (arguments ++ [source, "-o", "-"])).take
      ((program :: (arguments ++ [source, "-o", "-"])).length - 3) = program :: arguments := by
    simp
  simp only [readable, htake, Options.isNoise_eq]

theorem names_stages (t : Tools) (o : Options) (command : List String) :
    names (compileStage command :: laterStages t o) =
      "compile" :: ((if o.showEncoding then ["encode"] else []) ++
        if o.shouldDemangle then ["demangle"] else []) := by
  unfold names laterStages
  cases o.showEncoding <;> cases o.shouldDemangle <;> rfl

theorem encode_mem_names {t : Tools} {o : Options} {command : List String} :
    "encode" ∈ names (compileStage command :: laterStages t o) ↔ o.showEncoding = true := by
  rw [names_stages]
  cases o.showEncoding <;> cases o.shouldDemangle <;> decide

theorem shouldDemangle_iff {o : Options} :
    o.shouldDemangle = true ↔
      o.demangle = true ∧ (o.language = .cxx ∨ o.language = .objCxx) := by
  unfold Options.shouldDemangle Options.isCxx
  cases o.demangle <;> cases o.language <;> decide

theorem demangle_mem_names {t : Tools} {o : Options} {command : List String} :
    "demangle" ∈ names (compileStage command :: laterStages t o) ↔
      o.demangle = true ∧ (o.language = .cxx ∨ o.language = .objCxx) := by
  rw [← shouldDemangle_iff, names_stages]
  cases o.showEncoding <;> cases o.shouldDemangle <;> decide

theorem commands_of_starts (data : Bytes) (ran : List String) (p : Pipeline) (launches : List Launch) :
    (runFrom data ran p launches).starts.map (·.command) <+: p.map (·.command) := by
  induction p generalizing data ran launches with
  | nil => exact List.nil_prefix
  | cons s p ih =>
    by_cases hc : s.command = []
    · simp only [runFrom, hc]
      exact List.nil_prefix
    · obtain ⟨log, hrun⟩ := runFrom_cons data ran s p launches hc
      rw [hrun]
      split
      · simp only [Run.after, List.singleton_append, List.map_cons, startAt]
        exact (List.prefix_cons_inj _).mpr (ih _ _ _)
      · exact List.prefix_append [s.command] (p.map Stage.command)

theorem header_describes_run (t : Tools) (named : Option String) (system : String) (o : Options)
    (source marker : String) (h : Options.Resolved o) :
    let darwin := isDarwin named system
    let shown := summaryOf t darwin o
    let ran := ofOptions t darwin o source
    Listing.header t darwin o marker = marker ++ " Compiled with `" ++ shown.describe ++ "`\n" ∧
      (∀ editor confirm,
        (Session.desk t darwin editor confirm).attempt source o = Session.execute ran) ∧
      (∀ launches, (ran.run launches).starts.map (·.command) <+: ran.map (·.command)) ∧
      shown.names = ran.names ∧
      shown.tail = ran.tail ∧
      (∃ first, ran.head? = some first ∧
        first.command.drop (first.command.length - 3) = [source, "-o", "-"] ∧
        shown.head? = some { first with command := readable first.command }) ∧
      ("encode" ∈ shown.names ↔ o.showEncoding = true) ∧
      ("encode" ∈ ran.names ↔ o.showEncoding = true) ∧
      ("demangle" ∈ shown.names ↔
        o.demangle = true ∧ (o.language = .cxx ∨ o.language = .objCxx)) ∧
      ("demangle" ∈ ran.names ↔
        o.demangle = true ∧ (o.language = .cxx ∨ o.language = .objCxx)) ∧
      (o.emitIr = true → "encode" ∉ shown.names ∧ "encode" ∉ ran.names) := by
  intro darwin shown ran
  have hcommand : readable (t.compiler :: (o.arguments darwin ++ [source, "-o", "-"])) =
      t.compiler :: o.summary darwin := readable_command t.compiler (o.arguments darwin) source
  have hencode : "encode" ∈ shown.names ↔ o.showEncoding = true := encode_mem_names
  have hencodeRan : "encode" ∈ ran.names ↔ o.showEncoding = true := encode_mem_names
  refine ⟨?_, ?_, ?_, ?_, ?_, ?_, hencode, hencodeRan, demangle_mem_names, demangle_mem_names, ?_⟩
  · simp only [Listing.header, shown]
  · intro editor confirm
    rfl
  · intro launches
    exact commands_of_starts [] [] ran launches
  · exact (names_stages t o _).trans (names_stages t o _).symm
  · simp only [shown, ran, summaryOf, ofOptions, List.tail_cons]
  · refine ⟨compileStage (t.compiler :: (o.arguments darwin ++ [source, "-o", "-"])), rfl, ?_, ?_⟩
    · simp [compileStage]
    · change some (compileStage (t.compiler :: o.summary darwin)) = some (compileStage (readable _))
      simp only [compileStage, hcommand]
  · intro hemit
    have hshow : ¬o.showEncoding = true := by
      rw [h.settled.encoding hemit]
      exact Bool.false_ne_true
    exact ⟨mt hencode.mp hshow, mt hencodeRan.mp hshow⟩

def intermediateEntries : Entries :=
  [("emit_ir", .bool true), ("show_encoding", .bool true),
    ("extra_flags", .array [.text "-Ihere", .text "-g"])]

theorem header_describes_run_intermediate :
    ∃ o, Options.Resolved o ∧ o.emitIr = true ∧
      (summaryOf .standard (isDarwin none "Linux") o).names =
        (ofOptions .standard (isDarwin none "Linux") o "a.cpp").names ∧
      "encode" ∉ (ofOptions .standard (isDarwin none "Linux") o "a.cpp").names ∧
      "demangle" ∈ (ofOptions .standard (isDarwin none "Linux") o "a.cpp").names := by
  obtain ⟨o, ho, hemit, hdemangle, hl⟩ :
      ∃ o, Options.ofEntries "/work" intermediateEntries = .ok o ∧ o.emitIr = true ∧
        o.demangle = true ∧ o.language = .cxx := ⟨_, rfl, rfl, rfl, rfl⟩
  have hresolved : Options.Resolved o := Options.resolved_of_ofEntries ho
  obtain ⟨-, -, -, hnames, -, -, -, -, -, hran, hplain⟩ :=
    header_describes_run .standard none "Linux" o "a.cpp" "#" hresolved
  exact ⟨o, hresolved, hemit, hnames, (hplain hemit).2, hran.mpr ⟨hdemangle, .inl hl⟩⟩

end Pipeline

end AsmLens
