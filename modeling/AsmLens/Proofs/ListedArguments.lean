import AsmLens.Proofs.DistinctWarnings
import AsmLens.Proofs.SeededSnippet

namespace AsmLens

namespace Options

open AsmLens.Flag (Kind)
open AsmLens.Text (inked)

theorem arguments_eq (named : Option String) (system : String) (o : Options) :
    o.arguments (isDarwin named system) =
      Kind.all.flatMap (documented (libraryOf named system) o) := by
  rw [arguments, flags_eq_inOrder, Flag.inOrder, List.map_flatMap]
  congr 1
  funext k
  simp [Flag.ofTexts, Function.comp_def]

def leading (library : String) (o : Options) : List String :=
  (Kind.all.take Kind.warning.rank).flatMap (documented library o)

theorem arguments_leading (named : Option String) (system : String) (o : Options) :
    let library := libraryOf named system
    o.arguments (isDarwin named system) =
      o.leading library ++ (documented library o .warning ++ documented library o .includePath ++
        documented library o .define ++ documented library o .undef ++ documented library o .debug ++
        documented library o .extra) := by
  intro library
  rw [arguments_eq, leading, ← List.take_append_drop Kind.warning.rank Kind.all, List.flatMap_append]
  simp [Kind.rank, Kind.all, library]

theorem wanted_uniqueWarnings {ws : List String} (h : ∀ w ∈ ws, Text.isBlankText w = false) :
    wanted (uniqueWarnings ws) = (ws.map Flag.toWarning).eraseDups := by
  have hshown : blankFirst ws = false := by
    unfold blankFirst
    cases hfirst : ws.find? fun w => (Flag.warningStem w).isEmpty with
    | none => rfl
    | some w => exact h w (List.mem_of_find?_eq_some hfirst)
  rw [uniqueWarnings, wanted_keepFirst, counted_nil, hshown, wanted, Text.inked_eq_self h]
  simp

theorem documented_warning (library : String) (o : Options) :
    documented library o .warning = wanted o.warnings :=
  List.map_congr_left fun w hw => (Flag.toWarning_of_ink w (Text.ink_of_mem_inked hw)).1.symm

theorem documented_includePath (library : String) (o : Options) :
    documented library o .includePath = (inked o.includes).map Flag.toInclude :=
  List.map_congr_left fun i hi => (Flag.toInclude_of_ink i (Text.ink_of_mem_inked hi)).1.symm

end Options

namespace CommandLine

open AsmLens.Text (inked)

theorem inked_items (values : List String) : inked (items values) = items values :=
  Text.inked_eq_self fun part hpart => by
    obtain ⟨v, -, hmem⟩ := List.mem_flatMap.mp hpart
    simpa using (List.mem_filter.mp hmem).2

def listKeys : List CompileKey := [.extra, .define, .undef, .warn, .includePath]

/-- Two readings of command lines that may differ in lists, and in nothing else. -/
structure AlikeOutsideLists (p q : Parsed CompileKey) : Prop where
  extra : p.extra = q.extra
  flags : ∀ key, p.flags key = q.flags key
  texts : ∀ key ∉ listKeys, p.texts key = q.texts key

theorem AlikeOutsideLists.refl (p : Parsed CompileKey) : AlikeOutsideLists p p :=
  ⟨rfl, fun _ => rfl, fun _ _ => rfl⟩

namespace CompileRequest

def withLists (r : CompileRequest) (p : Parsed CompileKey) : CompileRequest :=
  { r with
    defines := p.texts .define
    undefs := p.texts .undef
    warnings := p.texts .warn
    includes := p.texts .includePath
    extra := p.texts .extra
    verbose := p.flag .verbose false
    debugInfo := p.flag .debugInfo false }

theorem ofParsed_eq_map {p q : Parsed CompileKey} (h : AlikeOutsideLists p q) (fs : Files) :
    ofParsed fs q = (ofParsed fs p).map (·.withLists q) := by
  have hflag (key : CompileKey) (fallback : Bool) : p.flag key fallback = q.flag key fallback := by
    rw [Parsed.flag, h.flags, Parsed.flag]
  have htext (key : CompileKey) (hkey : key ∉ listKeys) : p.text? key = q.text? key := by
    rw [Parsed.text?, h.texts key hkey, Parsed.text?]
  have hpath (key : CompileKey) (hkey : key ∉ listKeys) : p.path? key = q.path? key := by
    rw [Parsed.path?, htext key hkey, Parsed.path?]
  have hmap {α : Type} (x : Except Misuse α) (f : α → Except Misuse CompileRequest) :
      (x >>= f).map (·.withLists q) = x >>= fun a => (f a).map (·.withLists q) := by
    cases x <;> rfl
  unfold ofParsed
  simp only [hflag, h.extra, htext .optimization (by decide), htext .language (by decide),
    htext .standard (by decide), htext .architecture (by decide), hpath .input (by decide),
    hpath .out (by decide), hpath .template (by decide), hpath .config (by decide)]
  cases q.extra with
  | nil =>
    simp only [hmap]
    rfl
  | cons a rest =>
    simp only [hmap]
    rfl

theorem eq_withLists {p : Parsed CompileKey} {fs : Files} {r : CompileRequest}
    (h : ofParsed fs p = .ok r) : r = r.withLists p := by
  have hsame := ofParsed_eq_map (.refl p) fs
  rw [h] at hsame
  exact Except.ok.inj hsame

end CompileRequest

namespace CompileRequest

variable {r : CompileRequest} {dir : String} {o : Options}

structure Lists (r : CompileRequest) (dir : String) (o : Options) : Prop where
  warnings : o.warnings = Options.uniqueWarnings
    (if r.warnings.isEmpty then Options.defaultWarnings else items r.warnings)
  includes : o.includes = Options.defaultIncludes dir ++ items r.includes
  defines : o.defines = items r.defines
  undefs : o.undefs = items r.undefs
  debugInfo : o.debugInfo = r.debugInfo
  extraFlags : o.extraFlags = items r.extra ++ if r.verbose then ["-v"] else []

theorem lists_of_toOptions (h : r.toOptions dir = .ok o) : Lists r dir o := by
  obtain ⟨language, asked, -, -, -, rfl⟩ := Options.ofEntries_eq_ok_iff.mp (Options.mapError_eq_ok h)
  have htexts {name : String} {xs : List String} (hne : name ≠ "show_encoding")
      (hgiven : Assoc.get? (r.toEntries dir) name = some (Options.texts xs)) (fallback : List String) :
      ((Options.reconcile (r.toEntries dir)).readTexts name fallback .notSequence).value = xs := by
    rw [Entries.readTexts_of_get? (by rw [Options.get?_reconcile_of_ne hne, hgiven])]
  have hdebug : ((Options.reconcile (r.toEntries dir)).readBool "debug_info" false).value =
      r.debugInfo := by
    rw [Entries.readBool_of_get? (b := r.debugInfo)
      (by rw [Options.get?_reconcile_of_ne (by decide)]; rfl)]
  exact
    { warnings := congrArg Options.uniqueWarnings (htexts (by decide) rfl _)
      includes := htexts (by decide) rfl _
      defines := htexts (by decide) rfl _
      undefs := htexts (by decide) rfl _
      debugInfo := hdebug
      extraFlags := htexts (by decide) rfl _ }

end CompileRequest

def listed (dir : String) (p : Parsed CompileKey) : List String :=
  let warned := if p.texts .warn = [] then ["-Wall", "-Weffc++"]
    else ((items (p.texts .warn)).map Flag.toWarning).eraseDups
  let directories := inked (Options.defaultIncludes dir) ++ items (p.texts .includePath)
  warned ++ directories.map Flag.toInclude ++
    (items (p.texts .define)).map (fun d => "-D" ++ Text.trim d) ++
    (items (p.texts .undef)).map (fun u => "-U" ++ Text.trim u) ++
    (if p.flag .debugInfo false then ["-g"] else []) ++
    (items (p.texts .extra) ++ if p.flag .verbose false then ["-v"] else [])

namespace CompileRequest

variable {r : CompileRequest} {p : Parsed CompileKey} {dir : String} {o : Options}

theorem wanted_warnings (h : Lists (r.withLists p) dir o) : Options.wanted o.warnings =
    if p.texts .warn = [] then ["-Wall", "-Weffc++"]
    else ((items (p.texts .warn)).map Flag.toWarning).eraseDups := by
  rw [h.warnings, withLists]
  by_cases hnone : p.texts .warn = []
  · simp only [hnone, List.isEmpty_nil, if_true]
    decide
  · simp only [List.isEmpty_eq_false_iff.mpr hnone, hnone, if_false]
    refine Options.wanted_uniqueWarnings fun w hw => ?_
    rw [← inked_items] at hw
    exact Text.ink_of_mem_inked hw

theorem inked_extraFlags (h : Lists (r.withLists p) dir o) : inked o.extraFlags =
    items (p.texts .extra) ++ if p.flag .verbose false then ["-v"] else [] := by
  rw [h.extraFlags, withLists, inked, List.filter_append, ← inked, inked_items]
  cases p.flag .verbose false <;> rfl

theorem arguments_listed (h : Lists (r.withLists p) dir o) (named : Option String)
    (system : String) : o.arguments (isDarwin named system) =
      o.leading (Options.libraryOf named system) ++ listed dir p := by
  have hincludes : inked o.includes =
      inked (Options.defaultIncludes dir) ++ items (p.texts .includePath) := by
    rw [h.includes, withLists, inked, List.filter_append, ← inked, ← inked, inked_items]
  rw [Options.arguments_leading, Options.documented_warning, Options.documented_includePath,
    wanted_warnings h, hincludes]
  simp only [Options.documented, inked_extraFlags h, h.defines, h.undefs, h.debugInfo, withLists,
    inked_items, listed]

end CompileRequest

end CommandLine

namespace Session

/-- Each process that was started is a stage of this pipeline, and one that was given no input is a stage
that reads none. -/
def StartsFrom (p : Pipeline) (s t : Session) : Prop :=
  ∃ new, t.events = s.events ++ new ∧ ∀ command input source, .run command input source ∈ new →
    ∃ stage ∈ p, command = stage.command ∧ (input = none → stage.readsInput = false)

variable {p : Pipeline}

theorem RunsNothing.startsFrom {s t : Session} (h : RunsNothing s t) : StartsFrom p s t := by
  obtain ⟨new, hevents, hnew⟩ := h
  refine ⟨new, hevents, fun command input source hrun => ?_⟩
  have hnone := hnew _ hrun
  contradiction

instance : IsPreorder Session (StartsFrom p) where
  refl s := (Std.Refl.refl (r := RunsNothing) s).startsFrom
  trans s t u := by
    rintro ⟨new, hevents, hnew⟩ ⟨later, hevents', hlater⟩
    refine ⟨new ++ later, by rw [hevents', hevents, List.append_assoc], ?_⟩
    intro command input source hrun
    exact (List.mem_append.mp hrun).elim (hnew _ _ _) (hlater _ _ _)

theorem startsFrom_ignoresLog : IgnoresLog (StartsFrom p) :=
  fun _ _ _ => (RunsNothing.of_events rfl).startsFrom

theorem startsFrom_execute (p : Pipeline) : Leaves (StartsFrom p) (execute p) := by
  refine startsFrom_ignoresLog.execute fun s => ⟨_, rfl, fun command input source hrun => ?_⟩
  obtain ⟨start, hmem, hstart⟩ := List.mem_map.mp hrun
  simp only [runEvent, Event.run.injEq] at hstart
  obtain ⟨rfl, rfl, -⟩ := hstart
  exact Pipeline.exists_stage_of_start hmem

end Session

namespace Command

open CommandLine (CompileRequest)

variable {r : CompileRequest} {replies : Replies} {s t : Session} {j : Job} {path : String}

theorem startsFrom_loop (r : CompileRequest) (j : Job) (replies : Replies)
    (path : String) (u : Session) :
    Session.StartsFrom (Pipeline.ofOptions j.tools (isDarwin none u.host.system) j.options path) u
      (finalState (loop r j replies path u)) := by
  have hdesk : (desk j u.host.system replies.readable).KeepsTo path j.options (Session.StartsFrom
      (Pipeline.ofOptions j.tools (isDarwin none u.host.system) j.options path)) :=
    keepsTo_of_ignoresLog Session.startsFrom_ignoresLog
      ((Session.runsNothing_editWith _).mono fun _ _ => Session.RunsNothing.startsFrom)
      (Session.startsFrom_execute _) replies.readable
  exact hdesk.run _ _ u

theorem Opens.startsFrom (h : Opens r s j path t) :
    Session.StartsFrom (Pipeline.ofOptions j.tools (isDarwin none s.host.system) j.options path) s
      (finalState (compile r replies s)) := by
  have hsystem : t.host.system = s.host.system := by rw [h.working.writes.host]
  have hloop := startsFrom_loop r j replies path t
  rw [hsystem] at hloop
  have hfinish := Leaves.after (runsNothing_finish r j path) (a := loop r j replies path) t
  rw [h.compile_eq, Session.finalState_dropAfter]
  have hopened : Session.RunsNothing s t := .of_events h.starts.2.2.1
  refine IsTrans.trans _ _ _ hopened.startsFrom (IsTrans.trans _ _ _ hloop ?_)
  exact IsTrans.trans _ _ _ hfinish.startsFrom (Session.RunsNothing.of_events rfl).startsFrom

theorem command_of_stage {tools : Tools} {darwin : Bool} {o : Options} {path : String} :
    ∀ stage ∈ Pipeline.ofOptions tools darwin o path, stage.readsInput = false →
      stage.command = compileCommand tools darwin o path := by
  refine List.forall_mem_cons.mpr ⟨fun _ => rfl, fun stage hstage hreads => ?_⟩
  rw [Pipeline.readsInput_of_later stage hstage] at hreads
  contradiction

theorem options_of_prepare (h : prepare r s = .ok j t) :
    r.toOptions s.host.directory = .ok j.options := by
  unfold prepare at h
  obtain ⟨settings, u, hstart, h⟩ := Desk.bind_eq_ok_iff.mp h
  obtain ⟨v, w, hget, h⟩ := Desk.bind_eq_ok_iff.mp h
  obtain ⟨o, x, ho, h⟩ := Desk.bind_eq_ok_iff.mp h
  obtain ⟨text, y, -, h⟩ := Desk.bind_eq_ok_iff.mp h
  obtain ⟨z, z', -, h⟩ := Desk.bind_eq_ok_iff.mp h
  obtain ⟨rfl, -⟩ := Desk.pure_eq_ok_iff.mp h
  cases hget
  have hhost := ((Session.quiet_start r.config).of_ok hstart).host
  rw [← hhost]
  exact (Session.lift_eq_ok_iff.mp ho).1

end Command

end AsmLens
