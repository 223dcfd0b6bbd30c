import AsmLens.Proofs.FailedLaunches
import AsmLens.Proofs.SettingsLayers
import AsmLens.Session.Report

namespace AsmLens

/-- What stands in the way of looking for the tools, with `line` for the editor. -/
inductive Tools.Unfit (t : Tools) (line : String) : Fault → Prop where
  | encoder (h : t.encoder = []) : Unfit t line .noProgram
  | demangler (h : t.encoder ≠ []) (h' : t.demangler = []) : Unfit t line .noProgram
  | editor {e : Text.SplitError} (h : t.encoder ≠ []) (h' : t.demangler ≠ [])
      (he : Text.splitWords line = .error e) : Unfit t line (.badWords e)

theorem Tools.fit_or_unfit (t : Tools) (line : String) :
    (∃ encoder rest demangler rest' words, t.encoder = encoder :: rest ∧
        t.demangler = demangler :: rest' ∧ Text.splitWords line = .ok words) ∨
      ∃ f, t.Unfit line f := by
  cases hencoder : t.encoder with
  | nil => exact .inr ⟨_, .encoder hencoder⟩
  | cons encoder rest =>
    have he : t.encoder ≠ [] := by simp [hencoder]
    cases hdemangler : t.demangler with
    | nil => exact .inr ⟨_, .demangler he hdemangler⟩
    | cons demangler rest' =>
      have hd : t.demangler ≠ [] := by simp [hdemangler]
      cases hwords : Text.splitWords line with
      | error e => exact .inr ⟨_, .editor he hd hwords⟩
      | ok words => exact .inl ⟨encoder, rest, demangler, rest', words, rfl, rfl, rfl⟩

namespace Session

section

variable {α β : Type} {a : Act α} {f : α → Act β} {s u : Session}

theorem bind_of_ok {x : α} (h : a s = .ok x u) : (a >>= f) s = f x u := by
  simp only [bind, EStateM.bind, h]

theorem ends_bind {e : Fault} {x : α} (h : a s = .ok x u) (hf : ∃ v, f x u = .error e v) :
    ∃ v, (a >>= f) s = .error e v := by
  rwa [bind_of_ok h]

theorem ends_of_error {e : Fault} (h : a s = .error e u) : ∃ v, (a >>= f) s = .error e v :=
  ⟨u, by simp only [bind, EStateM.bind, h]⟩

end

def versionAt (s : Session) (path : String) : Option String :=
  match (Assoc.get? s.host.versions path).getD (.printed []) with
  | .failed => none
  | .printed bs => (Text.firstLine? (String.ofList (Text.decodeLossy bs))).map Text.trim

def foundTool (s : Session) (name command : String) (asksVersion : Bool) : ToolCheck :=
  { name, command
    path := s.find? command
    version := if asksVersion then (s.find? command).bind s.versionAt else none }

def probesFor (s : Session) (command : String) (asksVersion : Bool) : List Event :=
  if asksVersion then (s.find? command).toList.map .probe else []

def probed (s : Session) (events : List Event) : Session := { s with events := s.events ++ events }

theorem probed_nil (s : Session) : s.probed [] = s := by
  rw [probed, List.append_nil]

theorem probeVersion_eq (path : String) (s : Session) :
    probeVersion path s = .ok (s.versionAt path) (s.probed [.probe path]) := by
  have hprobe : probeVersion path s =
      (match (Assoc.get? s.host.versions path).getD (.printed []) with
        | .failed => pure none
        | .printed bs =>
          pure ((Text.firstLine? (String.ofList (Text.decodeLossy bs))).map Text.trim) :
        Act (Option String)) (s.probed [.probe path]) := rfl
  rw [hprobe, versionAt]
  cases (Assoc.get? s.host.versions path).getD (.printed []) <;> rfl

theorem checkTool_of_missing {command : String} {s : Session} (h : s.find? command = none)
    (name : String) (asksVersion : Bool) :
    checkTool name command asksVersion s =
      .ok { name, command, path := none, version := none } s := by
  refine (bind_of_ok (a := get) rfl).trans ?_
  rw [h]
  rfl

theorem checkTool_of_found {command path : String} {s : Session} (h : s.find? command = some path)
    (name : String) (asksVersion : Bool) :
    checkTool name command asksVersion s =
      .ok
        { name, command, path := some path
          version := if asksVersion then s.versionAt path else none }
        (s.probed (if asksVersion then [.probe path] else [])) := by
  refine (bind_of_ok (a := get) rfl).trans ?_
  rw [h]
  cases asksVersion with
  | false =>
    rw [if_neg (by decide), if_neg (by decide), probed_nil]
    rfl
  | true => exact bind_of_ok (probeVersion_eq path s)

theorem checkTool_eq (name command : String) (asksVersion : Bool) (s : Session) :
    checkTool name command asksVersion s =
      .ok (s.foundTool name command asksVersion) (s.probed (s.probesFor command asksVersion)) := by
  unfold foundTool probesFor
  cases h : s.find? command with
  | none =>
    rw [checkTool_of_missing h]
    cases asksVersion <;> exact congrArg _ s.probed_nil.symm
  | some path =>
    rw [checkTool_of_found h]
    rfl

/-- The tools in the order in which they are looked for. There is no editor in it when the line of the
editor has no word. -/
def surveyed (s : Session) (t : Tools) (encoder demangler : String) (words : List String) :
    List ToolCheck :=
  [s.foundTool "compiler" t.compiler true, s.foundTool "encoder" encoder true,
    s.foundTool "demangler" demangler true] ++
    words.head?.toList.map fun word => s.foundTool "editor" word false

theorem checkEditor_eq {editor : String} {words : List String} {s : Session}
    (h : Text.splitWords editor = .ok words) :
    checkEditor editor s =
      .ok (words.head?.toList.map fun word => s.foundTool "editor" word false) s := by
  have hlift : (Text.splitWords editor).mapError Fault.badWords = .ok words := by
    rw [h]
    rfl
  refine (bind_of_ok (lift_eq_ok_iff.mpr ⟨hlift, rfl⟩)).trans ?_
  cases words with
  | nil => rfl
  | cons word words =>
    refine (bind_of_ok (checkTool_eq "editor" word false s)).trans ?_
    rw [probesFor, if_neg (by decide), probed_nil]
    rfl

theorem checkEditor_of_badWords {editor : String} {e : Text.SplitError} {s : Session}
    (h : Text.splitWords editor = .error e) : checkEditor editor s = .error (.badWords e) s := by
  unfold checkEditor
  rw [h]
  rfl

variable {t : Tools} {s : Session} {version encoder demangler : String} {words : List String}

def reportOn (s : Session) (t : Tools) (version : String) (tools : List ToolCheck) : Report :=
  { interpreter := version
    platform := s.host.platform
    editor := Editor.choose s.environ t.defaultEditor
    tools
    issues := Report.issuesOf tools
    notes := Report.notesOf tools ++
      (if Editor.choose s.environ "" = "" then [Report.fallbackNote t.defaultEditor] else []) }

theorem inspect_of_words {encoderRest demanglerRest : List String}
    (hversion : interpreterVersion s.host.interpreter = .ok version)
    (hencoder : t.encoder = encoder :: encoderRest)
    (hdemangler : t.demangler = demangler :: demanglerRest)
    (hwords : Text.splitWords (Editor.choose s.environ t.defaultEditor) = .ok words) :
    inspect t s = .ok (s.reportOn t version (s.surveyed t encoder demangler words))
      (s.probed (s.probesFor t.compiler true ++ s.probesFor encoder true ++
        s.probesFor demangler true)) := by
  unfold inspect
  refine (bind_of_ok (a := get) rfl).trans ?_
  refine (bind_of_ok (a := get) rfl).trans ?_
  refine (bind_of_ok (lift_eq_ok_iff.mpr ⟨hversion, rfl⟩)).trans ?_
  refine (bind_of_ok (checkTool_eq "compiler" t.compiler true s)).trans ?_
  rw [hencoder, hdemangler]
  refine (bind_of_ok (a := program (encoder :: encoderRest)) rfl).trans ?_
  refine (bind_of_ok (checkTool_eq "encoder" encoder true _)).trans ?_
  refine (bind_of_ok (a := program (demangler :: demanglerRest)) rfl).trans ?_
  refine (bind_of_ok (checkTool_eq "demangler" demangler true _)).trans ?_
  refine (bind_of_ok (checkEditor_eq hwords)).trans ?_
  simp only [probed, ← List.append_assoc]
  rfl

theorem inspect_of_unfit {f : Fault} (hversion : interpreterVersion s.host.interpreter = .ok version)
    (h : t.Unfit (Editor.choose s.environ t.defaultEditor) f) : ∃ u, inspect t s = .error f u := by
  unfold inspect
  refine ends_bind (a := get) rfl (ends_bind (a := get) rfl ?_)
  refine ends_bind (lift_eq_ok_iff.mpr ⟨hversion, rfl⟩) ?_
  refine ends_bind (checkTool_eq "compiler" t.compiler true s) ?_
  cases h with
  | encoder hencoder =>
    rw [hencoder]
    exact ends_of_error (a := program []) rfl
  | demangler hencoder hdemangler =>
    obtain ⟨encoder, rest, hencoder⟩ := List.exists_cons_of_ne_nil hencoder
    rw [hencoder, hdemangler]
    refine ends_bind (a := program (encoder :: rest)) rfl ?_
    refine ends_bind (checkTool_eq "encoder" encoder true _) ?_
    exact ends_of_error (a := program []) rfl
  | @editor e hencoder hdemangler heditor =>
    obtain ⟨encoder, rest, hencoder⟩ := List.exists_cons_of_ne_nil hencoder
    obtain ⟨demangler, rest', hdemangler⟩ := List.exists_cons_of_ne_nil hdemangler
    rw [hencoder, hdemangler]
    refine ends_bind (a := program (encoder :: rest)) rfl ?_
    refine ends_bind (checkTool_eq "encoder" encoder true _) ?_
    refine ends_bind (a := program (demangler :: rest')) rfl ?_
    refine ends_bind (checkTool_eq "demangler" demangler true _) ?_
    exact ends_of_error (checkEditor_of_badWords heditor)

theorem editor_mem_surveyed {word : String} :
    s.foundTool "editor" word false ∈ s.surveyed t encoder demangler (word :: words) :=
  List.mem_append_right _ List.mem_cons_self

theorem of_mem_surveyed {tool : ToolCheck} (h : tool ∈ s.surveyed t encoder demangler words)
    (hname : tool.name = "editor") :
    ∃ word, words.head? = some word ∧ tool = s.foundTool "editor" word false := by
  rcases List.mem_append.mp h with hfirst | hlast
  · -- The other three have names of their own.
    simp only [List.mem_cons, List.not_mem_nil, or_false] at hfirst
    rcases hfirst with rfl | rfl | rfl <;> simp [foundTool] at hname
  · obtain ⟨word, hword, rfl⟩ := List.mem_map.mp hlast
    exact ⟨word, Option.mem_toList.mp hword, rfl⟩

theorem mem_issuesOf {tools : List ToolCheck} {tool : ToolCheck} (htool : tool ∈ tools)
    (hmissing : tool.available = false) (hrequired : Report.isOptional tool = false) :
    Report.issue tool ∈ Report.issuesOf tools := by
  refine List.mem_map_of_mem (List.mem_filter.mpr ⟨htool, ?_⟩)
  rw [hmissing, hrequired]
  rfl

theorem mem_notesOf {tools : List ToolCheck} {tool : ToolCheck} (htool : tool ∈ tools)
    (hmissing : tool.available = false) (hoptional : Report.isOptional tool = true) :
    Report.optionalNote tool ∈ Report.notesOf tools := by
  refine List.mem_map_of_mem (List.mem_filter.mpr ⟨htool, ?_⟩)
  rw [hmissing, hoptional]
  rfl

theorem inspect_eq_error_iff (hversion : interpreterVersion s.host.interpreter = .ok version)
    {f : Fault} :
    (∃ u, inspect t s = .error f u) ↔ t.Unfit (Editor.choose s.environ t.defaultEditor) f := by
  refine ⟨?_, inspect_of_unfit hversion⟩
  rintro ⟨u, hu⟩
  rcases t.fit_or_unfit (Editor.choose s.environ t.defaultEditor) with
    ⟨encoder, rest, demangler, rest', words, hencoder, hdemangler, hwords⟩ | ⟨f', hunfit⟩
  · rw [inspect_of_words hversion hencoder hdemangler hwords] at hu
    contradiction
  · obtain ⟨u', hu'⟩ := inspect_of_unfit hversion hunfit
    rw [hu'] at hu
    obtain ⟨rfl, -⟩ := EStateM.Result.error.inj hu
    exact hunfit

theorem of_inspect_eq_ok {report : Report} {u : Session}
    (hversion : interpreterVersion s.host.interpreter = .ok version) (h : inspect t s = .ok report u) :
    ∃ encoder demangler words, t.encoder.head? = some encoder ∧ t.demangler.head? = some demangler ∧
      Text.splitWords (Editor.choose s.environ t.defaultEditor) = .ok words ∧
      report = s.reportOn t version (s.surveyed t encoder demangler words) ∧
      u = s.probed (s.probesFor t.compiler true ++ s.probesFor encoder true ++
        s.probesFor demangler true) := by
  rcases t.fit_or_unfit (Editor.choose s.environ t.defaultEditor) with
    ⟨encoder, rest, demangler, rest', words, hencoder, hdemangler, hwords⟩ | ⟨f, hunfit⟩
  · rw [inspect_of_words hversion hencoder hdemangler hwords] at h
    obtain ⟨rfl, rfl⟩ := EStateM.Result.ok.inj h
    exact ⟨encoder, demangler, words, by rw [hencoder]; rfl, by rw [hdemangler]; rfl, hwords, rfl, rfl⟩
  · obtain ⟨u', hu'⟩ := inspect_of_unfit hversion hunfit
    rw [hu'] at h
    contradiction

theorem exists_version {report : Report} {u : Session} (h : inspect t s = .ok report u) :
    ∃ version, interpreterVersion s.host.interpreter = .ok version := by
  unfold inspect at h
  obtain ⟨x, x', hget, h⟩ := Desk.bind_eq_ok_iff.mp h
  obtain ⟨y, y', hget', h⟩ := Desk.bind_eq_ok_iff.mp h
  obtain ⟨version, z, hversion, -⟩ := Desk.bind_eq_ok_iff.mp h
  cases hget
  cases hget'
  exact ⟨version, (lift_eq_ok_iff.mp hversion).1⟩

section

variable {s' : Session} (hhost : s'.host = s.host)
include hhost

theorem foundTool_congr (name command : String) (asksVersion : Bool) :
    s'.foundTool name command asksVersion = s.foundTool name command asksVersion := by
  unfold foundTool find? versionAt
  rw [hhost]

theorem probesFor_congr (command : String) (asksVersion : Bool) :
    s'.probesFor command asksVersion = s.probesFor command asksVersion := by
  unfold probesFor find?
  rw [hhost]

theorem surveyed_congr :
    s'.surveyed t encoder demangler words = s.surveyed t encoder demangler words := by
  simp only [surveyed, foundTool_congr hhost]

theorem reportOn_congr (henviron : s'.environ = s.environ) (tools : List ToolCheck) :
    s'.reportOn t version tools = s.reportOn t version tools := by
  simp only [reportOn, hhost, henviron]

theorem inspect_congr (henviron : s'.environ = s.environ) {report : Report} {u : Session}
    (h : inspect t s = .ok report u) :
    ∃ events, u = s.probed events ∧ inspect t s' = .ok report (s'.probed events) := by
  obtain ⟨version, hversion⟩ := exists_version h
  obtain ⟨encoder, demangler, words, hencoder, hdemangler, hwords, rfl, rfl⟩ :=
    of_inspect_eq_ok hversion h
  obtain ⟨rest, hencoder⟩ := List.head?_eq_some_iff.mp hencoder
  obtain ⟨rest', hdemangler⟩ := List.head?_eq_some_iff.mp hdemangler
  rw [← hhost] at hversion
  rw [← henviron] at hwords
  have h' := inspect_of_words hversion hencoder hdemangler hwords
  rw [surveyed_congr hhost, reportOn_congr hhost henviron] at h'
  simp only [probesFor_congr hhost] at h'
  exact ⟨_, rfl, h'⟩

end

theorem mem_notes_of_unset (version : String) (tools : List ToolCheck)
    (h : Editor.choose s.environ "" = "") :
    Report.fallbackNote t.defaultEditor ∈ (s.reportOn t version tools).notes := by
  refine List.mem_append_right _ ?_
  rw [if_pos h]
  exact List.mem_singleton_self _

theorem inspect_outcome (t : Tools) (s : Session) (version : String)
    (hversion : interpreterVersion s.host.interpreter = .ok version) :
    let line := Editor.choose s.environ t.defaultEditor
    ((∃ report u, inspect t s = .ok report u) ↔
        t.encoder ≠ [] ∧ t.demangler ≠ [] ∧ ∃ words, Text.splitWords line = .ok words) ∧
      (∀ f, (∃ u, inspect t s = .error f u) ↔ t.Unfit line f) ∧
      ∀ report u, inspect t s = .ok report u →
        ∃ encoder demangler words, t.encoder.head? = some encoder ∧
          t.demangler.head? = some demangler ∧ Text.splitWords line = .ok words ∧
          report = s.reportOn t version (s.surveyed t encoder demangler words) ∧
          (∀ tool ∈ report.tools, tool.available = false →
            Report.issue tool ∈ report.issues ∨ Report.optionalNote tool ∈ report.notes) ∧
          (Editor.choose s.environ "" = "" → Report.fallbackNote t.defaultEditor ∈ report.notes) ∧
          u = s.probed (s.probesFor t.compiler true ++ s.probesFor encoder true ++
            s.probesFor demangler true) := by
  intro line
  refine ⟨⟨?_, ?_⟩, fun f => inspect_eq_error_iff hversion, ?_⟩
  · rintro ⟨report, u, h⟩
    obtain ⟨encoder, demangler, words, hencoder, hdemangler, hwords, -⟩ := of_inspect_eq_ok hversion h
    refine ⟨fun hnil => ?_, fun hnil => ?_, words, hwords⟩
    · simp [hnil] at hencoder
    · simp [hnil] at hdemangler
  · rintro ⟨hencoder, hdemangler, words, hwords⟩
    obtain ⟨encoder, rest, hencoder⟩ := List.exists_cons_of_ne_nil hencoder
    obtain ⟨demangler, rest', hdemangler⟩ := List.exists_cons_of_ne_nil hdemangler
    exact ⟨_, _, inspect_of_words hversion hencoder hdemangler hwords⟩
  · intro report u h
    obtain ⟨encoder, demangler, words, hencoder, hdemangler, hwords, rfl, hu⟩ :=
      of_inspect_eq_ok hversion h
    refine ⟨encoder, demangler, words, hencoder, hdemangler, hwords, rfl, ?_, ?_, hu⟩
    · intro tool htool hmissing
      cases hoptional : Report.isOptional tool with
      | false => exact .inl (mem_issuesOf htool hmissing hoptional)
      | true => exact .inr (List.mem_append_left _ (mem_notesOf htool hmissing hoptional))
    · exact mem_notes_of_unset version _

theorem interpreterVersion_bare : interpreterVersion bare.host.interpreter = .ok "none" :=
  eq_ok_of_toOption (by decide +kernel)

theorem inspect_outcome_bare :
    interpreterVersion bare.host.interpreter = .ok "none" ∧
      ∃ report u, inspect .standard bare = .ok report u ∧
        (∃ tool ∈ report.tools, tool.available = false ∧
          (Report.issue tool ∈ report.issues ∨ Report.optionalNote tool ∈ report.notes)) ∧
        Report.fallbackNote "/usr/bin/nano" ∈ report.notes := by
  have hwords : Text.splitWords (Editor.choose bare.environ Tools.standard.defaultEditor) =
      .ok ["/usr/bin/nano"] := eq_ok_of_toOption (by decide +kernel)
  obtain ⟨hreturns, -, hreport⟩ := inspect_outcome .standard bare "none" interpreterVersion_bare
  obtain ⟨report, u, h⟩ := hreturns.mpr ⟨by decide, by decide, _, hwords⟩
  obtain ⟨encoder, demangler, words, -, -, -, rfl, hmissing, hnote, -⟩ := hreport report u h
  have hcompiler : bare.foundTool "compiler" "clang" true ∈
      (bare.reportOn .standard "none" (bare.surveyed .standard encoder demangler words)).tools :=
    List.mem_cons_self
  exact ⟨interpreterVersion_bare, _, u, h, ⟨_, hcompiler, rfl, hmissing _ hcompiler rfl⟩, hnote rfl⟩

def unclosedSession : Session := { bare with environ := [("EDITOR", "\"vi")] }

theorem inspect_ends_early :
    (∃ t, (Tools.ofValue Pipeline.withoutEncoder).toExcept = .ok t ∧
      ∃ u, inspect t bare = .error .noProgram u) ∧
      ∃ u, inspect .standard unclosedSession = .error (.badWords .unclosedQuote) u := by
  refine ⟨⟨_, rfl, inspect_of_unfit interpreterVersion_bare (.encoder rfl)⟩, ?_⟩
  have hwords : Text.splitWords
      (Editor.choose unclosedSession.environ Tools.standard.defaultEditor) = .error .unclosedQuote := by
    decide +kernel
  exact inspect_of_unfit interpreterVersion_bare (.editor (by decide) (by decide) hwords)

end Session

end AsmLens
