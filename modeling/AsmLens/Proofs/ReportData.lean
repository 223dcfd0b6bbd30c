import AsmLens.Proofs.CompileRun
import AsmLens.Proofs.JsonLines
import AsmLens.Proofs.ToolSurvey
import AsmLens.Proofs.UnbrokenTexts

/-!
A report as data. As plain text it is read back as what it was; on a page, which breaks lines that are
too long for it, only where there is room for each line.
-/

namespace AsmLens

namespace Report

theorem textual_textOrNull (s : Option String) : (textOrNull s).Textual := by
  cases s with
  | none => exact .null
  | some s => exact .text s

theorem textual_toolValue (t : ToolCheck) : (toolValue t).Textual := by
  refine .table (by simp) ?_
  simp only [List.forall_mem_cons]
  exact ⟨.text _, .text _, .bool _, textual_textOrNull _, textual_textOrNull _, .null, nofun⟩

theorem textual_texts (texts : List String) : (Value.array (texts.map .text)).Textual := by
  refine .array fun v hv => ?_
  obtain ⟨s, -, rfl⟩ := List.mem_map.mp hv
  exact .text s

theorem textual_toValue (r : Report) : r.toValue.Textual := by
  have htools : (Value.array (r.tools.map toolValue)).Textual := by
    refine .array fun v hv => ?_
    obtain ⟨t, -, rfl⟩ := List.mem_map.mp hv
    exact textual_toolValue t
  refine .table (by simp) ?_
  simp only [List.forall_mem_cons]
  exact ⟨.text _, .text _, .text _, htools, textual_texts _, textual_texts _, nofun⟩

theorem parse?_plainData (r : Report) : Json.parse? r.plainData = some r.toValue :=
  Json.parse?_toText r.textual_toValue (.pretty true) (g := ['\n']) (by simp [Json.isSpace])

def pageLines (r : Report) : List (List Char) :=
  Text.pieces '\n' (Json.toText (.pretty false) r.toValue).toList

def editorLine (r : Report) : List Char :=
  [' ', ' '] ++ Json.quoted false "editor" ++ [':', ' '] ++ Json.quoted false r.editor ++ [',']

theorem editorLine_mem_pageLines (r : Report) : r.editorLine ∈ r.pageLines := by
  have hline : '\n' ∉ r.editorLine := by
    have hquoted (s : String) : '\n' ∉ Json.quoted false s := fun hmem =>
      absurd (Json.quoted_shown false s _ hmem) (by decide)
    simp [editorLine, hquoted]
  have htext : ∃ s t, (Json.toText (.pretty false) r.toValue).toList =
      s ++ '\n' :: (r.editorLine ++ '\n' :: t) := by
    let l := Json.Layout.pretty false
    refine ⟨['\x7b', '\n', ' ', ' '] ++ Json.quoted false "python_version" ++ [':', ' '] ++
      Json.quoted false r.interpreter ++ [',', '\n', ' ', ' '] ++ Json.quoted false "platform" ++
      [':', ' '] ++ Json.quoted false r.platform ++ [','],
      [' ', ' '] ++ Json.quoted false "tools" ++ [':', ' '] ++
        Json.write l 1 (.array (r.tools.map toolValue)) ++
        Json.writeEntries l 1 [("issues", .array (r.issues.map .text)),
          ("notes", .array (r.notes.map .text))] ++ ['\n', '\x7d'], ?_⟩
    simp [l, Json.toText, toValue, Json.write, Json.writeEntries, Json.Layout.comma,
      Json.Layout.lineBreak, Json.Layout.pretty, editorLine, List.replicate]
  obtain ⟨s, t, htext⟩ := htext
  rw [pageLines, htext]
  exact Text.mem_pieces hline s t

theorem pageData_of_room {c : Console} {r : Report}
    (h : ∀ line ∈ r.pageLines, Text.room line ≤ c.width) :
    r.pageData c = Json.toText (.pretty false) r.toValue ++ "\n" := by
  -- A line that has room takes some, so that the width is not zero.
  have heditor : 0 < Text.room r.editorLine := by
    change 0 < 1 + _
    omega
  have hwidth : c.width ≠ 0 := by
    have hroom := h r.editorLine r.editorLine_mem_pageLines
    omega
  rw [pageData, Console.wrapped, if_neg hwidth]
  exact Json.wrap_toText r.textual_toValue (.pretty false) h

theorem parse?_pageData_of_room {c : Console} {r : Report}
    (h : ∀ line ∈ r.pageLines, Text.room line ≤ c.width) :
    Json.parse? (r.pageData c) = some r.toValue := by
  rw [pageData_of_room h]
  exact Json.parse?_toText r.textual_toValue (.pretty false) (g := ['\n']) (by simp [Json.isSpace])

def wrappedData (c : Console) (r : Report) : List (List Char) :=
  Text.wrappedLines c.width (Json.toText (.pretty false) r.toValue)

theorem outside_of_parse?_pageData {c : Console} {r : Report} {v : Value}
    (h : Json.parse? (r.pageData c) = some v) :
    ∀ line ∈ r.wrappedData c, Json.Place.outside.after line = some .outside := by
  by_cases hwidth : c.width = 0
  · rw [pageData, Console.wrapped, if_pos hwidth] at h
    have hempty : Json.parse? "" = none := by decide
    exact absurd (hempty.symm.trans h) (Option.some_ne_none v).symm
  · rw [pageData, Console.wrapped, if_neg hwidth] at h
    have hafter := Json.after_of_parse? h
    rw [Text.wrap_eq, String.toList_ofList] at hafter
    exact Json.Place.of_after_lines hafter

def wideConsole : Console := { width := 120, names := .plain }

/-- An editor with all that it is given to begin with. -/
def wideEditor : String :=
  "emacsclient --create-frame --alternate-editor /usr/local/bin/emacs-nox " ++
    "--socket-name /run/user/1000/emacs/server --quiet"

theorem parse?_pageData_of_wideEditor {r : Report} (h : r.editor = wideEditor) :
    Json.parse? (r.pageData wideConsole) = none := by
  let width := wideConsole.width
  obtain ⟨piece, rest, hpiece⟩ :=
    List.exists_cons_of_ne_nil (Text.wrapLine_ne_nil true width r.editorLine)
  have hinside : Json.Place.outside.after (Text.cropBeyond width piece) = some .inside := by
    have hfirst : Json.Place.outside.after (Text.cropBeyond width
        ((Text.wrapLine true width r.editorLine).headD [])) = some .inside := by
      simp only [editorLine, h]
      decide +kernel
    rw [hpiece] at hfirst
    exact hfirst
  have hmem : Text.cropBeyond width piece ∈ r.wrappedData wideConsole :=
    Text.mem_wrappedLines (Json.shown_toText r.textual_toValue _) r.editorLine_mem_pageLines
      (by rw [hpiece]; exact List.mem_cons_self)
  cases hparse : Json.parse? (r.pageData wideConsole) with
  | none => rfl
  | some v =>
    have houtside := outside_of_parse?_pageData hparse _ hmem
    exact absurd (Option.some.inj (hinside.symm.trans houtside)) (by decide)

end Report

namespace Command

open CommandLine (EnvironmentRequest)

section

variable {config : Option String} {s t u : Session} {settings : Settings} {report : Report}

theorem perform_environment (hload : Session.loadSettings config s = .ok settings t)
    (hreport : Session.inspect settings.tools t = .ok report u) (replies : Replies) :
    ∃ page, Program.perform (.environment { config, json := true }) replies s =
        .ok (if report.issues.isEmpty then 0 else 1) page ∧
      page.output = s.output ++ report.pageData s.host.console := by
  have hquiet := (Session.quiet_loadSettings config).of_ok hload
  -- The log that is set up in between makes no difference to what is found.
  obtain ⟨v, hlog, hhost, henviron, hv⟩ : ∃ v, Session.configureLog settings.verbosity t = .ok () v ∧
      v.host = t.host ∧ v.environ = t.environ ∧ v.output = t.output := ⟨_, rfl, rfl, rfl, rfl⟩
  obtain ⟨events, -, hpage⟩ := Session.inspect_congr hhost henviron hreport
  have hstart : Session.start config s = .ok settings v :=
    Desk.bind_eq_ok_iff.mpr ⟨settings, t, hload, Desk.bind_eq_ok_iff.mpr ⟨(), v, hlog, rfl⟩⟩
  refine ⟨{ v.probed events with output := v.output ++ report.pageData v.host.console }, ?_, ?_⟩
  · refine Desk.bind_eq_ok_iff.mpr ⟨settings, v, hstart, ?_⟩
    exact Desk.bind_eq_ok_iff.mpr ⟨report, v.probed events, hpage, rfl⟩
  · rw [hv, hquiet.output, hhost, hquiet.host]

theorem perform_inspection (hload : Session.loadSettings config s = .ok settings t)
    (hreport : Session.inspect settings.tools t = .ok report u) :
    ∃ plain, Program.performInspection (some { config, json := true }) s = .ok 0 plain ∧
      plain.output = s.output ++ report.plainData := by
  have hquiet := (Session.quiet_loadSettings config).of_ok hload
  obtain ⟨events, -, hplain⟩ := Session.inspect_congr rfl rfl hreport
  refine ⟨{ t.probed events with output := t.output ++ report.plainData }, ?_, ?_⟩
  · refine Desk.bind_eq_ok_iff.mpr ⟨settings, t, hload, ?_⟩
    exact Desk.bind_eq_ok_iff.mpr ⟨report, t.probed events, hplain, rfl⟩
  · rw [hquiet.output]

end

def reported (config : Option String) : Act Report := do
  let settings ← Session.loadSettings config
  Session.inspect settings.tools

theorem of_reported {config : Option String} {s : Session} {report : Report}
    (h : result? (reported config s) = some report) :
    ∃ u settings t, Session.loadSettings config s = .ok settings t ∧
      Session.inspect settings.tools t = .ok report u := by
  obtain ⟨u, hreported⟩ := exists_of_result? h
  exact ⟨u, Desk.bind_eq_ok_iff.mp hreported⟩

def dataRequest : EnvironmentRequest := { config := none, json := true }

def wideSession : Session :=
  { Session.bare with
    host := { Session.bare.host with console := Report.wideConsole }
    environ := [("EDITOR", Report.wideEditor)] }

end Command

end AsmLens
