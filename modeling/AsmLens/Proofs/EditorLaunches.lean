import AsmLens.Proofs.ReportData
import AsmLens.Proofs.SnippetHistory
import AsmLens.Proofs.ToolSurvey

/-!
The editor that a run opens and the one that is looked for. Both are named by the first word of the
same line, so what was found is what is opened, as long as there is a word in that line.
-/

namespace AsmLens

namespace Editor

def line (environ : Environ) (asked : Option String) : String :=
  (nonempty? asked).getD (choose environ builtin)

theorem nonempty?_ne_some_empty (s : Option String) : nonempty? s ≠ some "" := by
  cases s with
  | none => simp [nonempty?]
  | some x => simp [nonempty?, Option.filter]

theorem nonempty?_eq_none_iff {s : Option String} : nonempty? s = none ↔ s = none ∨ s = some "" := by
  cases s with
  | none => simp [nonempty?]
  | some x => simp [nonempty?, Option.filter_eq_none_iff]

def Unset (environ : Environ) : Prop :=
  ∀ name ∈ ["VISUAL", "EDITOR"],
    Assoc.get? environ name = none ∨ Assoc.get? environ name = some ""

instance : DecidablePred Unset :=
  fun environ => inferInstanceAs (Decidable (∀ name ∈ ["VISUAL", "EDITOR"],
    Assoc.get? environ name = none ∨ Assoc.get? environ name = some ""))

theorem choose_of_unset {environ : Environ} (h : Unset environ) (fallback : String) :
    choose environ fallback = fallback := by
  rw [choose, nonempty?_eq_none_iff.mpr (h "VISUAL" (by simp)),
    nonempty?_eq_none_iff.mpr (h "EDITOR" (by simp))]
  rfl

theorem unset_of_choose_eq_empty {environ : Environ} {fallback : String}
    (h : choose environ fallback = "") : Unset environ := by
  cases hfound : (nonempty? (Assoc.get? environ "VISUAL")).or
      (nonempty? (Assoc.get? environ "EDITOR")) with
  | none =>
    obtain ⟨hvisual, heditor⟩ := Option.or_eq_none_iff.mp hfound
    intro name hname
    simp only [List.mem_cons, List.not_mem_nil, or_false] at hname
    rcases hname with rfl | rfl
    · exact nonempty?_eq_none_iff.mp hvisual
    · exact nonempty?_eq_none_iff.mp heditor
  | some x =>
    rw [choose, hfound, Option.getD_some] at h
    subst h
    rcases Option.or_eq_some_iff.mp hfound with hvisual | ⟨-, heditor⟩
    · exact absurd hvisual (nonempty?_ne_some_empty _)
    · exact absurd heditor (nonempty?_ne_some_empty _)

theorem choose_eq_empty_iff {environ : Environ} : choose environ "" = "" ↔ Unset environ :=
  ⟨unset_of_choose_eq_empty, fun h => choose_of_unset h ""⟩

theorem line_choose (environ : Environ) (fallback : String) :
    line environ (some (choose environ fallback)) =
      if choose environ fallback = "" then builtin else choose environ fallback := by
  by_cases h : choose environ fallback = ""
  · rw [if_pos h, line, h]
    exact choose_of_unset (unset_of_choose_eq_empty h) builtin
  · rw [if_neg h, line, nonempty?, Option.filter_some, if_pos (by simpa using h), Option.getD_some]

end Editor

namespace Session

theorem editWith_eq (path : String) (asked : Option String) (s : Session) :
    editWith path asked s = edit path (Editor.line s.environ asked) s := rfl

theorem still_configureLog (verbosity : String) : Leaves Still (configureLog verbosity) :=
  .bind .get fun _ => .bind (.modified fun _ => ⟨rfl, rfl⟩) fun _ => still_ignoresLog.display _

theorem still_takeAnswer (path : String) (command : List String) (answer : Edit) :
    Leaves Still (takeAnswer path command answer) := by
  cases answer with
  | refused reason => exact still_ignoresLog.note _
  | ended status content =>
    cases content with
    | none => exact still_ignoresLog.noteStatus status
    | some bs =>
      refine .bind .get fun _ => .bind (leaves_lift _) fun files => ?_
      exact .bind (.modified fun _ => ⟨rfl, rfl⟩) fun _ => still_ignoresLog.noteStatus status

theorem edit_still {path editor : String} {command : List String}
    (h : Editor.command editor path = .ok command) (s : Session) :
    ∃ t, t.environ = s.environ ∧ t.events = s.events ++ [.edit command] ∧
      Still t (finalState (edit path editor s)) := by
  refine ⟨s.opened command, rfl, rfl, ?_⟩
  rw [edit_eq h]
  exact still_takeAnswer path command _ _

/-- Each editor that was opened is the one of this line, with the name of a file after its words. -/
structure EditsWith (asked : Option String) (s t : Session) : Prop where
  environ : t.environ = s.environ
  opened : ∃ new, t.events = s.events ++ new ∧ ∀ command, .edit command ∈ new →
    ∃ path, Editor.command (Editor.line s.environ asked) path = .ok command

variable {asked : Option String} {path : String}

theorem Still.editsWith {s t : Session} (h : Still s t) : EditsWith asked s t where
  environ := h.environ
  opened := ⟨[], by rw [h.events, List.append_nil], by simp⟩

theorem editsWith_ignoresLog : IgnoresLog (EditsWith asked) :=
  fun s log errors => (still_ignoresLog s log errors).editsWith

instance : IsPreorder Session (EditsWith asked) where
  refl s := (Std.Refl.refl (r := Still) s).editsWith
  trans s t u h h' := by
    obtain ⟨new, hevents, hnew⟩ := h.opened
    obtain ⟨later, hevents', hlater⟩ := h'.opened
    refine ⟨h'.environ.trans h.environ, new ++ later, ?_, ?_⟩
    · rw [hevents', hevents, List.append_assoc]
    · intro command hcommand
      rcases List.mem_append.mp hcommand with hfirst | hrest
      · exact hnew command hfirst
      · obtain ⟨path, hpath⟩ := hlater command hrest
        exact ⟨path, by rwa [h.environ] at hpath⟩

theorem editsWith_editWith : Leaves (EditsWith asked) (editWith path asked) := by
  intro s
  rw [editWith_eq]
  cases hcommand : Editor.command (Editor.line s.environ asked) path with
  | error e =>
    rw [edit_of_badWords hcommand]
    exact Std.Refl.refl s
  | ok command =>
    obtain ⟨t, henviron, hevents, hrest⟩ := edit_still hcommand s
    refine IsTrans.trans s t _ ⟨henviron, [.edit command], hevents, ?_⟩ hrest.editsWith
    intro command' hmem
    obtain rfl : command' = command := by simpa using hmem
    exact ⟨path, hcommand⟩

theorem execute_still (p : Pipeline) (s : Session) :
    ∃ t, t.environ = s.environ ∧
      t.events = s.events ++ (p.run s.launches).starts.map s.runEvent ∧
      Still t (finalState (execute p s)) :=
  ⟨afterRun p s, rfl, rfl, still_ignoresLog.after_run p s⟩

theorem editsWith_execute (p : Pipeline) : Leaves (EditsWith asked) (execute p) := by
  intro s
  obtain ⟨t, henviron, hevents, hrest⟩ := execute_still p s
  refine IsTrans.trans s t _ ⟨henviron, _, hevents, fun command hcommand => ?_⟩ hrest.editsWith
  obtain ⟨start, -, hstart⟩ := List.mem_map.mp hcommand
  cases hstart

end Session

namespace Command

open CommandLine (CompileRequest)

variable {r : CompileRequest} {replies : Replies} {s t u v : Session} {j : Job}
  {path : String}

theorem editsWith_desk (j : Job) (system : String) (readable : Bool) (path : String) (o : Options) :
    (desk j system readable).KeepsTo path o (Session.EditsWith (some j.editor)) :=
  keepsTo_of_ignoresLog Session.editsWith_ignoresLog Session.editsWith_editWith
    (Session.editsWith_execute _) readable

theorem editsWith_loop (r : CompileRequest) (j : Job) (replies : Replies)
    (path : String) : Leaves (Session.EditsWith (some j.editor)) (loop r j replies path) :=
  .bind .get fun s => (editsWith_desk j s.host.system replies.readable path j.options).run _ _

theorem editsWith_finish (r : CompileRequest) (j : Job) (path : String) (outcome : Outcome) :
    Leaves (Session.EditsWith (some j.editor)) (finish r j path outcome) :=
  leaves_finish
    (fun name text => (Session.still_writeText name text).mono fun _ _ => Session.Still.editsWith)
    (fun _ => Session.editsWith_editWith)
    (fun _ => .modified fun _ => Session.Still.editsWith ⟨rfl, rfl⟩) r path outcome

theorem of_prepare_eq_ok (h : prepare r s = .ok j u) :
    ∃ settings t, Session.loadSettings r.config s = .ok settings t ∧ Session.Still t u ∧
      j.editor = Editor.choose u.environ settings.tools.defaultEditor := by
  unfold prepare at h
  obtain ⟨settings, v, hstart, h⟩ := Desk.bind_eq_ok_iff.mp h
  obtain ⟨w, w', hget, h⟩ := Desk.bind_eq_ok_iff.mp h
  obtain ⟨o, x, ho, h⟩ := Desk.bind_eq_ok_iff.mp h
  obtain ⟨text, y, htext, h⟩ := Desk.bind_eq_ok_iff.mp h
  obtain ⟨z, z', hget', h⟩ := Desk.bind_eq_ok_iff.mp h
  obtain ⟨settings', t, hload, hlog⟩ := Desk.bind_eq_ok_iff.mp hstart
  obtain ⟨⟨⟩, v', hlog, hsettings⟩ := Desk.bind_eq_ok_iff.mp hlog
  cases hget
  cases hget'
  obtain ⟨rfl, rfl⟩ := Desk.pure_eq_ok_iff.mp hsettings
  obtain ⟨rfl, rfl⟩ := Desk.pure_eq_ok_iff.mp h
  obtain ⟨-, rfl⟩ := Session.lift_eq_ok_iff.mp ho
  have hv := (Session.still_configureLog _).of_ok hlog
  have hu := (leaves_startText Session.still_ignoresLog r o.language).of_ok htext
  exact ⟨settings, t, hload, IsTrans.trans _ _ _ hv hu, rfl⟩

theorem Opens.read (h : Opens r s j path v) :
    ∃ settings t, Session.loadSettings r.config s = .ok settings t ∧ v.environ = t.environ ∧
      v.events = s.events ∧ j.editor = Editor.choose t.environ settings.tools.defaultEditor := by
  have hevents : v.events = s.events := h.starts.2.2.1
  obtain ⟨u, hp, hc⟩ := h
  obtain ⟨-, fs, -, rfl⟩ := Session.createSnippet_eq_ok_iff.mp hc
  obtain ⟨settings, t, hload, hu, heditor⟩ := of_prepare_eq_ok hp
  exact ⟨settings, t, hload, hu.environ, hevents, by rw [← hu.environ, heditor]⟩

theorem Opens.editsWith (h : Opens r s j path v)
    (hu : Session.EditsWith (some j.editor) u (finalState (loop r j replies path v))) :
    Session.EditsWith (some j.editor) u (finalState (compile r replies s)) := by
  have hfinish := Leaves.after (editsWith_finish r j path) (a := loop r j replies path) v
  have hdropped : Session.Still (finalState (work r j replies path v))
      (Session.dropSnippet path (finalState (work r j replies path v))) := ⟨rfl, rfl⟩
  rw [h.compile_eq, Session.finalState_dropAfter]
  exact IsTrans.trans _ _ _ (IsTrans.trans _ _ _ hu hfinish) hdropped.editsWith

theorem command_of_line {environ : Environ} {fallback : String} {words : List String}
    (h : Text.splitWords (Editor.choose environ fallback) = .ok words) (path : String) :
    Editor.command (Editor.line environ (some (Editor.choose environ fallback))) path =
      .ok ((if Editor.choose environ fallback = "" then [Editor.builtin] else words) ++ [path]) := by
  rw [Editor.line_choose, Editor.command]
  by_cases hempty : Editor.choose environ fallback = ""
  · have hbuiltin : Text.splitWords Editor.builtin = .ok [Editor.builtin] := by decide +kernel
    rw [if_pos hempty, if_pos hempty, hbuiltin]
    rfl
  · rw [if_neg hempty, if_neg hempty, h]
    rfl

theorem Opens.edits_first (h : Opens r s j path v) (hinput : r.input = none) {command : List String}
    (hcommand : Editor.command (Editor.line v.environ (some j.editor)) path = .ok command) :
    ∃ later, (finalState (compile r replies s)).events = v.events ++ .edit command :: later := by
  obtain ⟨u, -, hevents, hedited⟩ := Session.edit_still hcommand v
  have hrun := (editsWith_desk j v.host.system replies.readable path j.options).after_edit
    (replies.lines.map some) v
  have hloop : loop r j replies path v = (desk j v.host.system replies.readable).run path j.options
      true (replies.lines.map some) v := by
    rw [← Option.isNone_iff_eq_none.mpr hinput]
    rfl
  rw [← hloop] at hrun
  obtain ⟨later, hlater, -⟩ := (h.editsWith (IsTrans.trans _ _ _ hedited.editsWith hrun)).opened
  refine ⟨later, ?_⟩
  rw [hlater, hevents, List.append_assoc]
  rfl

variable {settings : Settings} {report : Report}

theorem head?_opened {line : String} {words : List String} (h : Text.splitWords line = .ok words)
    (hne : words ≠ []) (target : String) :
    ((if line = "" then [Editor.builtin] else words) ++ [target]).head? = words.head? := by
  have hline : line ≠ "" := by
    rintro rfl
    exact hne (Except.ok.inj h).symm
  obtain ⟨word, rest, rfl⟩ := List.exists_cons_of_ne_nil hne
  rw [if_neg hline]
  rfl

/-- The program of the command is the editor that was looked for, and it was found. -/
def FindsEditor (report : Report) (command : List String) : Prop :=
  ∃ tool ∈ report.tools, tool.name = "editor" ∧ tool.available = true ∧
    command.head? = some tool.command

theorem editor_of_report (hreport : Session.inspect settings.tools t = .ok report u) :
    ∃ words, Text.splitWords (Editor.choose t.environ settings.tools.defaultEditor) = .ok words ∧
      ((∃ tool ∈ report.tools, tool.name = "editor") ↔ words ≠ []) ∧
      (report.issues = [] → ∀ command,
        FindsEditor report command ↔ words ≠ [] ∧ command.head? = words.head?) := by
  obtain ⟨version, hversion⟩ := Session.exists_version hreport
  obtain ⟨encoder, demangler, words, -, -, hwords, rfl, -⟩ :=
    Session.of_inspect_eq_ok hversion hreport
  refine ⟨words, hwords, ⟨?_, ?_⟩, fun hclean command => ⟨?_, ?_⟩⟩
  · rintro ⟨tool, htool, hname⟩ rfl
    obtain ⟨word, hword, -⟩ := Session.of_mem_surveyed htool hname
    contradiction
  · intro hne
    obtain ⟨word, rest, rfl⟩ := List.exists_cons_of_ne_nil hne
    exact ⟨_, Session.editor_mem_surveyed, rfl⟩
  · rintro ⟨tool, htool, hname, -, hcommand⟩
    obtain ⟨word, hword, rfl⟩ := Session.of_mem_surveyed htool hname
    refine ⟨?_, hcommand.trans hword.symm⟩
    rintro rfl
    contradiction
  · rintro ⟨hne, hcommand⟩
    obtain ⟨word, rest, rfl⟩ := List.exists_cons_of_ne_nil hne
    have hmem : t.foundTool "editor" word false ∈
        t.surveyed settings.tools encoder demangler (word :: rest) := Session.editor_mem_surveyed
    refine ⟨_, hmem, rfl, ?_, hcommand⟩
    cases havailable : (t.foundTool "editor" word false).available with
    | true => rfl
    | false => exact absurd hclean (List.ne_nil_of_mem (Session.mem_issuesOf hmem havailable rfl))

theorem launched_editor (config : Option String) (s t u : Session) (settings : Settings)
    (report : Report) (hload : Session.loadSettings config s = .ok settings t)
    (hreport : Session.inspect settings.tools t = .ok report u) (hclean : report.issues = []) :
    let line := Editor.choose t.environ settings.tools.defaultEditor
    ∃ words, Text.splitWords line = .ok words ∧
      ((∃ tool ∈ report.tools, tool.name = "editor") ↔ words ≠ []) ∧
      ∀ (r : CompileRequest) (replies : Replies), r.config = config →
        let opened := if line = "" then [Editor.builtin] else words
        ∃ new, (finalState (Program.perform (.compile r) replies s)).events = s.events ++ new ∧
          (∀ command, .edit command ∈ new →
            (∃ path, command = opened ++ [path]) ∧ (FindsEditor report command ↔ words ≠ [])) ∧
          ∀ j path v, Opens r s j path v → r.input = none →
            ∃ later, new = .edit (opened ++ [path]) :: later := by
  intro line
  obtain ⟨words, hwords, hnamed, hfinds⟩ := editor_of_report hreport
  refine ⟨words, hwords, hnamed, ?_⟩
  rintro r replies rfl
  intro opened
  -- What a run that has a snippet opens.
  have hopened {j : Job} {path : String} {v : Session} (h : Opens r s j path v) (target : String) :
      v.events = s.events ∧
        Editor.command (Editor.line v.environ (some j.editor)) target = .ok (opened ++ [target]) := by
    obtain ⟨settings', t', hload', henviron, hevents, heditor⟩ := h.read
    obtain ⟨rfl, rfl⟩ := EStateM.Result.ok.inj (hload.symm.trans hload')
    rw [henviron, heditor]
    exact ⟨hevents, command_of_line hwords target⟩
  have hfinds' (target : String) : FindsEditor report (opened ++ [target]) ↔ words ≠ [] :=
    (hfinds hclean _).trans ⟨And.left, fun hne => ⟨hne, head?_opened hwords hne target⟩⟩
  have hnew : ∃ new, (finalState (Program.perform (.compile r) replies s)).events = s.events ++ new ∧
      ∀ command, .edit command ∈ new → ∃ path, command = opened ++ [path] := by
    by_cases h : ∃ j path v, Opens r s j path v
    · obtain ⟨j, path, v, h⟩ := h
      obtain ⟨new, hevents, hnew⟩ := (h.editsWith (editsWith_loop r j _ path v)).opened
      refine ⟨new, hevents.trans (by rw [(hopened h path).1]), fun command hcommand => ?_⟩
      obtain ⟨target, htarget⟩ := hnew command hcommand
      exact ⟨target, Except.ok.inj (htarget.symm.trans (hopened h target).2)⟩
    · exact ⟨[], by rw [List.append_nil]; exact (quiet_of_not_opens h).events, by simp⟩
  obtain ⟨new, hevents, hnew⟩ := hnew
  refine ⟨new, hevents, fun command hcommand => ?_, fun j path v h hinput => ?_⟩
  · obtain ⟨path, rfl⟩ := hnew command hcommand
    exact ⟨⟨path, rfl⟩, hfinds' path⟩
  · obtain ⟨later, hlater⟩ := h.edits_first hinput (hopened h path).2
    refine ⟨later, ?_⟩
    rw [(hopened h path).1] at hlater
    exact List.append_cancel_left (hevents.symm.trans hlater)

def equipped (editor : String) : Session :=
  { Session.bare with
    host := { Session.bare.host with
      programs := [("clang", "/usr/bin/clang"), ("c++filt", "/usr/bin/c++filt"), ("vi", "/bin/vi")] }
    environ := [("EDITOR", editor)]
    edits := [.ended 0 (some [10])]
    launches := [.ended 0 (some [114, 101, 116, 10])] }

theorem of_reported_editor (s : Session) (found : Bool)
    (h : (result? (reported none s)).map
      (fun r => (r.issues, r.tools.any (·.name == "editor"))) = some ([], found)) :
    ∃ settings t report u, Session.loadSettings none s = .ok settings t ∧
      Session.inspect settings.tools t = .ok report u ∧ report.issues = [] ∧
      ((∃ tool ∈ report.tools, tool.name = "editor") ↔ found = true) := by
  obtain ⟨report, hresult, hreport⟩ := Option.map_eq_some_iff.mp h
  obtain ⟨hissues, htools⟩ := Prod.mk.inj hreport
  obtain ⟨u, settings, t, hload, hinspect⟩ := of_reported hresult
  exact ⟨settings, t, report, u, hload, hinspect, hissues, by simp [← htools]⟩

theorem launched_editor_vi :
    ∃ settings t report u, Session.loadSettings none (equipped "vi -n") = .ok settings t ∧
      Session.inspect settings.tools t = .ok report u ∧ report.issues = [] ∧
      plainRequest.config = none ∧ plainRequest.input = none ∧
      ∃ j path v command later, Opens plainRequest (equipped "vi -n") j path v ∧
        (finalState (Program.perform (.compile plainRequest) .closed (equipped "vi -n"))).events =
          .edit command :: later ∧ FindsEditor report command := by
  obtain ⟨settings, t, report, u, hload, hreport, hclean, hfound⟩ :=
    of_reported_editor (equipped "vi -n") true (by decide +kernel)
  obtain ⟨words, -, hnamed, hruns⟩ :=
    launched_editor none (equipped "vi -n") t u settings report hload hreport hclean
  obtain ⟨new, hevents, hopened, hfirst⟩ := hruns plainRequest .closed rfl
  obtain ⟨v, hreached⟩ :
      ∃ v, reached plainRequest .closed (equipped "vi -n") =
        .ok ({ phase := .succeeded, output := some [114, 101, 116, 10], attempts := 1 }, some "\n") v :=
    exists_of_result? (by decide +kernel)
  obtain ⟨j, path, ⟨w, hopens, -⟩, -⟩ := loops_of_reached hreached
  obtain ⟨later, rfl⟩ := hfirst j path w hopens rfl
  exact ⟨settings, t, report, u, hload, hreport, hclean, rfl, rfl, j, path, w, _, later, hopens,
    hevents, (hopened _ List.mem_cons_self).2.mpr (hnamed.mp (hfound.mpr rfl))⟩

theorem blank_line_runs_snippet :
    ∃ settings t report u, Session.loadSettings none (equipped " ") = .ok settings t ∧
      Session.inspect settings.tools t = .ok report u ∧ report.issues = [] ∧
      (∀ command, ¬FindsEditor report command) ∧
      .edit ["snippet.c"] ∈
        (finalState (Program.perform (.compile plainRequest) .closed (equipped " "))).events := by
  obtain ⟨settings, t, report, u, hload, hreport, hclean, hfound⟩ :=
    of_reported_editor (equipped " ") false (by decide +kernel)
  refine ⟨settings, t, report, u, hload, hreport, hclean, ?_, by decide +kernel⟩
  rintro command ⟨tool, htool, hname, -⟩
  exact absurd (hfound.mp ⟨tool, htool, hname⟩) (by decide)

end Command

end AsmLens
