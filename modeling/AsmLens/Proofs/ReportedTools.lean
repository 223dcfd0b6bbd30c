import AsmLens.Proofs.EditorLaunches
import AsmLens.Proofs.ReportPages

namespace AsmLens

/-- The names that tools are reported under, and the commands that are looked for. -/
def Tools.lookups (t : Tools) (words : List String) : List (String × String) :=
  ("compiler", t.compiler) :: ((t.encoder.take 1).map ("encoder", ·) ++
    (t.demangler.take 1).map ("demangler", ·) ++ (words.take 1).map ("editor", ·))

namespace Report

def missingOf (names : List String) (r : Report) : List ToolCheck :=
  r.tools.filter fun tool => !tool.available && names.contains tool.name

def required : List String := ["compiler", "editor"]

def optional : List String := ["encoder", "demangler"]

def probes (r : Report) : List Event :=
  (r.tools.filter fun tool => tool.name ≠ "editor").flatMap fun tool => tool.path.toList.map .probe

structure Accounts (r : Report) (s : Session) (t : Tools) (words : List String) : Prop where
  lookups : r.tools.map (fun tool => (tool.name, tool.command)) = t.lookups words
  distinct : (r.tools.map (·.name)).Nodup
  found : ∀ tool ∈ r.tools, ∀ path, tool.path = some path ↔
    Assoc.get? s.host.programs tool.command = some path ∧ path ≠ ""
  version : ∀ tool ∈ r.tools, ∀ path, tool.path = some path →
    tool.version = if tool.name = "editor" then none else s.versionAt path
  failed : ∀ tool ∈ r.tools, ∀ path, tool.path = some path →
    Assoc.get? s.host.versions path = some .failed → tool.version = none ∧ tool.available = true
  issues : r.issues = (r.missingOf required).map issue
  notes : r.notes = (r.missingOf optional).map optionalNote ++
    if Editor.Unset s.environ then [fallbackNote t.defaultEditor] else []
  partition : (r.missingOf required ++ r.missingOf optional).Perm (r.tools.filter (!·.available))
  editor : Editor.Unset s.environ → r.editor = t.defaultEditor

variable {r : Report}

theorem isOptional_eq (tool : ToolCheck) : isOptional tool = optional.contains tool.name := by
  rw [Bool.eq_iff_iff]
  simp [isOptional, optional]

theorem contains_required {name : String} (h : name ∈ required ++ optional) :
    required.contains name = !optional.contains name := by
  simp only [required, optional, List.cons_append, List.nil_append, List.mem_cons,
    List.not_mem_nil, or_false] at h
  rcases h with rfl | rfl | rfl | rfl <;> decide

theorem issuesOf_eq (h : ∀ tool ∈ r.tools, tool.name ∈ required ++ optional) :
    issuesOf r.tools = (r.missingOf required).map issue := by
  unfold issuesOf missingOf
  congr 1
  apply List.filter_congr
  intro tool htool
  rw [isOptional_eq, contains_required (h tool htool)]

theorem notesOf_eq (r : Report) : notesOf r.tools = (r.missingOf optional).map optionalNote := by
  simp only [notesOf, missingOf, isOptional_eq]

theorem missingOf_eq (names : List String) (r : Report) :
    r.missingOf names =
      (r.tools.filter (!·.available)).filter fun tool => names.contains tool.name := by
  simp only [missingOf, List.filter_filter, Bool.and_comm]

theorem perm_missing (h : ∀ tool ∈ r.tools, tool.name ∈ required ++ optional) :
    (r.missingOf required ++ r.missingOf optional).Perm (r.tools.filter (!·.available)) := by
  have hrest : r.missingOf optional =
      (r.tools.filter (!·.available)).filter fun tool => !required.contains tool.name := by
    rw [missingOf_eq]
    apply List.filter_congr
    intro tool htool
    rw [contains_required (h tool (List.mem_of_mem_filter htool)), Bool.not_not]
  rw [hrest, missingOf_eq]
  exact List.filter_append_perm _ _

theorem Accounts.exists_tool {s : Session} {t : Tools} {words : List String} {name command : String}
    (h : r.Accounts s t words) (hlookup : (name, command) ∈ t.lookups words) :
    ∃ tool ∈ r.tools, tool.name = name ∧ tool.command = command := by
  rw [← h.lookups] at hlookup
  obtain ⟨tool, htool, hpair⟩ := List.mem_map.mp hlookup
  exact ⟨tool, htool, Prod.mk.inj hpair⟩

theorem issues_eq_nil_iff (h : r.issues = (r.missingOf required).map issue) :
    r.issues = [] ↔ ¬∃ tool ∈ r.tools, tool.name ∈ required ∧ tool.available = false := by
  rw [h, List.map_eq_nil_iff, missingOf, List.filter_eq_nil_iff]
  simp [and_comm]

end Report

namespace Session

variable {s : Session} {t : Tools} {version encoder demangler : String} {words : List String}

theorem lookups_surveyed (hencoder : t.encoder.take 1 = [encoder])
    (hdemangler : t.demangler.take 1 = [demangler]) :
    (s.surveyed t encoder demangler words).map (fun tool => (tool.name, tool.command)) =
      t.lookups words := by
  rw [Tools.lookups, hencoder, hdemangler]
  cases words with
  | nil => rfl
  | cons word words => rfl

theorem exists_foundTool {tool : ToolCheck} (h : tool ∈ s.surveyed t encoder demangler words) :
    ∃ name command, name ∈ Report.required ++ Report.optional ∧
      tool = s.foundTool name command (name ≠ "editor") := by
  rcases List.mem_append.mp h with hfirst | hlast
  · simp only [List.mem_cons, List.not_mem_nil, or_false] at hfirst
    rcases hfirst with rfl | rfl | rfl <;> exact ⟨_, _, by decide, rfl⟩
  · obtain ⟨word, -, rfl⟩ := List.mem_map.mp hlast
    exact ⟨_, _, by decide, rfl⟩

theorem nodup_surveyed : ((s.surveyed t encoder demangler words).map (·.name)).Nodup := by
  cases words with
  | nil => simp [surveyed, foundTool]
  | cons word words => simp [surveyed, foundTool]

theorem find?_eq_some_iff {command path : String} :
    s.find? command = some path ↔ Assoc.get? s.host.programs command = some path ∧ path ≠ "" := by
  simp [find?, Editor.nonempty?, Option.filter_eq_some_iff]

theorem versionAt_of_failed {path : String} (h : Assoc.get? s.host.versions path = some .failed) :
    s.versionAt path = none := by
  rw [versionAt, h]
  rfl

theorem version_foundTool {command path : String} (h : s.find? command = some path) (name : String) :
    (s.foundTool name command (name ≠ "editor")).version =
      if name = "editor" then none else s.versionAt path := by
  by_cases hname : name = "editor" <;> simp [foundTool, hname, h]

theorem probes_surveyed (version : String) :
    (s.reportOn t version (s.surveyed t encoder demangler words)).probes =
      s.probesFor t.compiler true ++ s.probesFor encoder true ++ s.probesFor demangler true := by
  cases words with
  | nil => simp [Report.probes, reportOn, surveyed, foundTool, probesFor]
  | cons word words => simp [Report.probes, reportOn, surveyed, foundTool, probesFor]

theorem accounts_reportOn (hencoder : t.encoder.take 1 = [encoder])
    (hdemangler : t.demangler.take 1 = [demangler]) (version : String) :
    (s.reportOn t version (s.surveyed t encoder demangler words)).Accounts s t words := by
  let r := s.reportOn t version (s.surveyed t encoder demangler words)
  have hlookups : r.tools.map (fun tool => (tool.name, tool.command)) = t.lookups words :=
    lookups_surveyed hencoder hdemangler
  have hnames : ∀ tool ∈ r.tools, tool.name ∈ Report.required ++ Report.optional := by
    intro tool htool
    obtain ⟨name, command, hname, rfl⟩ := exists_foundTool htool
    exact hname
  have hversion : ∀ tool ∈ r.tools, ∀ path, tool.path = some path →
      tool.version = if tool.name = "editor" then none else s.versionAt path := by
    intro tool htool path hpath
    obtain ⟨name, command, -, rfl⟩ := exists_foundTool htool
    exact version_foundTool hpath name
  constructor
  · exact hlookups
  · exact nodup_surveyed
  · intro tool htool path
    obtain ⟨name, command, -, rfl⟩ := exists_foundTool htool
    exact find?_eq_some_iff
  · exact hversion
  · intro tool htool path hpath hfailed
    rw [hversion tool htool path hpath, versionAt_of_failed hfailed, ite_self, ToolCheck.available,
      hpath]
    exact ⟨rfl, rfl⟩
  · exact Report.issuesOf_eq hnames
  · change Report.notesOf r.tools ++ _ = _
    rw [Report.notesOf_eq]
    exact congrArg _ (if_congr Editor.choose_eq_empty_iff rfl rfl)
  · exact Report.perm_missing hnames
  · exact fun hunset => Editor.choose_of_unset hunset _

theorem exists_accounts (hversion : interpreterVersion s.host.interpreter = .ok version)
    (hencoder : t.encoder ≠ []) (hdemangler : t.demangler ≠ [])
    (hwords : Text.splitWords (Editor.choose s.environ t.defaultEditor) = .ok words) :
    ∃ report, inspect t s = .ok report (s.probed report.probes) ∧ report.Accounts s t words := by
  obtain ⟨encoder, encoderRest, hencoder⟩ := List.exists_cons_of_ne_nil hencoder
  obtain ⟨demangler, demanglerRest, hdemangler⟩ := List.exists_cons_of_ne_nil hdemangler
  refine ⟨s.reportOn t version (s.surveyed t encoder demangler words), ?_, ?_⟩
  · rw [probes_surveyed]
    exact inspect_of_words hversion hencoder hdemangler hwords
  · exact accounts_reportOn (by rw [hencoder]; rfl) (by rw [hdemangler]; rfl) version

end Session

namespace Command

open CommandLine (EnvironmentRequest)

variable {r : EnvironmentRequest} {s t : Session} {settings : Settings} {words : List String}
  {report : Report}

theorem perform_of_report (hstart : Session.start r.config s = .ok settings t)
    (hreport : Session.inspect settings.tools t = .ok report (t.probed report.probes))
    (replies : Replies) :
    ∃ u, u.events = s.events ++ report.probes ∧ Program.perform (.environment r) replies s =
      match if r.json then none else report.trouble? t.host.console with
      | none => .ok (if report.issues.isEmpty then 0 else 1) u
      | some e => .error (.badMarkup e) u := by
  have hquiet := (Session.quiet_start r.config).of_ok hstart
  have hrun : Program.perform (.environment r) replies s =
      (do
        if r.json then Session.print (report.pageData t.host.console)
        else Session.printAll (report.pageParts t.host.console)
        return if report.issues.isEmpty then 0 else 1 : Act Nat) (t.probed report.probes) :=
    (Session.bind_of_ok hstart).trans (Session.bind_of_ok hreport)
  rw [hrun, ← hquiet.events]
  cases r.json with
  | true => exact ⟨_, rfl, rfl⟩
  | false =>
    have hprint := Session.printAll_eq (report.pageParts t.host.console) (t.probed report.probes)
    rw [Report.findSome?_pageParts] at hprint
    simp only [Bool.false_eq_true, if_false, bind, EStateM.bind, hprint]
    cases report.trouble? t.host.console with
    | none => exact ⟨_, rfl, rfl⟩
    | some e => exact ⟨_, rfl, rfl⟩

end Command

namespace Session

def patchy : Session :=
  { bare with
    host := { bare.host with
      programs := [("clang", "/usr/bin/clang")]
      versions := [("/usr/bin/clang", .failed)] }
    environ := [("EDITOR", "vi -n")] }

theorem start_patchy :
    ∃ settings s, start none patchy = .ok settings s ∧ settings.tools = .standard ∧
      s.host = patchy.host ∧ s.environ = patchy.environ := by
  have hstarted : result? ((do
      let settings ← start none
      return (settings.tools, (← get).environ) : Act (Tools × Environ)) patchy) =
        some (.standard, patchy.environ) := by decide +kernel
  obtain ⟨u, hstarted⟩ := exists_of_result? hstarted
  obtain ⟨settings, s, hstart, hrest⟩ := Desk.bind_eq_ok_iff.mp hstarted
  obtain ⟨s', u', hget, hresult⟩ := Desk.bind_eq_ok_iff.mp hrest
  cases hget
  obtain ⟨htools, henviron⟩ := Prod.mk.inj (Desk.pure_eq_ok_iff.mp hresult).1
  exact ⟨settings, s, hstart, htools.symm, ((quiet_start none).of_ok hstart).host, henviron.symm⟩

def pageRequest : CommandLine.EnvironmentRequest := { config := none, json := false }

def startedTexts : Act (List String) := do
  let settings ← start none
  let report ← inspect settings.tools
  return report.pageTexts (← get).host.console

theorem noBracket_patchy {settings : Settings} {s u : Session} {report : Report}
    (hstart : start none patchy = .ok settings s) (hreport : inspect settings.tools s = .ok report u) :
    ∀ text ∈ report.pageTexts s.host.console, '[' ∉ text.toList := by
  have hall : (result? (startedTexts patchy)).any
      (fun texts => texts.all fun text => !text.toList.contains '[') = true := by decide +kernel
  obtain ⟨events, rfl, -⟩ := inspect_congr rfl rfl hreport
  have htexts : startedTexts patchy = .ok (report.pageTexts s.host.console) (s.probed events) :=
    (bind_of_ok hstart).trans (bind_of_ok hreport)
  rw [htexts, result?, Option.any_some, List.all_eq_true] at hall
  intro text htext
  simpa using hall text htext

end Session

end AsmLens
