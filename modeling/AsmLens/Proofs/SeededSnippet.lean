import AsmLens.Proofs.EditorLaunches
import AsmLens.Proofs.EncodedText

namespace AsmLens

theorem Files.readText_of_read {fs : Files} {name : String} {bs : Bytes}
    (hread : fs.read name = .ok bs) :
    fs.readText name = match Text.decode? bs with
      | some cs => .ok (String.ofList (Text.unifyLineEnds cs))
      | none => .error .notText := by
  rw [Files.readText, hread]
  rfl

namespace Pipeline

theorem exists_starts_cons {s : Stage} (hs : s.command ≠ []) (data : Bytes) (ran : List String)
    (p : Pipeline) (launches : List Launch) :
    ∃ later, (runFrom data ran (s :: p) launches).starts = startAt data launches 0 s :: later := by
  obtain ⟨log, hrun⟩ := runFrom_cons data ran s p launches hs
  rw [hrun]
  split
  · exact ⟨_, rfl⟩
  · exact ⟨[], rfl⟩

end Pipeline

namespace Session

theorem execute_first {s : Session} {path : String} {content : Bytes} {command : List String}
    (hsnippet : s.snippet = some path) (hread : s.files.read path = .ok content)
    (hcommand : path ∈ command) (p : Pipeline) :
    ∃ later, (finalState (execute (Pipeline.compileStage command :: p) s)).events =
      s.events ++ .run command none (some content) :: later := by
  obtain ⟨t, -, hevents, hstill⟩ := execute_still (Pipeline.compileStage command :: p) s
  obtain ⟨later, hstarts⟩ := Pipeline.exists_starts_cons (s := Pipeline.compileStage command)
    (List.ne_nil_of_mem hcommand) [] [] p s.launches
  have hsource : s.sourceFor command = some content := by
    simp only [sourceFor, hsnippet, List.contains_iff_mem.mpr hcommand, hread]
    rfl
  refine ⟨later.map s.runEvent, ?_⟩
  rw [hstill.events, hevents, Pipeline.run, hstarts, List.map_cons, ← hsource]
  rfl

end Session

namespace Command

open CommandLine (CompileRequest)

variable {r : CompileRequest} {replies : Replies} {s t v : Session}
  {settings : Settings} {o : Options} {j : Job} {name path : String} {bs : Bytes} {cs : List Char}

def compileCommand (t : Tools) (darwin : Bool) (o : Options) (path : String) : List String :=
  t.compiler :: (o.arguments darwin ++ [path, "-o", "-"])

theorem rounds_first (hsnippet : s.snippet = some path) (hread : s.files.read path = .ok bs)
    (system : String) (readable : Bool) (n : Nat) (replies : List (Option String)) :
    ∃ later, (finalState ((desk j system readable).rounds path j.options n replies s)).events =
      s.events ++ .run (compileCommand j.tools (isDarwin none system) j.options path) none
        (some bs) :: later := by
  have hcommand : path ∈ compileCommand j.tools (isDarwin none system) j.options path := by
    simp [compileCommand]
  obtain ⟨later, hfirst⟩ :=
    Session.execute_first hsnippet hread hcommand (Pipeline.laterStages j.tools j.options)
  obtain ⟨more, hmore, -⟩ :=
    ((editsWith_desk j system readable path j.options).after_attempt n replies s).opened
  refine ⟨later ++ more, ?_⟩
  rw [hmore, ← List.cons_append, ← List.append_assoc, ← hfirst]
  rfl

theorem Opens.first_run (h : Opens r s j path v) (hinput : r.input = some name)
    (replies : Replies) :
    ∃ later, (finalState (compile r replies s)).events =
      s.events ++ .run (compileCommand j.tools (isDarwin none s.host.system) j.options path) none
        (some (Text.utf8 j.text)) :: later := by
  obtain ⟨hsnippet, hread, hevents, -⟩ := h.starts
  have hsystem : v.host.system = s.host.system := by rw [h.working.writes.host]
  have hloop : loop r j replies path v = (desk j s.host.system replies.readable).rounds path j.options
      1 (replies.lines.map some) v := by
    have hfalse : r.input.isNone = false := by rw [hinput]; rfl
    rw [← hsystem]
    simp only [loop, hfalse]
    rfl
  obtain ⟨later, hfirst⟩ := rounds_first (j := j) hsnippet hread s.host.system replies.readable 1
    (replies.lines.map some)
  rw [← hloop] at hfirst
  obtain ⟨more, hmore, -⟩ := (h.editsWith (Std.Refl.refl _)).opened
  refine ⟨later ++ more, ?_⟩
  rw [hmore, hfirst, hevents, List.append_assoc, List.cons_append]

structure Asked (r : CompileRequest) (s : Session) (settings : Settings) (o : Options) (t : Session) :
    Prop where
  started : Session.start r.config s = .ok settings t
  options : r.toOptions t.host.directory = .ok o

theorem Asked.prepare_eq (h : Asked r s settings o t) :
    prepare r s = (do
      let text ← startText r o.language
      let editor := Editor.choose (← get).environ settings.tools.defaultEditor
      return ({ tools := settings.tools, options := o, editor, text } : Job)) t := by
  unfold prepare
  refine (Session.bind_of_ok h.started).trans ?_
  refine (Session.bind_of_ok (a := get) rfl).trans ?_
  exact Session.bind_of_ok (Session.lift_eq_ok_iff.mpr ⟨h.options, rfl⟩)

theorem Asked.startText_eq (h : Asked r s settings o t) (hinput : r.input = some name)
    (hread : s.files.read (tidyPath name) = .ok bs) :
    startText r o.language t = Session.lift (match Text.decode? bs with
      | some cs => .ok (String.ofList (Text.unifyLineEnds cs))
      | none => .error .notText) t := by
  have hquiet := (Session.quiet_start r.config).of_ok h.started
  rw [← Files.readText_of_read hread, ← hquiet.files]
  unfold startText
  rw [hinput]
  rfl

theorem Asked.opens (h : Asked r s settings o t) (hinput : r.input = some name)
    (hread : s.files.read (tidyPath name) = .ok bs) (hcs : Text.decode? bs = some cs)
    (hw : s.files.Writable (s.host.scratch ++ r.language.ending)) :
    ∃ j v, Opens r s j (s.host.scratch ++ r.language.ending) v ∧ j.tools = settings.tools ∧
      j.options = o ∧ j.text = String.ofList (Text.unifyLineEnds cs) := by
  have hquiet := (Session.quiet_start r.config).of_ok h.started
  have htext := h.startText_eq hinput hread
  rw [hcs] at htext
  have hprepare := h.prepare_eq.trans (Session.bind_of_ok htext)
  rw [← hquiet.files] at hw
  obtain ⟨fs, hfs⟩ := Files.exists_write hw (Text.utf8 (String.ofList (Text.unifyLineEnds cs)))
  refine ⟨_, _, ⟨t, hprepare, Session.createSnippet_eq_ok_iff.mpr ⟨?_, fs, hfs, rfl⟩⟩, rfl, rfl, rfl⟩
  rw [hquiet.host, CompileRequest.language_of_toOptions h.options]

theorem Asked.compile_of_binary (h : Asked r s settings o t) (hinput : r.input = some name)
    (hread : s.files.read (tidyPath name) = .ok bs) (hcs : Text.decode? bs = none) :
    compile r replies s = .error .notText t := by
  have htext := h.startText_eq hinput hread
  rw [hcs] at htext
  have hprepare := h.prepare_eq
  simp only [bind, EStateM.bind, htext] at hprepare
  simp only [compile, bind, EStateM.bind, hprepare]
  rfl

theorem seeded_snippet (r : CompileRequest) (name : String) (replies : Replies) (bs : Bytes)
    (s t : Session) (settings : Settings) (o : Options) (h : Asked r s settings o t)
    (hinput : r.input = some name) (hread : s.files.read (tidyPath name) = .ok bs)
    (hw : s.files.Writable (s.host.scratch ++ r.language.ending)) :
    let run := Program.perform (.compile r) replies s
    let last := finalState run
    let command := compileCommand settings.tools (isDarwin none s.host.system) o
      (s.host.scratch ++ r.language.ending)
    (∀ cs, Text.decode? bs = some cs →
        ∃ later, last.events =
          s.events ++ .run command none (some (Text.encode (Text.unifyLineEnds cs))) :: later) ∧
      (Text.decode? bs = none → run = .error .notText t ∧ last.events = s.events) ∧
      ((∃ later, last.events = s.events ++ .run command none (some bs) :: later) ↔
        Text.decode? bs ≠ none ∧ Text.carriageReturn ∉ bs) := by
  intro run last command
  have hseeded (cs : List Char) (hcs : Text.decode? bs = some cs) : ∃ later, last.events =
      s.events ++ .run command none (some (Text.encode (Text.unifyLineEnds cs))) :: later := by
    obtain ⟨j, v, hopens, htools, hoptions, htext⟩ := h.opens hinput hread hcs hw
    obtain ⟨later, hlater⟩ := hopens.first_run hinput replies
    have hbytes : Text.utf8 j.text = Text.encode (Text.unifyLineEnds cs) := by
      rw [htext, Text.utf8, String.toList_ofList]
    rw [htools, hoptions, hbytes] at hlater
    exact ⟨later, hlater⟩
  have hbinary (hcs : Text.decode? bs = none) : run = .error .notText t ∧ last.events = s.events := by
    have hrun : run = .error .notText t := h.compile_of_binary hinput hread hcs
    have hquiet := (Session.quiet_start r.config).of_ok h.started
    refine ⟨hrun, ?_⟩
    simp only [last, hrun, finalState, hquiet.events]
  refine ⟨hseeded, hbinary, ?_, ?_⟩
  · rintro ⟨later, hlater⟩
    cases hcs : Text.decode? bs with
    | none =>
      have hnothing := List.self_eq_append_right.mp ((hbinary hcs).2.symm.trans hlater)
      contradiction
    | some cs =>
      obtain ⟨later', hlater'⟩ := hseeded cs hcs
      have hsame := List.append_cancel_left (hlater'.symm.trans hlater)
      have hbytes := Option.some.inj (Event.run.inj (List.cons.inj hsame).1).2.2
      exact ⟨Option.some_ne_none cs, (Text.encode_unifyLineEnds_eq_iff hcs).mp hbytes⟩
  · rintro ⟨hcs, hreturn⟩
    obtain ⟨cs, hcs⟩ := Option.ne_none_iff_exists'.mp hcs
    have hbytes := (Text.encode_unifyLineEnds_eq_iff hcs).mpr hreturn
    have hlater := hseeded cs hcs
    rwa [hbytes] at hlater

def seededRequest : CompileRequest := { plainRequest with input := some "in.c" }

def seededSession (content : Bytes) : Session :=
  { Session.bare with
    files := [(["in.c"], .file content)]
    launches := [.ended 0 (some [114, 101, 116, 10])] }

theorem exists_asked :
    ∃ settings o t, Asked seededRequest (seededSession [10]) settings o t := by
  have hasked : (result? ((do
      let _ ← Session.start none
      Session.lift (seededRequest.toOptions (← get).host.directory) : Act Options)
        (seededSession [10]))).isSome = true := by decide +kernel
  obtain ⟨o, hresult⟩ := Option.isSome_iff_exists.mp hasked
  obtain ⟨u, hu⟩ := exists_of_result? hresult
  obtain ⟨settings, t, hstart, hrest⟩ := Desk.bind_eq_ok_iff.mp hu
  obtain ⟨v, v', hget, hlift⟩ := Desk.bind_eq_ok_iff.mp hrest
  cases hget
  exact ⟨settings, o, t, hstart, (Session.lift_eq_ok_iff.mp hlift).1⟩

theorem seeded_snippet_newline :
    ∃ settings o t command later, Asked seededRequest (seededSession [10]) settings o t ∧
      seededRequest.input = some "in.c" ∧
      (seededSession [10]).files.read (tidyPath "in.c") = .ok [10] ∧
      (seededSession [10]).files.Writable "snippet.c" ∧
      (finalState (Program.perform (.compile seededRequest) .closed (seededSession [10]))).events =
        .run command none (some [10]) :: later := by
  obtain ⟨settings, o, t, hasked⟩ := exists_asked
  have hread : (seededSession [10]).files.read (tidyPath "in.c") = .ok [10] :=
    Session.eq_ok_of_toOption (by decide +kernel)
  have hw : (seededSession [10]).files.Writable "snippet.c" :=
    ⟨["snippet.c"], Session.eq_ok_of_toOption (by decide +kernel), by decide +kernel⟩
  obtain ⟨-, -, hsame⟩ := seeded_snippet seededRequest "in.c" .closed [10] (seededSession [10]) t settings
    o hasked rfl hread hw
  obtain ⟨later, hlater⟩ := hsame.mpr ⟨by decide +kernel, by decide⟩
  exact ⟨settings, o, t, _, later, hasked, rfl, hread, hw, hlater⟩

theorem seed_fails_or_alters :
    ((seededSession latinComment).files.read (tidyPath "in.c")).toOption = some latinComment ∧
      fault? (Program.perform (.compile seededRequest) .closed (seededSession latinComment)) =
        some .notText ∧
      (finalState (Program.perform (.compile seededRequest) .closed
        (seededSession latinComment))).events = [] ∧
      ((seededSession [13, 10]).files.read (tidyPath "in.c")).toOption = some [13, 10] ∧
      (finalState (Program.perform (.compile seededRequest) .closed (seededSession [13, 10]))).events =
        [.run ["clang", "-xc", "-march=native", "-S", "-Xclang", "-masm-verbose", "-std=c11", "-O3",
          "-Wall", "-Weffc++", "-I/work", "-I/work/include", "-I/usr/local/include", "snippet.c",
          "-o", "-"] none (some [10])] := by
  refine ⟨?_, ?_, ?_, ?_, ?_⟩ <;> decide +kernel

end Command

end AsmLens
