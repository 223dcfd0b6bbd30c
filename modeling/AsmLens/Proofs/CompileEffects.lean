import AsmLens.Proofs.CompileRun
import AsmLens.Proofs.SettingsLayers

namespace AsmLens

namespace Command

open CommandLine (CompileRequest)

def SnippetIsNew (r : CompileRequest) (s : Session) : Prop :=
  ∀ place, s.files.locate (s.host.scratch ++ r.language.ending) = .ok place →
    s.files.node? place = none

/-- The loop comes to ask the user, who replies; there is no reply once the input has ended. -/
def Prompts (r : CompileRequest) (replies : Replies) (s : Session) (reply : Option String) : Prop :=
  ∃ j path t, Opens r s j path t ∧
    (desk j t.host.system replies.readable).AsksFromStart path j.options r.input.isNone
      (replies.lines.map some) t reply

def Declines (replies : Replies) (reply : Option String) : Prop :=
  reply = none ∧ replies.readable = true ∨
    ∃ text, reply = some text ∧ Question.answer true text = false

/-- The output is that of the last run of `p`, and what earlier processes printed has no part in
it: they are the first `k` ones. -/
def LastOutput (p : Pipeline) (s t : Session) (bs : Bytes) : Prop :=
  ∃ k result, (p.run (s.launches.drop k)).outcome = .ok result ∧ result.success = true ∧
    result.output = bs ∧ t.started = s.started + k + (p.run (s.launches.drop k)).starts.length

variable {r : CompileRequest} {replies : Replies} {s t : Session} {j : Job}
  {path source : String} {bs : Bytes}

theorem node?_dropSnippet (hnew : SnippetIsNew r s) (h : Working r path s t) (q : List String) :
    (Session.dropSnippet path t).files.node? q = s.files.node? q := by
  obtain ⟨content, hread⟩ := h.present
  obtain ⟨place, hlocate, hfile⟩ := Files.read_eq_ok_iff.mp hread
  have hstart : s.files.locate path = .ok place :=
    (h.writes.files.folders.locate_iff path place).mp hlocate
  rw [Session.dropSnippet, Files.node?_remove hlocate (by simp [hfile])]
  split
  · rename_i hq
    subst hq
    rw [h.named] at hstart
    exact (hnew place hstart).symm
  · rename_i hq
    refine h.writes.files.elsewhere q fun hq' => hq ?_
    exact Except.ok.inj (hstart.symm.trans hq')

theorem node?_of_not_renders (hnew : SnippetIsNew r s)
    (h : ¬∃ j path source bs t, Renders r replies s j path source bs t) (q : List String) :
    (finalState (compile r replies s)).files.node? q = s.files.node? q := by
  rcases compile_cases r replies s with hquiet | ⟨path, t, hworking, ht⟩ | hrenders
  · rw [hquiet.files]
  · rw [ht, node?_dropSnippet hnew hworking]
  · exact absurd hrenders h

theorem deliver_eq_print (hout : r.out = none) (hedit : r.editResult = false)
    (editor rendered : String) :
    deliver r path editor rendered = Session.print (Text.stripEscapes rendered) := by
  simp [deliver, hout, hedit]

theorem writes_deliver (h : r.editResult = true ∨ r.out.isSome = true) (path editor rendered : String) :
    Leaves (Session.Writes ((r.out.map tidyPath).getD path)) (deliver r path editor rendered) := by
  unfold deliver
  rw [if_pos (by simpa using h)]
  refine .bind (Session.writes_writeText rendered) fun _ => ?_
  split
  · exact Session.writes_editWith (some editor)
  · exact .pure ()

theorem Renders.succeeded (h : Renders r replies s j path source bs t) :
    ∃ outcome, Loops r replies s j path outcome t ∧ outcome.succeeded = true := by
  obtain ⟨outcome, hloops, hbs, -⟩ := h
  exact ⟨outcome, hloops, (Outcome.succeeded_of_unwrap hbs).1⟩

theorem Renders.delivered (h : Renders r replies s j path source bs t) :
    ∃ u, finalState (compile r replies s) = Session.dropSnippet path u ∧
      ((r.out = none ∧ r.editResult = false ∧ u.files = t.files) ∨
        Session.Writes ((r.out.map tidyPath).getD path) t u) := by
  rw [h.compile_eq, Session.finalState_dropAfter]
  refine ⟨_, rfl, ?_⟩
  by_cases htarget : r.editResult = true ∨ r.out.isSome = true
  · right
    exact (Leaves.bind (writes_deliver htarget path j.editor _) fun _ => .pure 0) t
  · left
    have hout : r.out = none := by simpa using (not_or.mp htarget).2
    have hedit : r.editResult = false := by simpa using (not_or.mp htarget).1
    refine ⟨hout, hedit, ?_⟩
    rw [deliver_eq_print hout hedit]
    rfl

theorem output_of_compile (h : (finalState (compile r replies s)).output ≠ s.output) :
    r.out = none ∧ r.editResult = false ∧ ∃ j path outcome t, Loops r replies s j path outcome t ∧
      outcome.succeeded = true := by
  rcases compile_cases r replies s with hquiet | ⟨path, t, hworking, ht⟩ |
    ⟨j, path, source, bs, t, hrenders⟩
  · exact absurd hquiet.output h
  · rw [ht] at h
    exact absurd hworking.writes.output h
  · obtain ⟨outcome, hloops, hsucceeded⟩ := hrenders.succeeded
    obtain ⟨u, hu, ⟨hout, hedit, -⟩ | hwrites⟩ := hrenders.delivered
    · exact ⟨hout, hedit, j, path, outcome, t, hloops, hsucceeded⟩
    · rw [hu] at h
      exact absurd (hwrites.output.trans hrenders.working.writes.output) h

theorem not_sameFile_snippet (hnew : SnippetIsNew r s) (h : Working r path s t) {name : String}
    {content : Bytes} (hr : s.files.read name = .ok content) : ¬s.files.SameFile path name := by
  rintro ⟨place, hpath, hname⟩
  obtain ⟨q, hq, hfile⟩ := Files.read_eq_ok_iff.mp hr
  obtain rfl : place = q := Except.ok.inj (hname.symm.trans hq)
  rw [h.named] at hpath
  rw [hnew place hpath] at hfile
  contradiction

theorem read_dropSnippet (hnew : SnippetIsNew r s) (h : Working r path s t) {target name : String}
    {u : Session} (hu : Files.Written target t.files u.files) {content : Bytes}
    (hr : s.files.read name = .ok content) (htarget : ¬s.files.SameFile target name) :
    (Session.dropSnippet path u).files.read name = .ok content := by
  -- The file is not the snippet, which was not there yet, and not the target either.
  have hpath := not_sameFile_snippet hnew h hr
  have ht : t.files.read name = .ok content := h.writes.files.read_other hr hpath
  have hread : u.files.read name = .ok content :=
    hu.read_other ht fun hsame => htarget (h.writes.files.sameFile hsame)
  obtain ⟨old, hold⟩ := h.present
  obtain ⟨old', hold'⟩ := hu.read hold
  refine Files.read_remove hread (Files.writable_of_read hold') fun hsame => hpath ?_
  exact h.writes.files.sameFile (hu.sameFile hsame)

theorem read_of_compile (hnew : SnippetIsNew r s) {name : String} {content : Bytes}
    (hr : s.files.read name = .ok content)
    (hother : ∀ out, r.out = some out → ¬s.files.SameFile (tidyPath out) name) :
    (finalState (compile r replies s)).files.read name = .ok content := by
  rcases compile_cases r replies s with hquiet | ⟨path, t, hworking, ht⟩ |
    ⟨j, path, source, bs, t, hrenders⟩
  · rwa [hquiet.files]
  · rw [ht]
    exact read_dropSnippet hnew hworking (.refl path t.files) hr
      (not_sameFile_snippet hnew hworking hr)
  · have hworking := hrenders.working
    have hpath := not_sameFile_snippet hnew hworking hr
    obtain ⟨u, hu, ⟨-, -, hfiles⟩ | hwrites⟩ := hrenders.delivered
    · rw [hu]
      refine read_dropSnippet hnew hworking ?_ hr hpath
      rw [hfiles]
      exact .refl path t.files
    · rw [hu]
      refine read_dropSnippet hnew hworking hwrites.files hr ?_
      cases hout : r.out with
      | none => exact hpath
      | some out => exact hother out hout

theorem lastOutput_of_loops {outcome : Outcome} (h : Loops r replies s j path outcome t)
    (hbs : outcome.unwrap = .ok bs) :
    LastOutput (Pipeline.ofOptions j.tools (isDarwin none s.host.system) j.options path) s t bs := by
  obtain ⟨u, hopens, hloop⟩ := h
  have hsystem : u.host.system = s.host.system := by rw [hopens.working.writes.host]
  -- The state before the last attempt is reached from the start by work on the snippet.
  obtain ⟨v, result, hv, hattempt, hsuccess, hout⟩ :=
    Desk.run_last (keepsTo_desk j u.host.system replies.readable path j.options) hloop hbs
  obtain ⟨k, hlaunches, hstarted⟩ := (IsTrans.trans s u v hopens.working.writes hv).used
  obtain ⟨houtcome, hlast⟩ := Session.of_execute_eq_ok hattempt
  rw [hlaunches, hsystem] at houtcome hlast
  exact ⟨k, result, houtcome, hsuccess, hout, by omega⟩

theorem Renders.compile_of_saved {out : String} (h : Renders r replies s j path source bs t)
    (hout : r.out = some out) (hw : s.files.Writable (tidyPath out)) :
    let rendered := Listing.renderBytes j.tools (isDarwin none s.host.system) j.options source bs
    ∃ fs, t.files.writeText (tidyPath out) rendered = .ok fs ∧
      compile r replies s = Session.dropAfter path
        ((do
          if r.editResult then Session.editWith (tidyPath out) (some j.editor)
          return 0) { t with files := fs }) := by
  intro rendered
  have hworking := h.working
  obtain ⟨fs, hfs⟩ := Files.exists_write (hworking.writes.files.folders.writable hw) (Text.utf8 rendered)
  have hwrite : t.files.writeText (tidyPath out) rendered = .ok fs := hfs
  refine ⟨fs, hwrite, ?_⟩
  have hwritten : Session.writeText (tidyPath out) rendered t = .ok () { t with files := fs } := by
    simp only [Session.writeText, bind, EStateM.bind, get, getThe, MonadStateOf.get, EStateM.get,
      hwrite]
    rfl
  rw [h.compile_eq]
  congr 1
  simp only [deliver, hout, Option.isSome_some, Bool.or_true, if_true, Option.map_some,
    Option.getD_some, bind, EStateM.bind]
  rw [hwritten]
  cases r.editResult <;> rfl

theorem Declines.confirm {reply : Option String} (h : Declines replies reply) (u : Session) :
    ∃ v, confirm replies.readable reply u = .ok false v := by
  rcases h with ⟨rfl, hreadable⟩ | ⟨text, rfl, hanswer⟩
  · rw [hreadable]
    exact ⟨_, rfl⟩
  · refine ⟨{ u with errors := u.errors ++ Question.text Desk.question true }, ?_⟩
    rw [Command.confirm, Option.isSome_some, Bool.or_true, ← hanswer]
    rfl

theorem compile_of_prompts {reply : Option String} (h : Prompts r replies s reply)
    (hno : Declines replies reply) : ∃ t, compile r replies s = .ok 1 t := by
  obtain ⟨j, path, t, hopens, hasks⟩ := h
  obtain ⟨outcome, u, hrun, hdeclined⟩ :=
    Desk.run_of_asks hasks hno.confirm fun _ _ => ⟨_, rfl⟩
  have hloops : Loops r replies s j path outcome u := ⟨t, hopens, hrun⟩
  exact ⟨_, hloops.compile_of_declined hdeclined⟩

theorem read_of_saved (h : Working r path s t) {name : String} {fs : Files} {content : Bytes}
    (hfs : t.files.write name content = .ok fs) (hne : ¬s.files.SameFile path name) :
    (Session.dropSnippet path { t with files := fs }).files.read name = .ok content := by
  obtain ⟨old, hold⟩ := h.present
  obtain ⟨old', hold'⟩ := (Files.written_of_write hfs).read hold
  refine Files.read_remove (Files.read_of_write hfs) (Files.writable_of_read hold') fun hsame => hne ?_
  exact h.writes.files.sameFile ((Files.written_of_write hfs).sameFile hsame)

theorem compile_effects (r : CompileRequest) (replies : Replies) (s : Session) (hnew : SnippetIsNew r s) :
    let run := Program.perform (.compile r) replies s
    let last := finalState run
    (last.output ≠ s.output →
        r.out = none ∧ r.editResult = false ∧ ∃ j path outcome t,
          Loops r replies s j path outcome t ∧ outcome.succeeded = true) ∧
      ((¬∃ j path source bs t, Renders r replies s j path source bs t) →
        ∀ name, last.files.find name = s.files.find name) ∧
      (∀ out j path source bs t, r.out = some out → s.files.Writable (tidyPath out) →
        Renders r replies s j path source bs t →
        let darwin := isDarwin none s.host.system
        let rendered := Listing.renderBytes j.tools darwin j.options source bs
        LastOutput (Pipeline.ofOptions j.tools darwin j.options path) s t bs ∧
          ∃ fs, t.files.writeText (tidyPath out) rendered = .ok fs ∧
            fs.read (tidyPath out) = .ok (Text.utf8 rendered) ∧
            run = Session.dropAfter path
              ((do
                if r.editResult then Session.editWith (tidyPath out) (some j.editor)
                return 0) { t with files := fs }) ∧
            (r.editResult = false → ¬s.files.SameFile path (tidyPath out) →
              last.files.read (tidyPath out) = .ok (Text.utf8 rendered))) ∧
      (∀ name content, s.files.read name = .ok content →
        (∀ out, r.out = some out → ¬s.files.SameFile (tidyPath out) name) →
        last.files.read name = .ok content) ∧
      ∀ reply, Prompts r replies s reply → Declines replies reply → run = .ok 1 last := by
  intro run last
  refine ⟨output_of_compile, ?_, ?_, ?_, ?_⟩
  · intro hno name
    exact Files.find_congr (node?_of_not_renders hnew hno) name
  · intro out j path source bs t hout hw hrenders darwin rendered
    obtain ⟨fs, hfs, hrun⟩ := hrenders.compile_of_saved hout hw
    obtain ⟨outcome, hloops, hbs, -⟩ := hrenders
    refine ⟨lastOutput_of_loops hloops hbs, fs, hfs, Files.read_of_write hfs, hrun, ?_⟩
    intro hedit hne
    have hlast : last = Session.dropSnippet path { t with files := fs } := by
      simp only [last, run, Program.perform, hrun, hedit]
      rfl
    rw [hlast]
    exact read_of_saved hloops.working hfs hne
  · intro name content hr hother
    exact read_of_compile hnew hr hother
  · intro reply hprompts hno
    obtain ⟨t, ht⟩ := compile_of_prompts hprompts hno
    have hrun : run = .ok 1 t := ht
    simp only [last, hrun, finalState]

/-- The steps of a run up to the outcome of its loop, with the text that the snippet has then. -/
def reached (r : CompileRequest) (replies : Replies) : Act (Outcome × Option String) := do
  let j ← prepare r
  let path ← Session.createSnippet j.text j.options.language.ending
  let outcome ← loop r j replies path
  return (outcome, ((← get).files.readText path).toOption)

theorem loops_of_reached {outcome : Outcome} {source? : Option String}
    (h : reached r replies s = .ok (outcome, source?) t) :
    ∃ j path, Loops r replies s j path outcome t ∧ (t.files.readText path).toOption = source? := by
  obtain ⟨j, u, hp, h⟩ := Desk.bind_eq_ok_iff.mp h
  obtain ⟨path, v, hc, h⟩ := Desk.bind_eq_ok_iff.mp h
  obtain ⟨outcome', w, hl, h⟩ := Desk.bind_eq_ok_iff.mp h
  obtain ⟨x, y, hget, h⟩ := Desk.bind_eq_ok_iff.mp h
  obtain ⟨hout, rfl⟩ := Desk.pure_eq_ok_iff.mp h
  cases hget
  cases hout
  exact ⟨j, path, ⟨v, ⟨u, hp, hc⟩, hl⟩, rfl⟩

def plainRequest : CompileRequest :=
  { language := .c
    standard := none
    optimization := .o3
    architecture := "native"
    wordSize := none
    exceptions := false
    rtti := false
    fastMath := false
    emitIr := false
    verboseAssembly := true
    showEncoding := false
    debugInfo := false
    demangle := true
    combinedOutput := false
    defines := []
    undefs := []
    warnings := []
    includes := []
    extra := []
    verbose := false
    editResult := false
    out := none
    input := none
    template := none
    config := none }

def savingRequest : CompileRequest := { plainRequest with out := some "out.s" }

def twoAttempts : Session :=
  { Session.bare with
    files := [(["out.s"], .file [0])]
    edits := [.ended 0 (some []), .ended 0 (some [10])]
    launches := [.ended 1 (some [1, 2, 3]), .ended 0 (some [65, 10])] }

theorem locate_snippet :
    twoAttempts.files.locate (twoAttempts.host.scratch ++ savingRequest.language.ending) =
      .ok ["snippet.c"] :=
  Session.eq_ok_of_toOption (by decide +kernel)

theorem snippetIsNew_twoAttempts : SnippetIsNew savingRequest twoAttempts := by
  intro place hplace
  rw [← Except.ok.inj (locate_snippet.symm.trans hplace)]
  decide +kernel

def oneYes : Replies := { lines := ["y"], readable := true }

theorem compile_effects_twoAttempts :
    SnippetIsNew savingRequest twoAttempts ∧
      let last := finalState (Program.perform (.compile savingRequest) oneYes twoAttempts)
      let darwin := isDarwin none twoAttempts.host.system
      last.output = "" ∧ ∃ j path t,
        Renders savingRequest oneYes twoAttempts j path "\n" [65, 10] t ∧
          LastOutput (Pipeline.ofOptions j.tools darwin j.options path) twoAttempts t [65, 10] ∧
          last.files.read (tidyPath "out.s") =
            .ok (Text.utf8 (Listing.renderBytes j.tools darwin j.options "\n" [65, 10])) := by
  refine ⟨snippetIsNew_twoAttempts, ?_⟩
  intro last darwin
  obtain ⟨houtput, hkept, hsaved, -⟩ :=
    compile_effects savingRequest oneYes twoAttempts snippetIsNew_twoAttempts
  have hprinted : last.output = "" := by
    by_contra hne
    have hout : some "out.s" = none := (houtput hne).1
    exact absurd hout (Option.some_ne_none _)
  obtain ⟨t, hreached⟩ : ∃ t, reached savingRequest oneYes twoAttempts =
      .ok ({ phase := .succeeded, output := some [65, 10], attempts := 2 }, some "\n") t :=
    exists_of_result? (by decide +kernel)
  obtain ⟨j, path, hloops, hsource⟩ := loops_of_reached hreached
  have hrenders : Renders savingRequest oneYes twoAttempts j path "\n" [65, 10] t :=
    ⟨_, hloops, rfl, Session.eq_ok_of_toOption hsource⟩
  have hlocate : twoAttempts.files.locate (tidyPath "out.s") = .ok ["out.s"] :=
    Session.eq_ok_of_toOption (by decide +kernel)
  have hwritable : twoAttempts.files.Writable (tidyPath "out.s") :=
    ⟨["out.s"], hlocate, by decide +kernel⟩
  have hne : ¬twoAttempts.files.SameFile path (tidyPath "out.s") := by
    rintro ⟨place, hpath, hname⟩
    rw [hloops.working.named] at hpath
    have hplaces := (locate_snippet.symm.trans hpath).trans (hname.symm.trans hlocate)
    exact absurd (Except.ok.inj hplaces) (by decide)
  obtain ⟨hlast, fs, -, -, -, hfile⟩ :=
    hsaved "out.s" j path "\n" [65, 10] t rfl hwritable hrenders
  exact ⟨hprinted, j, path, t, hrenders, hlast, hfile rfl hne⟩

end Command

end AsmLens
