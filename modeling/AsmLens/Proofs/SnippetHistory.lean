import AsmLens.Proofs.PrintedCode

/-!
What is in the snippet when it is compiled: what the last edit that wrote something left there. How an
editor ended makes no difference, and one that did not start changes nothing.
-/

namespace AsmLens

def Event.isEdit : Event → Bool
  | .edit _ => true
  | _ => false

def leftBy (content : Bytes) (edits : List Edit) : Bytes :=
  (edits.filterMap Edit.written?).getLast?.getD content

theorem leftBy_append (content : Bytes) (edits later : List Edit) :
    leftBy content (edits ++ later) = leftBy (leftBy content edits) later := by
  simp only [leftBy, List.filterMap_append, List.getLast?_append]
  cases (later.filterMap Edit.written?).getLast? <;> simp

/-- A process that reads nothing, as the compiler does, is given the name of the file, and each that is
given it finds there what the edits before it have left. -/
def ReadsEdited (path : String) (content : Bytes) (edits : List Edit) (events : List Event) : Prop :=
  ∀ before command input source after, events = before ++ .run command input source :: after →
    (input = none → path ∈ command) ∧
      (path ∈ command →
        source = some (leftBy content (edits.take (before.countP Event.isEdit))))

section

variable {path : String} {content : Bytes} {edits : List Edit} {events later : List Event}

theorem readsEdited_of_not_run (h : ∀ e ∈ events, e.isRun = false) :
    ReadsEdited path content edits events := by
  rintro before command input source after rfl
  have hrun := h (.run command input source) (by simp)
  contradiction

theorem ReadsEdited.append (h : ReadsEdited path content edits events)
    (h' : ReadsEdited path (leftBy content (edits.take (events.countP Event.isEdit)))
      (edits.drop (events.countP Event.isEdit)) later) :
    ReadsEdited path content edits (events ++ later) := by
  intro before command input source after hevents
  rcases List.append_eq_append_iff.mp hevents with ⟨middle, rfl, hlater⟩ | ⟨middle, hfirst, hrest⟩
  · have hnext := h' middle command input source after hlater
    rwa [← leftBy_append, ← List.take_add, ← List.countP_append] at hnext
  · cases middle with
    | nil =>
      -- The process is the first of the later ones.
      obtain rfl : events = before := by simpa using hfirst
      exact h' [] command input source after hrest.symm
    | cons e middle =>
      obtain ⟨rfl, -⟩ := List.cons.inj hrest
      exact h before command input source middle hfirst

end

namespace Pipeline

theorem exists_stage_of_start {data : Bytes} {ran : List String} {p : Pipeline}
    {launches : List Launch} {start : Start} (h : start ∈ (runFrom data ran p launches).starts) :
    ∃ s ∈ p, start.command = s.command ∧ (start.input = none → s.readsInput = false) := by
  induction p generalizing data ran launches with
  | nil => contradiction
  | cons s p ih =>
    have hfirst : start = startAt data launches 0 s →
        ∃ t ∈ s :: p, start.command = t.command ∧ (start.input = none → t.readsInput = false) := by
      rintro rfl
      exact ⟨s, List.mem_cons_self, rfl, by simp [startAt]⟩
    by_cases hc : s.command = []
    · simp only [runFrom, hc] at h
      contradiction
    · obtain ⟨log, hrun⟩ := runFrom_cons data ran s p launches hc
      rw [hrun] at h
      split at h
      · rcases List.mem_cons.mp h with hstart | hlater
        · exact hfirst hstart
        · obtain ⟨t, ht, hstage⟩ := ih hlater
          exact ⟨t, List.mem_cons_of_mem s ht, hstage⟩
      · exact hfirst (List.mem_singleton.mp h)

theorem readsInput_of_later {t : Tools} {o : Options} : ∀ s ∈ laterStages t o, s.readsInput = true := by
  unfold laterStages
  cases o.showEncoding <;> cases o.shouldDemangle <;> simp

theorem source_mem_of_stage {t : Tools} {darwin : Bool} {o : Options} {source : String} :
    ∀ s ∈ ofOptions t darwin o source, s.readsInput = false → source ∈ s.command := by
  refine List.forall_mem_cons.mpr ⟨fun _ => by simp [compileStage], ?_⟩
  intro s hs hreads
  rw [readsInput_of_later s hs] at hreads
  contradiction

theorem commands_of_success {data : Bytes} {ran : List String} {p : Pipeline}
    {launches : List Launch} {result : Result}
    (h : (runFrom data ran p launches).outcome = .ok result) (hr : result.success = true) :
    (runFrom data ran p launches).starts.map (·.command) = p.map (·.command) := by
  induction p generalizing data ran launches with
  | nil => rfl
  | cons s p ih =>
    by_cases hc : s.command = []
    · simp only [runFrom, hc] at h
      contradiction
    · obtain ⟨log, hrun⟩ := runFrom_cons data ran s p launches hc
      rw [hrun] at h ⊢
      split at h
      · rename_i hs
        rw [if_pos hs]
        simp only [Run.after, List.singleton_append, List.map_cons, startAt]
        rw [ih h]
      · obtain rfl := Except.ok.inj h
        contradiction

end Pipeline

namespace Session

structure Follows (path : String) (s t : Session) : Prop where
  snippet : t.snippet = s.snippet
  told : ∀ content, s.snippet = some path → s.files.read path = .ok content →
    ∃ new, t.events = s.events ++ new ∧ t.edits = s.edits.drop (new.countP Event.isEdit) ∧
      t.files.read path = .ok (leftBy content (s.edits.take (new.countP Event.isEdit))) ∧
      ReadsEdited path content s.edits new

variable {path : String}

theorem Quiet.follows {s t : Session} (h : Quiet s t) : Follows path s t where
  snippet := h.snippet
  told content _ hread := by
    refine ⟨[], ?_, h.edits, ?_, readsEdited_of_not_run (by simp)⟩
    · rw [h.events, List.append_nil]
    · rw [h.files]
      exact hread

instance : IsPreorder Session (Follows path) where
  refl s := (Std.Refl.refl (r := Quiet) s).follows
  trans s t u h h' := by
    refine ⟨h'.snippet.trans h.snippet, fun content hs hread => ?_⟩
    obtain ⟨new, hevents, hedits, hleft, hreads⟩ := h.told content hs hread
    obtain ⟨later, hevents', hedits', hleft', hreads'⟩ := h'.told _ (h.snippet.trans hs) hleft
    rw [hedits] at hedits' hleft' hreads'
    refine ⟨new ++ later, ?_, ?_, ?_, hreads.append hreads'⟩
    · rw [hevents', hevents, List.append_assoc]
    · rw [hedits', List.drop_drop, List.countP_append]
    · rw [hleft', ← leftBy_append, ← List.take_add, List.countP_append]

theorem follows_ignoresLog : IgnoresLog (Follows path) := .of_quiet fun _ _ => Quiet.follows

theorem follows_of_opened {s : Session} (command : List String) {files : Files}
    (h : ∀ content, s.files.read path = .ok content →
      files.read path = .ok (leftBy content [s.edits.headD .idle])) :
    Follows path s
      { s with edits := s.edits.tail, events := s.events ++ [.edit command], files } where
  snippet := rfl
  told content _ hread := by
    refine ⟨[.edit command], rfl, ?_, ?_, readsEdited_of_not_run (by simp [Event.isRun])⟩
    · exact List.drop_one.symm
    · rw [h content hread]
      -- Past the last answer an editor writes nothing.
      cases s.edits <;> rfl

theorem Edited.follows {s t : Session} (h : Edited path s t) : Follows path s t := by
  cases h with
  | kept command hnone =>
    refine follows_of_opened command fun content hread => ?_
    rw [leftBy, List.filterMap_cons_none hnone]
    exact hread
  | written command hsome hwrite =>
    refine follows_of_opened command fun content _ => ?_
    rw [leftBy, List.filterMap_cons_some hsome]
    exact Files.read_of_write hwrite
  | @lost bs f command hsome hwrite =>
    -- A file that can be read can be written.
    refine follows_of_opened command fun content hread => ?_
    obtain ⟨files, hfiles⟩ := Files.exists_write (Files.writable_of_read hread) bs
    rw [hfiles] at hwrite
    contradiction

theorem follows_editWith (editor : Option String) :
    Leaves (Follows path) (editWith path editor) := by
  unfold editWith
  exact .bind .get fun _ => leaves_edit (fun _ _ => Quiet.follows) (fun _ _ => Edited.follows) _

theorem follows_execute {p : Pipeline} (hp : ∀ s ∈ p, s.readsInput = false → path ∈ s.command) :
    Leaves (Follows path) (execute p) := by
  refine follows_ignoresLog.execute fun s => ⟨rfl, fun content hs hread => ?_⟩
  let r := p.run s.launches
  have hedits (events : List Event) (h : ∀ e ∈ events, e ∈ r.starts.map s.runEvent) :
      events.countP Event.isEdit = 0 := by
    refine List.countP_eq_zero.mpr fun e he => ?_
    obtain ⟨start, -, rfl⟩ := List.mem_map.mp (h e he)
    simp [runEvent, Event.isEdit]
  refine ⟨r.starts.map s.runEvent, rfl, ?_, ?_, ?_⟩
  · rw [hedits _ fun e he => he]
    rfl
  · rw [hedits _ fun e he => he]
    exact hread
  · intro before command input source after hevents
    rw [hedits before fun e he => hevents ▸ List.mem_append_left _ he]
    obtain ⟨start, hmem, hstart⟩ :
        ∃ start ∈ r.starts, s.runEvent start = .run command input source :=
      List.mem_map.mp (hevents ▸ List.mem_append_right _ List.mem_cons_self)
    simp only [runEvent, Event.run.injEq] at hstart
    obtain ⟨rfl, rfl, rfl⟩ := hstart
    refine ⟨fun hinput => ?_, fun hpath => ?_⟩
    · obtain ⟨stage, hstage, hcommand, hreads⟩ := Pipeline.exists_stage_of_start hmem
      rw [hcommand]
      exact hp stage hstage (hreads hinput)
    · simp only [sourceFor, hs, List.contains_iff_mem.mpr hpath, hread]
      rfl

def RunsNothing (s t : Session) : Prop :=
  ∃ new, t.events = s.events ++ new ∧ ∀ e ∈ new, e.isRun = false

theorem RunsNothing.of_events {s t : Session} (h : t.events = s.events) : RunsNothing s t :=
  ⟨[], by rw [h, List.append_nil], by simp⟩

instance : IsPreorder Session RunsNothing where
  refl _ := .of_events rfl
  trans s t u := by
    rintro ⟨new, hevents, hnew⟩ ⟨later, hevents', hlater⟩
    refine ⟨new ++ later, by rw [hevents', hevents, List.append_assoc], ?_⟩
    exact fun e he => (List.mem_append.mp he).elim (hnew e) (hlater e)

theorem Edited.runsNothing {s t : Session} (h : Edited path s t) : RunsNothing s t := by
  have hopened (command : List String) : ∀ e ∈ [Event.edit command], e.isRun = false := by
    simp [Event.isRun]
  cases h with
  | kept command => exact ⟨_, rfl, hopened command⟩
  | written command => exact ⟨_, rfl, hopened command⟩
  | lost command => exact ⟨_, rfl, hopened command⟩

theorem runsNothing_writeText (name text : String) : Leaves RunsNothing (writeText name text) :=
  (still_writeText name text).mono fun _ _ hstill => .of_events hstill.events

theorem runsNothing_editWith (editor : Option String) : Leaves RunsNothing (editWith path editor) := by
  unfold editWith
  refine .bind .get fun _ => leaves_edit ?_ (fun _ _ => Edited.runsNothing) _
  exact fun _ _ hquiet => .of_events hquiet.events

end Session

theorem Files.readText_eq_ok_iff {fs : Files} {name text : String} :
    fs.readText name = .ok text ↔
      ∃ content cs, fs.read name = .ok content ∧ Text.decode? content = some cs ∧
        text = String.ofList (Text.unifyLineEnds cs) := by
  cases hread : fs.read name with
  | error f => simp [readText, hread, bind, Except.bind]
  | ok content =>
    cases hcs : Text.decode? content with
    | none => simp [readText, hread, hcs, bind, Except.bind]
    | some cs => simp [readText, hread, hcs, bind, Except.bind, eq_comm]

namespace Command

open CommandLine (CompileRequest)

variable {r : CompileRequest} {replies : Replies} {s t u : Session} {j : Job}
  {path source : String} {bs : Bytes}

theorem follows_desk (j : Job) (system : String) (readable : Bool) (path : String) (o : Options) :
    (desk j system readable).KeepsTo path o (Session.Follows path) :=
  keepsTo_of_ignoresLog Session.follows_ignoresLog (Session.follows_editWith _)
    (Session.follows_execute Pipeline.source_mem_of_stage) readable

theorem follows_loop (r : CompileRequest) (j : Job) (replies : Replies) (path : String) :
    Leaves (Session.Follows path) (loop r j replies path) :=
  .bind .get fun s => (follows_desk j s.host.system replies.readable path j.options).run _ _

theorem runsNothing_finish (r : CompileRequest) (j : Job) (path : String) (outcome : Outcome) :
    Leaves Session.RunsNothing (finish r j path outcome) :=
  leaves_finish Session.runsNothing_writeText (fun _ => Session.runsNothing_editWith _)
    (fun _ => .modified fun _ => .of_events rfl) r path outcome

theorem Opens.starts (h : Opens r s j path t) :
    t.snippet = some path ∧ t.files.read path = .ok (Text.utf8 j.text) ∧ t.events = s.events ∧
      t.edits = s.edits := by
  obtain ⟨u, hp, hc⟩ := h
  obtain ⟨-, fs, hfs, rfl⟩ := Session.createSnippet_eq_ok_iff.mp hc
  have hquiet : Session.Quiet s u := (quiet_prepare r).of_ok hp
  exact ⟨rfl, Files.read_of_write hfs, hquiet.events, hquiet.edits⟩

theorem Opens.told (h : Opens r s j path t) (hu : Session.Follows path t u) :
    u.snippet = some path ∧ ∃ new, u.events = s.events ++ new ∧
      u.files.read path =
        .ok (leftBy (Text.utf8 j.text) (s.edits.take (new.countP Event.isEdit))) ∧
      ReadsEdited path (Text.utf8 j.text) s.edits new := by
  obtain ⟨hsnippet, hread, hevents, hedits⟩ := h.starts
  obtain ⟨new, hnew, -, hleft, hreads⟩ := hu.told _ hsnippet hread
  rw [hevents] at hnew
  rw [hedits] at hleft hreads
  exact ⟨hu.snippet.trans hsnippet, new, hnew, hleft, hreads⟩

theorem Opens.readsEdited (h : Opens r s j path t) :
    ∃ new, (finalState (compile r replies s)).events = s.events ++ new ∧
      ReadsEdited path (Text.utf8 j.text) s.edits new := by
  have hloop := follows_loop r j replies path t
  rw [h.compile_eq, Session.finalState_dropAfter]
  simp only [Session.dropSnippet, work, bind, EStateM.bind]
  cases hl : loop r j replies path t with
  | error f u =>
    rw [hl] at hloop
    obtain ⟨-, new, hevents, -, hreads⟩ := h.told hloop
    exact ⟨new, hevents, hreads⟩
  | ok outcome u =>
    rw [hl] at hloop
    obtain ⟨-, new, hevents, -, hreads⟩ := h.told (u := u) hloop
    obtain ⟨later, hlater, hnone⟩ := runsNothing_finish r j path outcome u
    refine ⟨new ++ later, ?_, hreads.append (readsEdited_of_not_run hnone)⟩
    rw [hlater, hevents, List.append_assoc]

theorem Renders.last_attempt (h : Renders r replies s j path source bs t) :
    let p := Pipeline.ofOptions j.tools (isDarwin none s.host.system) j.options path
    ∃ before launches result content,
      content = leftBy (Text.utf8 j.text) (s.edits.take (before.countP Event.isEdit)) ∧
      (p.run launches).outcome = .ok result ∧ result.success = true ∧ result.output = bs ∧
      t.events = s.events ++ before ++ (p.run launches).starts.map (fun start =>
        .run start.command start.input (if path ∈ start.command then some content else none)) ∧
      t.files.read path = .ok content := by
  intro p
  obtain ⟨outcome, ⟨u, hopens, hloop⟩, hbs, -⟩ := h
  have hsystem : u.host.system = s.host.system := by rw [hopens.working.writes.host]
  -- All that happened before the last attempt is work on the snippet.
  obtain ⟨v, result, hv, hattempt, hsuccess, hout⟩ :=
    Desk.run_last (follows_desk j u.host.system replies.readable path j.options) hloop hbs
  rw [hsystem] at hattempt
  obtain ⟨hsnippet, before, hevents, hleft, -⟩ := hopens.told hv
  obtain ⟨houtcome, hquiet⟩ := Session.quiet_of_execute_eq_ok hattempt
  refine ⟨before, v.launches, result, _, rfl, houtcome, hsuccess, hout, ?_, ?_⟩
  · rw [hquiet.events, hevents]
    refine congrArg _ (List.map_congr_left fun start _ => ?_)
    simp only [Session.runEvent, Session.sourceFor, hsnippet, hleft, List.contains_iff_mem]
    rfl
  · rw [hquiet.files, hleft]

theorem snippet_history (r : CompileRequest) (replies : Replies) (s : Session) :
    let run := Program.perform (.compile r) replies s
    let last := finalState run
    ((¬∃ j path t, Opens r s j path t) → last.events = s.events) ∧
      ∀ j path t, Opens r s j path t →
        let first := Text.utf8 j.text
        (∃ new, last.events = s.events ++ new ∧ ReadsEdited path first s.edits new) ∧
          ∀ source bs u, Renders r replies s j path source bs u →
            let darwin := isDarwin none s.host.system
            let p := Pipeline.ofOptions j.tools darwin j.options path
            ∃ before launches result content cs,
              content = leftBy first (s.edits.take (before.countP Event.isEdit)) ∧
              (p.run launches).outcome = .ok result ∧ result.success = true ∧ result.output = bs ∧
              (p.run launches).starts.map (·.command) = p.map (·.command) ∧
              u.events = s.events ++ before ++ (p.run launches).starts.map (fun start =>
                .run start.command start.input (if path ∈ start.command then some content else none)) ∧
              Text.decode? content = some cs ∧ source = String.ofList (Text.unifyLineEnds cs) ∧
              run = Session.dropAfter path
                ((do
                  deliver r path j.editor (Listing.renderBytes j.tools darwin j.options source bs)
                  return 0) u) := by
  intro run last
  refine ⟨fun hno => (quiet_of_not_opens hno).events, ?_⟩
  intro j path t hopens first
  refine ⟨hopens.readsEdited, ?_⟩
  intro source bs u hrenders darwin p
  obtain ⟨before, launches, result, content, hcontent, houtcome, hsuccess, hout, hevents, hread⟩ :=
    hrenders.last_attempt
  have hrun := hrenders.compile_eq
  obtain ⟨outcome, -, -, hsource⟩ := hrenders
  obtain ⟨content', cs, hread', hcs, rfl⟩ := Files.readText_eq_ok_iff.mp hsource
  obtain rfl : content = content' := Except.ok.inj (hread.symm.trans hread')
  exact ⟨before, launches, result, content, cs, hcontent, houtcome, hsuccess, hout,
    Pipeline.commands_of_success houtcome hsuccess, hevents, hcs, rfl, hrun⟩

theorem snippet_history_twoAttempts :
    let last := finalState (Program.perform (.compile savingRequest) oneYes twoAttempts)
    ∃ j path t u, Opens savingRequest twoAttempts j path t ∧
      Renders savingRequest oneYes twoAttempts j path "\n" [65, 10] u ∧
      (∃ new, last.events = twoAttempts.events ++ new ∧
        ReadsEdited path (Text.utf8 j.text) twoAttempts.edits new) ∧
      ∃ edits cs, Text.decode? (leftBy (Text.utf8 j.text) edits) = some cs ∧
        "\n" = String.ofList (Text.unifyLineEnds cs) := by
  intro last
  obtain ⟨u, hreached⟩ : ∃ u, reached savingRequest oneYes twoAttempts =
      .ok ({ phase := .succeeded, output := some [65, 10], attempts := 2 }, some "\n") u :=
    exists_of_result? (by decide +kernel)
  obtain ⟨j, path, hloops, hsource⟩ := loops_of_reached hreached
  have hrenders : Renders savingRequest oneYes twoAttempts j path "\n" [65, 10] u :=
    ⟨_, hloops, rfl, Session.eq_ok_of_toOption hsource⟩
  obtain ⟨t, hopens, -⟩ := hloops
  obtain ⟨hreads, hrendered⟩ :=
    (snippet_history savingRequest oneYes twoAttempts).2 j path t hopens
  obtain ⟨before, launches, result, content, cs, rfl, -, -, -, -, -, hcs, htext, -⟩ :=
    hrendered "\n" [65, 10] u hrenders
  exact ⟨j, path, t, u, hopens, hrenders, hreads, _, cs, hcs, htext⟩

end Command

end AsmLens
