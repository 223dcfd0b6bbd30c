import AsmLens.Command.Compile
import AsmLens.Proofs.FilePlaces
import AsmLens.Proofs.PipelineExecution
import Mathlib

namespace AsmLens

section

variable {σ α β : Type}

def finalState : EStateM.Result Fault σ α → σ
  | .ok _ t => t
  | .error _ t => t

def result? : EStateM.Result Fault σ α → Option α
  | .ok x _ => some x
  | .error _ _ => none

theorem exists_of_result? {r : EStateM.Result Fault σ α} {x : α} (h : result? r = some x) :
    ∃ t, r = .ok x t := by
  cases r with
  | ok y t => exact ⟨t, by rw [Option.some.inj h]⟩
  | error f t => contradiction

def fault? : EStateM.Result Fault σ α → Option Fault
  | .ok _ _ => none
  | .error f _ => some f

theorem eq_error_of_fault? {r : EStateM.Result Fault σ α} {f : Fault} (h : fault? r = some f) :
    r = .error f (finalState r) := by
  cases r with
  | ok y t => contradiction
  | error g t => rw [Option.some.inj h, finalState]

/-- However the action ends, the state that it leaves is in this relation to the one it found. -/
def Leaves (R : σ → σ → Prop) (a : EStateM Fault σ α) : Prop := ∀ s, R s (finalState (a s))

namespace Leaves

variable {R : σ → σ → Prop}

theorem of_ok {a : EStateM Fault σ α} (ha : Leaves R a) {s t : σ} {x : α} (h : a s = .ok x t) :
    R s t := by
  have hs := ha s
  rwa [h] at hs

theorem mono {R' : σ → σ → Prop} {a : EStateM Fault σ α} (ha : Leaves R a)
    (h : ∀ s t, R s t → R' s t) : Leaves R' a := fun s => h s _ (ha s)

theorem modified {f : σ → σ} (h : ∀ s, R s (f s)) :
    Leaves R (modify f : EStateM Fault σ PUnit) := h

variable [IsPreorder σ R]

theorem pure (x : α) : Leaves R (Pure.pure x : EStateM Fault σ α) := fun s => Std.Refl.refl s

theorem throw (f : Fault) : Leaves R (MonadExcept.throw f : EStateM Fault σ α) :=
  fun s => Std.Refl.refl s

theorem get : Leaves R (MonadState.get : EStateM Fault σ σ) := fun s => Std.Refl.refl s

theorem after {a : EStateM Fault σ α} {f : α → EStateM Fault σ β} (hf : ∀ x, Leaves R (f x)) (s : σ) :
    R (finalState (a s)) (finalState ((a >>= f) s)) := by
  simp only [Bind.bind, EStateM.bind]
  cases a s with
  | error e t => exact Std.Refl.refl t
  | ok x t => exact hf x t

theorem bind {a : EStateM Fault σ α} {f : α → EStateM Fault σ β} (ha : Leaves R a)
    (hf : ∀ x, Leaves R (f x)) : Leaves R (a >>= f) :=
  fun s => IsTrans.trans _ _ _ (ha s) (after hf s)

theorem forIn (xs : List α) (init : β) {f : α → β → EStateM Fault σ (ForInStep β)}
    (hf : ∀ x b, Leaves R (f x b)) : Leaves R (forIn xs init f) := by
  induction xs generalizing init with
  | nil => exact pure init
  | cons x xs ih =>
    rw [List.forIn_cons]
    refine bind (hf x init) fun step => ?_
    cases step with
    | done b => exact pure b
    | yield b => exact ih b

end Leaves

end

def Edit.written? : Edit → Option Bytes
  | .ended _ content => content
  | .refused _ => none

def Event.isRun : Event → Bool
  | .run _ _ _ => true
  | _ => false

namespace Session

def started (s : Session) : Nat := s.events.countP Event.isRun

section

variable {R : Session → Session → Prop}

def IgnoresLog (R : Session → Session → Prop) : Prop :=
  ∀ s log errors, R s { s with log, errors }

theorem IgnoresLog.display (h : IgnoresLog R) (r : Record) : Leaves R (Session.display r) :=
  .modified fun s => h s s.log _

theorem IgnoresLog.note (h : IgnoresLog R) (r : Record) : Leaves R (Session.note r) :=
  .modified fun s => h s _ _

theorem IgnoresLog.printError (h : IgnoresLog R) (text : String) :
    Leaves R (Session.printError text) := .modified fun s => h s s.log _

variable [IsPreorder Session R]

theorem leaves_lift {α : Type} (x : Except Fault α) : Leaves R (lift x) := by
  cases x with
  | ok a => exact .pure a
  | error f => exact .throw f

theorem IgnoresLog.notes (h : IgnoresLog R) (rs : List Record) : Leaves R (Session.notes rs) := by
  induction rs with
  | nil => exact .pure ()
  | cons r rs ih => exact .bind (h.note r) fun _ => ih

def afterRun (p : Pipeline) (s : Session) : Session :=
  { s with
    launches := (p.run s.launches).launches
    events := s.events ++ (p.run s.launches).starts.map s.runEvent }

theorem IgnoresLog.after_run (h : IgnoresLog R) (p : Pipeline) (s : Session) :
    R (afterRun p s) (finalState (execute p s)) := by
  have hrest : Leaves R (do
      Session.notes (p.run s.launches).log
      lift (p.run s.launches).outcome) := .bind (h.notes _) fun _ => leaves_lift _
  exact hrest (afterRun p s)

theorem IgnoresLog.execute (h : IgnoresLog R) {p : Pipeline} (hran : ∀ s, R s (afterRun p s)) :
    Leaves R (Session.execute p) :=
  fun s => IsTrans.trans _ _ _ (hran s) (h.after_run p s)

theorem IgnoresLog.selectTemplate (h : IgnoresLog R) (l : Language) (path : Option String) :
    Leaves R (Session.selectTemplate l path) := by
  unfold Session.selectTemplate
  split
  · exact .pure _
  · refine .bind .get fun s => ?_
    split
    · exact .pure _
    · exact .bind (h.note _) fun _ => .pure _
    · exact .throw _

theorem IgnoresLog.confirmAloud (h : IgnoresLog R) (reply : Option String) :
    Leaves R (Session.confirmAloud reply) := by
  refine .bind (h.printError _) fun _ => ?_
  cases reply with
  | none => exact .bind (h.printError _) fun _ => .pure false
  | some r => exact .pure _

end

structure Quiet (s t : Session) : Prop where
  host : t.host = s.host
  files : t.files = s.files
  snippet : t.snippet = s.snippet
  launches : t.launches = s.launches
  edits : t.edits = s.edits
  output : t.output = s.output
  events : t.events = s.events

theorem Quiet.started {s t : Session} (h : Quiet s t) : t.started = s.started := by
  rw [Session.started, h.events, Session.started]

instance : IsPreorder Session Quiet where
  refl _ := ⟨rfl, rfl, rfl, rfl, rfl, rfl, rfl⟩
  trans _ _ _ h h' :=
    ⟨h'.host.trans h.host, h'.files.trans h.files, h'.snippet.trans h.snippet,
      h'.launches.trans h.launches, h'.edits.trans h.edits, h'.output.trans h.output,
      h'.events.trans h.events⟩

theorem quiet_ignoresLog : IgnoresLog Quiet :=
  fun _ _ _ => ⟨rfl, rfl, rfl, rfl, rfl, rfl, rfl⟩

theorem IgnoresLog.of_quiet {R : Session → Session → Prop} (h : ∀ s t, Quiet s t → R s t) :
    IgnoresLog R := fun s log errors => h s _ (quiet_ignoresLog s log errors)

theorem quiet_loadVariables : Leaves Quiet loadVariables := by
  refine .bind .get fun s => ?_
  split
  · exact .pure ()
  · split
    · exact .throw _
    · refine .bind (.forIn _ _ fun m u => .bind (quiet_ignoresLog.display _) fun _ => .pure _) fun _ => ?_
      refine .bind .get fun s => ?_
      split
      · exact .modified fun _ => ⟨rfl, rfl, rfl, rfl, rfl, rfl, rfl⟩
      · exact .throw _

theorem quiet_overlay (path : Option String) : Leaves Quiet (overlay path) := by
  refine .bind .get fun s => ?_
  split
  · exact .pure _
  · refine .bind (leaves_lift _) fun there => ?_
    split
    · exact .bind (leaves_lift _) fun _ => .pure _
    · exact .pure _

theorem quiet_layer (bs : Option Bytes) : Leaves Quiet (layer bs) := by
  cases bs with
  | none => exact .pure []
  | some bs => exact .bind (leaves_lift _) fun _ => .pure _

theorem quiet_loadSettings (path : Option String) : Leaves Quiet (loadSettings path) := by
  refine .bind quiet_loadVariables fun _ => ?_
  refine .bind .get fun _ => .bind (quiet_layer _) fun _ => ?_
  refine .bind (quiet_overlay path) fun _ => .bind (quiet_layer _) fun _ => ?_
  exact .bind .get fun _ => leaves_lift _

theorem quiet_start (path : Option String) : Leaves Quiet (start path) := by
  refine .bind (quiet_loadSettings path) fun settings => ?_
  refine .bind (.bind .get fun s => ?_) fun _ => .pure settings
  exact .bind (.modified fun _ => ⟨rfl, rfl, rfl, rfl, rfl, rfl, rfl⟩) fun _ => quiet_ignoresLog.display _

structure Still (s t : Session) : Prop where
  environ : t.environ = s.environ
  events : t.events = s.events

instance : IsPreorder Session Still where
  refl _ := ⟨rfl, rfl⟩
  trans _ _ _ h h' := ⟨h'.environ.trans h.environ, h'.events.trans h.events⟩

theorem still_ignoresLog : IgnoresLog Still := fun _ _ _ => ⟨rfl, rfl⟩

theorem still_writeText (name text : String) : Leaves Still (writeText name text) :=
  .bind .get fun _ => .bind (leaves_lift _) fun _ => .modified fun _ => ⟨rfl, rfl⟩

def logged (s : Session) (r : Record) : Session :=
  { s with log := s.log ++ [r], errors := s.errors ++ s.logger.line r }

def launching (command : List String) : Record :=
  { level := .debug, message := "Launching editor: " ++ Text.joinWords command }

def notStarted (command : List String) (reason : String) : Record :=
  { level := .error, message := "Unable to start editor " ++ command.headD "" ++ ": " ++ reason }

def opened (s : Session) (command : List String) : Session :=
  { s.logged (launching command) with
    edits := s.edits.tail
    events := s.events ++ [.edit command] }

def noteStatus (status : Int) : Act Unit := do
  if status ≠ 0 then
    note { level := .debug, message := "Editor exited with status " ++ toString status }

def takeAnswer (path : String) (command : List String) : Edit → Act Unit
  | .refused reason => note (notStarted command reason)
  | .ended status content => do
    match content with
    | some bs =>
      let files ← lift ((← get).files.write path bs)
      modify fun s => { s with files }
    | none => pure ()
    noteStatus status

section

variable {path editor : String} {command : List String}

theorem edit_of_badWords {e : Text.SplitError} (h : Editor.command editor path = .error e)
    (s : Session) : edit path editor s = .error (.badWords e) s := by
  unfold edit
  rw [h]
  rfl

theorem edit_eq (h : Editor.command editor path = .ok command) (s : Session) :
    edit path editor s = takeAnswer path command (s.edits.headD .idle) (s.opened command) := by
  unfold edit
  rw [h]
  rfl

theorem takeAnswer_of_written {s : Session} {bs : Bytes} {files : Files}
    (h : s.files.write path bs = .ok files) (status : Int) :
    takeAnswer path command (.ended status (some bs)) s = noteStatus status { s with files } := by
  change (lift (s.files.write path bs) >>= _ : Act Unit) s = _
  rw [h]
  rfl

theorem takeAnswer_of_lost {s : Session} {bs : Bytes} {f : Fault}
    (h : s.files.write path bs = .error f) (status : Int) :
    takeAnswer path command (.ended status (some bs)) s = .error f s := by
  change (lift (s.files.write path bs) >>= _ : Act Unit) s = _
  rw [h]
  rfl

theorem IgnoresLog.noteStatus {R : Session → Session → Prop} [IsPreorder Session R]
    (h : IgnoresLog R) (status : Int) : Leaves R (noteStatus status) := by
  unfold Session.noteStatus
  split
  · exact h.note _
  · exact .pure ()

end

inductive Edited (path : String) (s : Session) : Session → Prop where
  | kept (command : List String) (h : (s.edits.headD .idle).written? = none) :
      Edited path s { s with edits := s.edits.tail, events := s.events ++ [.edit command] }
  | written {bs : Bytes} {files : Files} (command : List String)
      (h : (s.edits.headD .idle).written? = some bs) (hwrite : s.files.write path bs = .ok files) :
      Edited path s { s with edits := s.edits.tail, events := s.events ++ [.edit command], files }
  | lost {bs : Bytes} {f : Fault} (command : List String)
      (h : (s.edits.headD .idle).written? = some bs) (hwrite : s.files.write path bs = .error f) :
      Edited path s { s with edits := s.edits.tail, events := s.events ++ [.edit command] }

theorem leaves_edit {R : Session → Session → Prop} [IsPreorder Session R] {path : String}
    (hquiet : ∀ s t, Quiet s t → R s t) (hedited : ∀ s t, Edited path s t → R s t) (editor : String) :
    Leaves R (edit path editor) := by
  intro s
  have hsaid : IgnoresLog R := .of_quiet hquiet
  cases hcommand : Editor.command editor path with
  | error e =>
    rw [edit_of_badWords hcommand]
    exact Std.Refl.refl s
  | ok command =>
    rw [edit_eq hcommand]
    -- The record of the edit and its answer are one step: a file is behind in between.
    refine IsTrans.trans _ _ _ (hsaid.note (launching command) s) ?_
    cases ha : s.edits.headD .idle with
    | refused reason =>
      have hopened : R (s.logged (launching command)) (s.opened command) :=
        hedited _ _ (.kept command (congrArg Edit.written? ha))
      exact IsTrans.trans _ _ _ hopened (hsaid.note _ _)
    | ended status content =>
      cases content with
      | none =>
        have hopened : R (s.logged (launching command)) (s.opened command) :=
          hedited _ _ (.kept command (congrArg Edit.written? ha))
        exact IsTrans.trans _ _ _ hopened (hsaid.noteStatus status _)
      | some bs =>
        cases hwrite : s.files.write path bs with
        | error f =>
          rw [takeAnswer_of_lost (s := s.opened command) hwrite]
          exact hedited _ _ (.lost command (congrArg Edit.written? ha) hwrite)
        | ok files =>
          rw [takeAnswer_of_written (s := s.opened command) hwrite]
          have hopened : R (s.logged (launching command)) { s.opened command with files } :=
            hedited _ _ (.written command (congrArg Edit.written? ha) hwrite)
          exact IsTrans.trans _ _ _ hopened (hsaid.noteStatus status _)

def Handled (s t : Session) : Prop := Relation.ReflTransGen Files.Touched s.files t.files

instance : IsPreorder Session Handled where
  refl _ := .refl
  trans _ _ _ h h' := Relation.ReflTransGen.trans h h'

theorem Handled.of_files {s t : Session} (h : t.files = s.files) : Handled s t := by
  rw [Handled, h]

theorem Quiet.handled {s t : Session} (h : Quiet s t) : Handled s t := .of_files h.files

theorem handled_ignoresLog : IgnoresLog Handled := .of_quiet fun _ _ => Quiet.handled

theorem handled_of_write {s : Session} {fs : Files} {name : String} {content : Bytes}
    (h : s.files.write name content = .ok fs) : Handled s { s with files := fs } :=
  .single (.written h)

theorem handled_writeText (name text : String) : Leaves Handled (writeText name text) := by
  intro s
  simp only [writeText, bind, EStateM.bind, get, getThe, MonadStateOf.get, EStateM.get]
  cases h : s.files.writeText name text with
  | error f => exact Std.Refl.refl s
  | ok fs => exact handled_of_write h

theorem Edited.handled {path : String} {s t : Session} (h : Edited path s t) : Handled s t := by
  cases h with
  | kept command => exact .of_files rfl
  | written command _ hwrite => exact handled_of_write hwrite
  | lost command => exact .of_files rfl

theorem handled_editWith (path : String) (editor : Option String) :
    Leaves Handled (editWith path editor) := by
  unfold editWith
  exact .bind .get fun _ => leaves_edit (fun _ _ => Quiet.handled) (fun _ _ => Edited.handled) _

theorem handled_execute (p : Pipeline) : Leaves Handled (execute p) :=
  handled_ignoresLog.execute fun _ => .of_files rfl

structure Writes (name : String) (s t : Session) : Prop where
  host : t.host = s.host
  output : t.output = s.output
  files : Files.Written name s.files t.files
  used : ∃ n, t.launches = s.launches.drop n ∧ t.started = s.started + n

variable {name : String}

instance : IsPreorder Session (Writes name) where
  refl s := ⟨rfl, rfl, .refl name s.files, 0, rfl, rfl⟩
  trans s t u h h' := by
    refine ⟨h'.host.trans h.host, h'.output.trans h.output, h.files.trans h'.files, ?_⟩
    obtain ⟨n, hn, hstarted⟩ := h.used
    obtain ⟨m, hm, hstarted'⟩ := h'.used
    refine ⟨n + m, ?_, by omega⟩
    rw [hm, hn, List.drop_drop]

theorem Quiet.writes {s t : Session} (h : Quiet s t) : Writes name s t where
  host := h.host
  output := h.output
  files := by
    rw [h.files]
    exact .refl name s.files
  used := ⟨0, h.launches, h.started⟩

theorem writes_ignoresLog : IgnoresLog (Writes name) := .of_quiet fun _ _ => Quiet.writes

theorem writes_of_write {s : Session} {fs : Files} {content : Bytes}
    (h : s.files.write name content = .ok fs) : Writes name s { s with files := fs } :=
  ⟨rfl, rfl, Files.written_of_write h, 0, rfl, rfl⟩

theorem writes_writeText (text : String) : Leaves (Writes name) (writeText name text) := by
  intro s
  simp only [writeText, bind, EStateM.bind, get, getThe, MonadStateOf.get, EStateM.get]
  cases h : s.files.writeText name text with
  | error f => exact Std.Refl.refl s
  | ok fs => exact writes_of_write h

theorem writes_edit (editor : String) : Leaves (Writes name) (edit name editor) := by
  refine leaves_edit (fun _ _ => Quiet.writes) (fun s t h => ?_) editor
  have hopened (command : List String) :
      (s.events ++ [Event.edit command]).countP Event.isRun = s.started := by
    simp [started, Event.isRun]
  cases h with
  | kept command => exact ⟨rfl, rfl, .refl name s.files, 0, rfl, hopened command⟩
  | written command _ hwrite =>
    exact ⟨rfl, rfl, Files.written_of_write hwrite, 0, rfl, hopened command⟩
  | lost command => exact ⟨rfl, rfl, .refl name s.files, 0, rfl, hopened command⟩

theorem writes_editWith (editor : Option String) : Leaves (Writes name) (editWith name editor) := by
  unfold editWith
  exact .bind .get fun _ => writes_edit _

end Session

namespace Pipeline

theorem launches_of_runFrom (data : Bytes) (ran : List String) (p : Pipeline)
    (launches : List Launch) :
    (runFrom data ran p launches).launches =
      launches.drop (runFrom data ran p launches).starts.length := by
  induction p generalizing data ran launches with
  | nil => rfl
  | cons s p ih =>
    by_cases hc : s.command = []
    · simp only [runFrom, hc]
      rfl
    · obtain ⟨log, hrun⟩ := runFrom_cons data ran s p launches hc
      rw [hrun]
      split
      · simp only [Run.after, List.singleton_append, List.length_cons, ih, List.drop_tail]
      · simp only [List.length_singleton, List.drop_one]

end Pipeline

namespace Session

theorem countP_runEvent (s : Session) (starts : List Pipeline.Start) :
    (starts.map s.runEvent).countP Event.isRun = starts.length := by
  rw [List.countP_map, List.countP_eq_length]
  exact fun _ _ => rfl

theorem writes_execute {name : String} (p : Pipeline) : Leaves (Writes name) (execute p) := by
  refine writes_ignoresLog.execute fun s => ?_
  refine ⟨rfl, rfl, .refl name s.files, (p.run s.launches).starts.length, ?_, ?_⟩
  · exact Pipeline.launches_of_runFrom [] [] p s.launches
  · simp only [afterRun, started, List.countP_append, countP_runEvent]

end Session

end AsmLens
