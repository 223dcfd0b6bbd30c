import AsmLens.Proofs.EditorCommand
import AsmLens.Proofs.SeededSnippet

namespace AsmLens

namespace Session

variable {path : String} {command : List String}

theorem returns_noteStatus (status : Int) (s : Session) : ∃ t, noteStatus status s = .ok () t := by
  unfold noteStatus
  split <;> exact ⟨_, rfl⟩

theorem returns_takeAnswer_iff (answer : Edit) (s : Session) :
    (∃ t, takeAnswer path command answer s = .ok () t) ↔
      ∀ bs, answer.written? = some bs → s.files.Writable path := by
  cases answer with
  | refused reason => exact iff_of_true ⟨_, rfl⟩ nofun
  | ended status content =>
    cases content with
    | none => exact iff_of_true (returns_noteStatus status s) nofun
    | some bs =>
      cases hwrite : s.files.write path bs with
      | error f =>
        rw [takeAnswer_of_lost hwrite]
        refine iff_of_false nofun fun hwritable => ?_
        obtain ⟨files, hfiles⟩ := Files.exists_write (hwritable bs rfl) bs
        rw [hwrite] at hfiles
        contradiction
      | ok files =>
        rw [takeAnswer_of_written hwrite]
        obtain ⟨place, hlocate, hfolder, -⟩ := Files.write_eq_ok_iff.mp hwrite
        exact iff_of_true (returns_noteStatus status _) fun _ _ => ⟨place, hlocate, hfolder⟩

variable {asked : Option String} {s : Session} {words : List String}

theorem editWith_of_words (h : Text.splitWords (Editor.line s.environ asked) = .ok words)
    (path : String) :
    editWith path asked s =
      takeAnswer path (words ++ [path]) (s.edits.headD .idle) (s.opened (words ++ [path])) := by
  rw [editWith_eq, edit_eq (Editor.command_of_words h path)]

theorem editWith_of_badWords {e : Text.SplitError}
    (h : Text.splitWords (Editor.line s.environ asked) = .error e) (path : String) :
    editWith path asked s = .error (.badWords e) s := by
  apply edit_of_badWords
  change Editor.command (Editor.line s.environ asked) path = .error e
  rw [Editor.command, h]
  rfl

theorem returns_editWith_iff (path : String) (asked : Option String) (s : Session) :
    (∃ t, editWith path asked s = .ok () t) ↔
      (∃ words, Text.splitWords (Editor.line s.environ asked) = .ok words) ∧
        ∀ bs, (s.edits.headD .idle).written? = some bs → s.files.Writable path := by
  cases hwords : Text.splitWords (Editor.line s.environ asked) with
  | error e =>
    rw [editWith_of_badWords hwords]
    simp
  | ok words =>
    rw [editWith_of_words hwords, returns_takeAnswer_iff]
    simp [opened, logged]

theorem editWith_of_refused {reason : String}
    (h : Text.splitWords (Editor.line s.environ asked) = .ok words)
    (hanswer : s.edits.headD .idle = .refused reason) (path : String) :
    editWith path asked s =
      .ok () ((s.opened (words ++ [path])).logged (notStarted (words ++ [path]) reason)) := by
  rw [editWith_of_words h, hanswer]
  rfl

theorem compiles_after_refused {j : Command.Job} {reason : String} {content : Bytes}
    (h : Text.splitWords (Editor.line s.environ (some j.editor)) = .ok words)
    (hanswer : s.edits.headD .idle = .refused reason) (hsnippet : s.snippet = some path)
    (hread : s.files.read path = .ok content) (system : String) (readable : Bool) (n : Nat)
    (replies : List (Option String)) :
    let d := Command.desk j system readable
    ∃ later, (finalState ((do d.edit path; d.rounds path j.options n replies) s)).events =
      s.events ++ .edit (words ++ [path]) ::
        .run (Command.compileCommand j.tools (isDarwin none system) j.options path) none
          (some content) :: later := by
  intro d
  let t := (s.opened (words ++ [path])).logged (notStarted (words ++ [path]) reason)
  have hedit : d.edit path s = .ok () t := editWith_of_refused h hanswer path
  obtain ⟨later, hlater⟩ := Command.rounds_first (s := t) (j := j) hsnippet hread system readable n
    replies
  refine ⟨later, ?_⟩
  rw [bind_of_ok hedit, hlater, List.append_cons s.events]
  rfl

theorem edit_outcome (path : String) (asked : Option String) (s : Session) :
    let line := Editor.line s.environ asked
    ((∃ t, editWith path asked s = .ok () t) ↔
        (∃ words, Text.splitWords line = .ok words) ∧
          ∀ bs, (s.edits.headD .idle).written? = some bs → s.files.Writable path) ∧
      (∀ e, Text.splitWords line = .error e → editWith path asked s = .error (.badWords e) s) ∧
      ∀ words reason, Text.splitWords line = .ok words → s.edits.headD .idle = .refused reason →
        let command := words ++ [path]
        (∃ t, editWith path asked s = .ok () t ∧ t.files = s.files ∧
          t.log = s.log ++ [launching command, notStarted command reason] ∧
          t.events = s.events ++ [.edit command]) ∧
        ∀ (j : Command.Job) (system : String) (readable : Bool) (n : Nat) (replies : List (Option String))
          (content : Bytes), asked = some j.editor → s.snippet = some path →
          s.files.read path = .ok content →
          let d := Command.desk j system readable
          ∃ later, (finalState ((do d.edit path; d.rounds path j.options n replies) s)).events =
            s.events ++ .edit command ::
              .run (Command.compileCommand j.tools (isDarwin none system) j.options path) none
                (some content) :: later := by
  intro line
  refine ⟨returns_editWith_iff path asked s, fun e h => editWith_of_badWords h path, ?_⟩
  intro words reason hwords hanswer command
  constructor
  · exact ⟨_, editWith_of_refused hwords hanswer path, rfl, List.append_assoc _ _ _, rfl⟩
  · rintro j system readable n replies content rfl hsnippet hread
    exact compiles_after_refused hwords hanswer hsnippet hread system readable n replies

theorem edit_outcome_refused :
    let s := { bare with
      files := [(["a.c"], .file [10])], snippet := some "a.c", edits := [.refused "not found"] }
    Text.splitWords (Editor.line s.environ (some "vi -n")) = .ok ["vi", "-n"] ∧
      ∀ (o : Options) (system : String) (readable : Bool),
        let j : Command.Job := { tools := .standard, options := o, editor := "vi -n", text := "" }
        ∃ later, (finalState ((Command.desk j system readable).run "a.c" o true [] s)).events =
          .edit ["vi", "-n", "a.c"] ::
            .run (Command.compileCommand .standard (isDarwin none system) o "a.c") none
              (some [10]) :: later := by
  intro s
  have hwords : Text.splitWords (Editor.line s.environ (some "vi -n")) = .ok ["vi", "-n"] := by
    decide +kernel
  refine ⟨hwords, fun o system readable => ?_⟩
  obtain ⟨-, -, hrefused⟩ := edit_outcome "a.c" (some "vi -n") s
  obtain ⟨-, hcompiles⟩ := hrefused ["vi", "-n"] "not found" hwords rfl
  exact hcompiles _ system readable 1 [] [10] rfl rfl rfl

theorem unclosed_line_ends_edit :
    editWith "a.c" (some "\"vi") bare = .error (.badWords .unclosedQuote) bare ∧
      fault? (Program.perform (.compile Command.plainRequest) .closed (Command.equipped "\"vi")) =
        some (.badWords .unclosedQuote) ∧
      (finalState (Program.perform (.compile Command.plainRequest) .closed
        (Command.equipped "\"vi"))).events = [] := by
  refine ⟨editWith_of_badWords ?_ "a.c", ?_, ?_⟩ <;> decide +kernel

end Session

end AsmLens
