import AsmLens.Proofs.PrintedCode

namespace AsmLens

namespace Session

structure Removed {α : Type} (path : String) (work run : EStateM.Result Fault Session α) : Prop where
  result : result? run = result? work
  fault : fault? run = fault? work
  gone : (finalState run).files.exists? path = false
  rest : ∃ files, finalState run = { finalState work with files }
  others : ∀ place, (finalState work).files.locate path ≠ .ok place →
    (finalState run).files.node? place = (finalState work).files.node? place

theorem removed_dropAfter {α : Type} {path : String} {work : EStateM.Result Fault Session α}
    (h : (finalState work).files.Writable path) : Removed path work (dropAfter path work) where
  result := by cases work <;> rfl
  fault := by cases work <;> rfl
  gone := by
    rw [finalState_dropAfter]
    exact Files.not_exists_remove h
  rest := ⟨_, finalState_dropAfter path work⟩
  others place hplace := by
    obtain ⟨q, hlocate, hfolder⟩ := h
    rw [finalState_dropAfter, dropSnippet, Files.node?_remove hlocate hfolder]
    exact if_neg (by rintro rfl; exact hplace hlocate)

theorem removed_withSnippet {α : Type} {text ending path : String} {work : String → Act α}
    {s t : Session} (h : createSnippet text ending s = .ok path t)
    (hwork : Handled t (finalState (work path t))) :
    Removed path (work path t) (withSnippet text ending work s) := by
  rw [withSnippet_eq h hwork]
  exact removed_dropAfter (writable_of_handled h hwork)

def removeFile (name : String) : Act Unit := do
  let files ← lift ((← get).files.unlink name)
  modify fun s => { s with files }

theorem handled_removeFile (name : String) : Leaves Handled (removeFile name) := by
  intro s
  simp only [removeFile, bind, EStateM.bind, get, getThe, MonadStateOf.get, EStateM.get]
  cases h : s.files.unlink name with
  | error f => exact Std.Refl.refl s
  | ok fs => exact .single (.removed h)

end Session

namespace Command

open CommandLine (CompileRequest)

def workAt (d : Desk Session) (r : CompileRequest) (j : Job) (replies : List (Option String))
    (path : String) : Act Nat := do
  finish r j path (← d.run path j.options r.input.isNone replies)

theorem handled_workAt {d : Desk Session} {j : Job} {path : String}
    (hd : d.KeepsTo path j.options Session.Handled) (r : CompileRequest)
    (replies : List (Option String)) : Leaves Session.Handled (workAt d r j replies path) :=
  .bind (hd.run _ _) fun outcome => handled_finish r j path outcome

theorem snippet_removed :
    (∀ {α : Type} (text ending path : String) (work : String → Act α) (s t : Session),
      Session.createSnippet text ending s = .ok path t →
      Session.Handled t (finalState (work path t)) →
      Session.Removed path (work path t) (Session.withSnippet text ending work s)) ∧
    (∀ (r : CompileRequest) (j : Job) (path : String) (d : Desk Session)
      (replies : List (Option String)) (s t : Session),
      Session.createSnippet j.text j.options.language.ending s = .ok path t →
      d.KeepsTo path j.options Session.Handled →
      Session.Removed path (workAt d r j replies path t)
        (Session.withSnippet j.text j.options.language.ending (workAt d r j replies) s)) ∧
    ∀ (r : CompileRequest) (replies : Replies) (s t : Session) (j : Job) (path : String),
      Opens r s j path t →
      Session.Removed path (work r j replies path t)
        (Program.perform (.compile r) replies s) := by
  refine ⟨fun _ _ _ _ _ _ => Session.removed_withSnippet, ?_, ?_⟩
  · intro r j path d replies s t hc hd
    exact Session.removed_withSnippet hc (handled_workAt hd r replies t)
  · intro r replies s t j path hopens
    have hwork := handled_work r j replies path t
    have hrun : Program.perform (.compile r) replies s = Session.dropAfter path _ := hopens.compile_eq
    obtain ⟨u, -, hc⟩ := hopens
    rw [hrun]
    exact Session.removed_dropAfter (Session.writable_of_handled hc hwork)

def losing (path : String) : Act Unit := do
  Session.writeText path "lost"
  Session.removeFile path
  throw .interrupted

def losingDesk : Desk Session :=
  { edit := Session.removeFile
    attempt := fun _ _ => throw .noProgram
    confirm := fun _ => return true
    note := Session.note }

theorem snippet_removed_losing :
    (∃ path t, Session.createSnippet "int f;\n" ".c" Session.bare = .ok path t ∧
      Session.Handled t (finalState (losing path t)) ∧ fault? (losing path t) = some .interrupted ∧
      Session.Removed path (losing path t)
        (Session.withSnippet "int f;\n" ".c" losing Session.bare)) ∧
    ∃ j path s t, prepare plainRequest (oneAttempt [10]) = .ok j s ∧
      Session.createSnippet j.text j.options.language.ending s = .ok path t ∧
      losingDesk.KeepsTo path j.options Session.Handled ∧
      Session.Removed path (workAt losingDesk plainRequest j [] path t)
        (Session.withSnippet j.text j.options.language.ending (workAt losingDesk plainRequest j []) s) ∧
      Session.Removed path (work plainRequest j .closed path t)
        (Program.perform (.compile plainRequest) .closed (oneAttempt [10])) := by
  obtain ⟨hblock, hdesk, hcompile⟩ := snippet_removed
  refine ⟨?_, ?_⟩
  · have hcreated : (result? (Session.createSnippet "int f;\n" ".c" Session.bare)).isSome = true := by
      decide +kernel
    obtain ⟨path, hpath⟩ := Option.isSome_iff_exists.mp hcreated
    obtain ⟨t, ht⟩ := exists_of_result? hpath
    have hwork : Leaves Session.Handled (losing path) :=
      .bind (Session.handled_writeText path "lost") fun _ =>
        .bind (Session.handled_removeFile path) fun _ => .throw .interrupted
    have hends : fault? ((Session.createSnippet "int f;\n" ".c" >>= losing) Session.bare) =
        some .interrupted := by decide +kernel
    have hfault : fault? (losing path t) = some .interrupted := by
      simpa only [bind, EStateM.bind, ht] using hends
    exact ⟨path, t, ht, hwork t, hfault, hblock _ _ path losing _ t ht (hwork t)⟩
  · obtain ⟨t, hreached⟩ : ∃ t, reached plainRequest .closed (oneAttempt [10]) =
        .ok ({ phase := .succeeded, output := some [114, 101, 116, 10], attempts := 1 }, some "\n") t :=
      exists_of_result? (by decide +kernel)
    obtain ⟨j, path, ⟨u, ⟨s, hp, hc⟩, -⟩, -⟩ := loops_of_reached hreached
    have hkeeps : losingDesk.KeepsTo path j.options Session.Handled :=
      { edit := Session.handled_removeFile path
        attempt := .throw .noProgram
        confirm := fun _ => .pure true
        note := Session.handled_ignoresLog.note }
    exact ⟨j, path, s, u, hp, hc, hkeeps, hdesk plainRequest j path losingDesk [] s u hc hkeeps,
      hcompile plainRequest .closed (oneAttempt [10]) u j path ⟨s, hp, hc⟩⟩

end Command

end AsmLens
