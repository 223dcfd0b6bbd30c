import AsmLens.Proofs.CompileEffects

namespace AsmLens.Command

open CommandLine (CompileRequest)

theorem compile_of_success (r : CompileRequest) (replies : Replies) (s : Session) (j : Job)
    (path : String) (outcome : Outcome) (bs : Bytes) (t : Session) (hout : r.out = none)
    (hedit : r.editResult = false) (h : Loops r replies s j path outcome t)
    (hbs : outcome.unwrap = .ok bs) :
    let run := Program.perform (.compile r) replies s
    let last := Session.dropSnippet path t
    ∃ content, t.files.read path = .ok content ∧
      (∀ cs, Text.decode? content = some cs →
        let source := String.ofList (Text.unifyLineEnds cs)
        let rendered :=
          Listing.renderBytes j.tools (isDarwin none s.host.system) j.options source bs
        run = .ok 0 { last with output := s.output ++ Text.stripEscapes rendered }) ∧
      (Text.decode? content = none → run = .error .notText last ∧ last.output = s.output) := by
  intro run last
  obtain ⟨content, hread⟩ := h.working.present
  have houtput : t.output = s.output := h.working.writes.output
  refine ⟨content, hread, ?_, ?_⟩
  · intro cs hcs source rendered
    have hsource : t.files.readText path = .ok source := by
      rw [Files.readText, hread]
      simp only [bind, Except.bind, hcs, source]
    have hrenders : Renders r replies s j path source bs t :=
      ⟨outcome, h, hbs, hsource⟩
    simp only [run, Program.perform]
    rw [hrenders.compile_eq, deliver_eq_print hout hedit, ← houtput]
    rfl
  · intro hcs
    have hsource : t.files.readText path = .error .notText := by
      rw [Files.readText, hread]
      simp only [bind, Except.bind, hcs]
    exact ⟨h.compile_of_unreadable hbs hsource, houtput⟩

def oneAttempt (content : Bytes) : Session :=
  { Session.bare with
    edits := [.ended 0 (some content)]
    launches := [.ended 0 (some [114, 101, 116, 10])] }

theorem compile_of_success_printed :
    plainRequest.out = none ∧ plainRequest.editResult = false ∧
      ∃ j path outcome t last,
        Loops plainRequest .closed (oneAttempt [10]) j path outcome t ∧
        outcome.unwrap = .ok [114, 101, 116, 10] ∧
        Program.perform (.compile plainRequest) .closed (oneAttempt [10]) = .ok 0 last := by
  obtain ⟨t, hreached⟩ : ∃ t, reached plainRequest .closed (oneAttempt [10]) =
      .ok ({ phase := .succeeded, output := some [114, 101, 116, 10], attempts := 1 }, some "\n") t :=
    exists_of_result? (by decide +kernel)
  obtain ⟨j, path, hloops, hsource⟩ := loops_of_reached hreached
  obtain ⟨content, hread, hprinted, hlost⟩ :=
    compile_of_success plainRequest .closed (oneAttempt [10]) j path _ [114, 101, 116, 10] t rfl rfl
      hloops rfl
  have htext := Session.eq_ok_of_toOption hsource
  rw [Files.readText, hread] at htext
  cases hcs : Text.decode? content with
  | none =>
    simp only [bind, Except.bind, hcs] at htext
    cases htext
  | some cs => exact ⟨rfl, rfl, j, path, _, t, _, hloops, rfl, hprinted cs hcs⟩

def latinComment : Bytes := [0x2f, 0x2f, 0x20, 0xe9, 0x0a]

theorem compile_loses_code :
    plainRequest.out = none ∧ plainRequest.editResult = false ∧
      ∃ j path outcome t last,
        Loops plainRequest .closed (oneAttempt latinComment) j path outcome t ∧
        outcome.unwrap = .ok [114, 101, 116, 10] ∧
        Program.perform (.compile plainRequest) .closed (oneAttempt latinComment) = .error .notText last ∧
        last.output = "" := by
  obtain ⟨t, hreached⟩ : ∃ t, reached plainRequest .closed (oneAttempt latinComment) =
      .ok ({ phase := .succeeded, output := some [114, 101, 116, 10], attempts := 1 }, none) t :=
    exists_of_result? (by decide +kernel)
  obtain ⟨j, path, hloops, -⟩ := loops_of_reached hreached
  have hlost := eq_error_of_fault? (r := Program.perform (.compile plainRequest) .closed
    (oneAttempt latinComment)) (f := .notText) (by decide +kernel)
  exact ⟨rfl, rfl, j, path, _, t, _, hloops, rfl, hlost, by decide +kernel⟩

end AsmLens.Command
