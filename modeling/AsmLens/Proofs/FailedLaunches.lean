import AsmLens.Proofs.CompileRun

namespace AsmLens

namespace Pipeline

/-- A run comes to the `i`-th stage: those before it name programs, and these end well. -/
structure Reaches (p : Pipeline) (launches : List Launch) (i : Nat) (s : Stage) : Prop where
  stage : p[i]? = some s
  named : ∀ t ∈ p.take i, t.command ≠ []
  passed : ∀ k < i, (answer launches k).status? = some 0

section

variable {p : Pipeline} {launches : List Launch} {s t : Stage} {i : Nat}

theorem reaches_zero : Reaches (s :: p) launches 0 t ↔ s = t := by
  constructor
  · intro h
    exact Option.some.inj h.stage
  · rintro rfl
    exact ⟨rfl, by simp, by omega⟩

theorem reaches_succ :
    Reaches (s :: p) launches (i + 1) t ↔
      s.command ≠ [] ∧ (answer launches 0).status? = some 0 ∧ Reaches p launches.tail i t := by
  constructor
  · intro h
    have hnamed := h.named
    simp only [List.take_succ_cons, List.forall_mem_cons] at hnamed
    refine ⟨hnamed.1, h.passed 0 (by omega), h.stage, hnamed.2, ?_⟩
    intro k hk
    rw [answer_tail]
    exact h.passed (k + 1) (by omega)
  · rintro ⟨hs, hfirst, h⟩
    refine ⟨h.stage, ?_, ?_⟩
    · simp only [List.take_succ_cons, List.forall_mem_cons]
      exact ⟨hs, h.named⟩
    · intro k hk
      cases k with
      | zero => exact hfirst
      | succ k =>
        rw [← answer_tail]
        exact h.passed k (by omega)

theorem outcome_runFrom_cons (data : Bytes) (ran : List String) (hs : s.command ≠ [])
    (hfirst : (answer launches 0).status? = some 0) :
    (runFrom data ran (s :: p) launches).outcome =
      (runFrom (answer launches 0).printed (ran ++ [s.name]) p launches.tail).outcome := by
  obtain ⟨log, hrun⟩ := runFrom_cons data ran s p launches hs
  rw [hrun, if_pos hfirst, Run.after]

theorem outcome_of_reaches_unnamed (data : Bytes) (ran : List String)
    (h : Reaches p launches i s) (hs : s.command = []) :
    (runFrom data ran p launches).outcome = .error .noProgram := by
  induction p generalizing data ran launches i with
  | nil =>
    have hstage := h.stage
    contradiction
  | cons t p ih =>
    cases i with
    | zero =>
      obtain rfl := reaches_zero.mp h
      simp only [runFrom, hs]
    | succ i =>
      obtain ⟨ht, hfirst, hrest⟩ := reaches_succ.mp h
      rw [outcome_runFrom_cons data ran ht hfirst]
      exact ih _ _ hrest

theorem outcome_of_reaches_failed (data : Bytes) (ran : List String) (h : Reaches p launches i s)
    (hs : s.command ≠ []) (hf : (answer launches i).status? ≠ some 0) :
    (runFrom data ran p launches).outcome =
      .ok (.failed (ran ++ (p.take (i + 1)).map (·.name)) (failureOf s (answer launches i))) := by
  induction p generalizing data ran launches i with
  | nil =>
    have hstage := h.stage
    contradiction
  | cons t p ih =>
    cases i with
    | zero =>
      obtain rfl := reaches_zero.mp h
      obtain ⟨log, hrun⟩ := runFrom_cons data ran t p launches hs
      rw [hrun, if_neg hf]
      rfl
    | succ i =>
      obtain ⟨ht, hfirst, hrest⟩ := reaches_succ.mp h
      have hf' : (answer launches.tail i).status? ≠ some 0 := by
        rw [answer_tail]
        exact hf
      rw [outcome_runFrom_cons data ran ht hfirst, ih _ _ hrest hf', answer_tail]
      simp

theorem reaches_unnamed_of_error {data : Bytes} {ran : List String} {f : Fault}
    (h : (runFrom data ran p launches).outcome = .error f) :
    f = .noProgram ∧ ∃ i s, Reaches p launches i s ∧ s.command = [] := by
  induction p generalizing data ran launches with
  | nil => contradiction
  | cons t p ih =>
    by_cases ht : t.command = []
    · simp only [runFrom, ht] at h
      exact ⟨(Except.error.inj h).symm, 0, t, reaches_zero.mpr rfl, ht⟩
    · by_cases hfirst : (answer launches 0).status? = some 0
      · rw [outcome_runFrom_cons data ran ht hfirst] at h
        obtain ⟨hf, i, s, hreaches, hs⟩ := ih h
        exact ⟨hf, i + 1, s, reaches_succ.mpr ⟨ht, hfirst, hreaches⟩, hs⟩
      · rw [outcome_of_reaches_failed data ran (reaches_zero.mpr rfl) ht hfirst] at h
        contradiction

end

theorem run_eq_error_iff {p : Pipeline} {launches : List Launch} {f : Fault} :
    (p.run launches).outcome = .error f ↔
      f = .noProgram ∧ ∃ i s, Reaches p launches i s ∧ s.command = [] := by
  constructor
  · exact reaches_unnamed_of_error
  · rintro ⟨rfl, i, s, hreaches, hs⟩
    exact outcome_of_reaches_unnamed [] [] hreaches hs

theorem exists_reaches_unnamed {p : Pipeline} {s : Stage} (hs : s ∈ p) (hc : s.command = []) :
    ∃ i t, Reaches p [] i t ∧ t.command = [] := by
  induction p with
  | nil => contradiction
  | cons t p ih =>
    by_cases ht : t.command = []
    · exact ⟨0, t, reaches_zero.mpr rfl, ht⟩
    · rcases List.mem_cons.mp hs with rfl | hs
      · contradiction
      · obtain ⟨i, u, hreaches, hu⟩ := ih hs
        exact ⟨i + 1, u, reaches_succ.mpr ⟨ht, rfl, hreaches⟩, hu⟩

theorem returns_iff {p : Pipeline} :
    (∀ launches, ∃ result, (p.run launches).outcome = .ok result) ↔ ∀ s ∈ p, s.command ≠ [] := by
  constructor
  · -- The answers that all end well lead to the first stage without a program.
    intro h s hs hc
    obtain ⟨i, t, hreaches, ht⟩ := exists_reaches_unnamed hs hc
    obtain ⟨result, hresult⟩ := h []
    rw [run_eq_error_iff.mpr ⟨rfl, i, t, hreaches, ht⟩] at hresult
    contradiction
  · intro h launches
    obtain ⟨n, result, haccount⟩ := exists_account [] [] p launches h
    exact ⟨result, haccount.returned⟩

theorem named_ofOptions_iff {t : Tools} {darwin : Bool} {o : Options} {source : String} :
    (∀ s ∈ ofOptions t darwin o source, s.command ≠ []) ↔
      (o.showEncoding = true → t.encoder ≠ []) ∧ (o.shouldDemangle = true → t.demangler ≠ []) := by
  unfold ofOptions laterStages
  cases o.showEncoding <;> cases o.shouldDemangle <;> simp [compileStage]

end Pipeline

namespace Session

theorem execute_of_run_eq_ok {p : Pipeline} {s : Session} {result : Pipeline.Result}
    (h : (p.run s.launches).outcome = .ok result) : ∃ t, execute p s = .ok result t := by
  have hlift (u : Session) : lift (p.run s.launches).outcome u = .ok result u :=
    lift_eq_ok_iff.mpr ⟨h, rfl⟩
  have hnotes (rs : List Record) (u : Session) : ∃ v, notes rs u = .ok () v := by
    induction rs generalizing u with
    | nil => exact ⟨u, rfl⟩
    | cons r rs ih => exact ih _
  obtain ⟨u, hu⟩ := hnotes (p.run s.launches).log
    { s with
      launches := (p.run s.launches).launches
      events := s.events ++ (p.run s.launches).starts.map s.runEvent }
  refine ⟨u, ?_⟩
  change (do
    notes (p.run s.launches).log
    lift (p.run s.launches).outcome : Act Pipeline.Result) _ = .ok result u
  exact Desk.bind_eq_ok_iff.mpr ⟨(), u, hu, hlift u⟩

end Session

namespace Pipeline

theorem failed_launches (t : Tools) (darwin : Bool) (o : Options) (source : String) :
    let p := ofOptions t darwin o source
    ((∀ launches, ∃ result, (p.run launches).outcome = .ok result) ↔
        (o.showEncoding = true → t.encoder ≠ []) ∧ (o.shouldDemangle = true → t.demangler ≠ [])) ∧
      (∀ launches f, (p.run launches).outcome = .error f ↔
        f = .noProgram ∧ ∃ i s, Reaches p launches i s ∧ s.command = []) ∧
      (∀ launches i s reason, Reaches p launches i s → s.command ≠ [] →
        answer launches i = .refused reason →
        (p.run launches).outcome = .ok (.failed ((p.take (i + 1)).map (·.name))
          { kind := s.failure, stage := s.name, status := none })) ∧
      ∀ editor confirm (s : Session) result, (p.run s.launches).outcome = .ok result →
        result.success = false → ∀ n replies,
          (Session.desk t darwin editor confirm).Asks source o n replies s (replies.headD none) := by
  intro p
  refine ⟨returns_iff.trans named_ofOptions_iff, fun _ _ => run_eq_error_iff, ?_, ?_⟩
  · intro launches i s reason hreaches hs hrefused
    have hf : (answer launches i).status? ≠ some 0 := by simp [hrefused, Launch.status?]
    have houtcome := outcome_of_reaches_failed [] [] hreaches hs hf
    rw [hrefused, List.nil_append] at houtcome
    exact houtcome
  · intro editor confirm s result hresult hfailed n replies
    obtain ⟨u, hu⟩ := Session.execute_of_run_eq_ok hresult
    exact .now hu hfailed

def encodingEntries : Entries := [("show_encoding", .bool true)]

theorem failed_launches_encoder :
    ∃ o, Options.ofEntries "/work" encodingEntries = .ok o ∧
      let p := ofOptions .standard false o "a.cpp"
      let launches := [.ended 0 (some [10]), .refused "missing"]
      (p.run launches).outcome = .ok (.failed ["compile", "encode"]
        { kind := .encoding, stage := "encode", status := none }) ∧
      ∀ launches, ∃ result, (p.run launches).outcome = .ok result := by
  obtain ⟨o, ho, hshow, hdemangle⟩ : ∃ o, Options.ofEntries "/work" encodingEntries = .ok o ∧
      o.showEncoding = true ∧ o.shouldDemangle = true := ⟨_, rfl, rfl, rfl⟩
  obtain ⟨hreturns, -, hrefused, -⟩ := failed_launches .standard false o "a.cpp"
  refine ⟨o, ho, ?_, hreturns.mpr ⟨fun _ => by decide, fun _ => by decide⟩⟩
  have hlater : laterStages .standard o =
      [{ name := "encode", command := Tools.standard.encoder, readsInput := true, failure := .encoding },
        { name := "demangle", command := Tools.standard.demangler, readsInput := true,
          failure := .demangling }] := by
    rw [laterStages, if_pos hshow, if_pos hdemangle]
    rfl
  have hreaches : Reaches (ofOptions .standard false o "a.cpp")
      [.ended 0 (some [10]), .refused "missing"] 1
      { name := "encode", command := Tools.standard.encoder, readsInput := true,
        failure := .encoding } := by
    rw [ofOptions, hlater]
    exact reaches_succ.mpr ⟨by simp [compileStage], rfl, reaches_zero.mpr rfl⟩
  have houtcome := hrefused _ 1 _ "missing" hreaches (by decide) rfl
  rw [houtcome, ofOptions, hlater]
  rfl

def withoutEncoder : Value := .table [("encoder", .array [])]

theorem unnamed_encoder_ends_run :
    ∃ t o, (Tools.ofValue withoutEncoder).toExcept = .ok t ∧
      Options.ofEntries "/work" encodingEntries = .ok o ∧
      ∀ source, ((ofOptions t false o source).run []).outcome = .error .noProgram := by
  obtain ⟨o, ho, hshow⟩ : ∃ o, Options.ofEntries "/work" encodingEntries = .ok o ∧
      o.showEncoding = true := ⟨_, rfl, rfl⟩
  let encode : Stage := { name := "encode", command := [], readsInput := true, failure := .encoding }
  refine ⟨_, o, rfl, ho, fun source => run_eq_error_iff.mpr ⟨rfl, 1, encode, ?_, rfl⟩⟩
  rw [ofOptions, laterStages, if_pos hshow]
  exact reaches_succ.mpr ⟨by simp [compileStage], rfl, reaches_zero.mpr rfl⟩

end Pipeline

end AsmLens
