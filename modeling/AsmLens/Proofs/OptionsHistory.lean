import AsmLens.Options.Change
import AsmLens.Proofs.FlagSequence

namespace AsmLens.Options

def latest (start : Option Options) (results : List (Except Fault Options)) : Option Options :=
  results.foldl (fun current r => r.toOption.or current) start

def current (dir : String) (cs : List Change) : Option Options :=
  latest none (history dir none cs)

theorem mem_of_latest {start : Option Options} {results : List (Except Fault Options)} {o : Options}
    (h : latest start results = some o) : start = some o ∨ .ok o ∈ results := by
  induction results generalizing start with
  | nil => exact .inl h
  | cons r results ih =>
    rcases ih h with hr | hr
    · cases r with
      | ok p =>
        cases hr
        exact .inr List.mem_cons_self
      | error f => exact .inl hr
    · exact .inr (List.mem_cons_of_mem r hr)

theorem history_cons (dir : String) (start : Option Options) (c : Change) (cs : List Change) :
    history dir start (c :: cs) =
      c.apply dir start :: history dir ((c.apply dir start).toOption.or start) cs := by
  rw [history]
  cases c.apply dir start with
  | ok o => rfl
  | error f => rfl

theorem history_append (dir : String) (start : Option Options) (cs ds : List Change) :
    history dir start (cs ++ ds) =
      history dir start cs ++ history dir (latest start (history dir start cs)) ds := by
  induction cs generalizing start with
  | nil => rfl
  | cons c cs ih =>
    rw [List.cons_append, history_cons, history_cons, ih]
    rfl

theorem current_concat (dir : String) (cs : List Change) (c : Change) :
    current dir (cs ++ [c]) = (c.apply dir (current dir cs)).toOption.or (current dir cs) := by
  rw [current, history_append, history_cons, latest, List.foldl_append]
  rfl

theorem mapError_eq_ok {ε ε' α : Type} {f : ε → ε'} {x : Except ε α} {a : α}
    (h : x.mapError f = .ok a) : x = .ok a := by
  cases x with
  | ok b =>
    cases h
    rfl
  | error e => contradiction

theorem Change.apply_cases {dir : String} {start : Option Options} {c : Change} {o : Options}
    (h : c.apply dir start = .ok o) : Resolved o ∨ start = some o := by
  cases c with
  | create data => exact .inl ⟨dir, data, mapError_eq_ok h⟩
  | update changes =>
    cases start with
    | none => contradiction
    | some p => exact .inl (resolved_of_update (mapError_eq_ok h))
  | assign name v =>
    cases start with
    | none => contradiction
    | some p =>
      have ha := mapError_eq_ok h
      unfold Options.assign at ha
      split at ha
      · cases ha
        exact .inr rfl
      · contradiction

theorem resolved_of_mem_history {dir : String} {start : Option Options} {cs : List Change}
    (hstart : ∀ o, start = some o → Resolved o) :
    ∀ o, .ok o ∈ history dir start cs → Resolved o := by
  induction cs generalizing start with
  | nil =>
    intro o ho
    contradiction
  | cons c cs ih =>
    have hnext : ∀ o, c.apply dir start = .ok o → Resolved o := by
      intro o ho
      rcases Change.apply_cases ho with h | h
      · exact h
      · exact hstart o h
    intro o ho
    rw [history_cons] at ho
    rcases List.mem_cons.mp ho with ho | ho
    · exact hnext o ho.symm
    · -- The rest of the chain starts from what this step gave, or else from what was there before.
      apply ih _ o ho
      intro p hp
      rcases Option.or_eq_some_iff.mp hp with hp | ⟨-, hp⟩
      · cases hc : c.apply dir start with
        | ok q =>
          rw [hc] at hp
          cases hp
          exact hnext p hc
        | error f =>
          rw [hc] at hp
          contradiction
      · exact hstart p hp

theorem Change.apply_assign_public (dir : String) (start : Option Options) {name : String}
    (v : Value) (h : isPrivate name = false) :
    ∃ f, (Change.assign name v).apply dir start = .error f := by
  cases start with
  | none => exact ⟨_, rfl⟩
  | some o =>
    refine ⟨Fault.ofRefusal (.invalid [{ path := [.field name], cause := .readOnly }]), ?_⟩
    rw [apply, Options.assign, h]
    rfl

theorem Change.apply_assign_private (dir : String) (o : Options) {name : String}
    (v : Value) (h : isPrivate name = true) :
    (Change.assign name v).apply dir (some o) = .ok o := by
  rw [apply, Options.assign, h]
  rfl

theorem textsOf_warning_flags (darwin : Bool) (o : Options) :
    Flag.textsOf .warning (o.flags darwin) =
      (Text.inked o.warnings).map fun w => "-W" ++ String.ofList (Flag.warningStem w) := by
  rw [flags, allFlags_eq_inOrder, Flag.present_inOrder, Flag.textsOf_inOrder]
  exact Text.inked_map Flag.toWarning_of_blank Flag.toWarning_of_ink o.warnings

theorem isPrivate_of_mem_toEntries (o : Options) : ∀ e ∈ o.toEntries, isPrivate e.1 = false := by
  intro e he
  have hnames : ∀ name ∈ o.toEntries.map (·.1), isPrivate name = false := by
    simp only [toEntries, List.map_cons, List.map_nil]
    decide
  exact hnames e.1 (List.mem_map_of_mem he)

theorem Settled.nodup_warning_flags {o : Options} (h : Settled o) (darwin : Bool) :
    (Flag.textsOf .warning (o.flags darwin)).Nodup := by
  have hstems : o.warnings.Pairwise fun v w => Flag.warningStem v ≠ Flag.warningStem w :=
    List.pairwise_map.mp h.warnings
  rw [textsOf_warning_flags]
  apply List.pairwise_map.mpr
  apply (hstems.sublist List.filter_sublist).imp
  intro v w hne heq
  apply hne
  rwa [String.append_right_inj, String.ofList_inj] at heq

theorem history_settled (dir : String) (cs : List Change) :
    (∀ o, .ok o ∈ history dir none cs →
      Settled o ∧ ∀ darwin, (Flag.textsOf .warning (o.flags darwin)).Nodup) ∧
    (∀ o, current dir cs = some o → .ok o ∈ history dir none cs) ∧
    (∀ c f ds, c.apply dir (current dir cs) = .error f →
      current dir (cs ++ [c]) = current dir cs ∧
      history dir none (cs ++ c :: ds) =
        history dir none cs ++ .error f :: history dir (current dir cs) ds) ∧
    (∀ name v, isPrivate name = false →
      ∃ f, (Change.assign name v).apply dir (current dir cs) = .error f) ∧
    (∀ o : Options, ∀ e ∈ o.toEntries, isPrivate e.1 = false) ∧
    (∀ name v, isPrivate name = true →
      current dir (cs ++ [.assign name v]) = current dir cs) := by
  refine ⟨?_, ?_, ?_, ?_, isPrivate_of_mem_toEntries, ?_⟩
  · intro o ho
    have hsettled := (resolved_of_mem_history (by simp) o ho).settled
    exact ⟨hsettled, hsettled.nodup_warning_flags⟩
  · intro o ho
    exact (mem_of_latest ho).resolve_left (by simp)
  · intro c f ds hc
    constructor
    · rw [current_concat, hc]
      rfl
    · rw [history_append, history_cons]
      change _ ++ c.apply dir (current dir cs) ::
        history dir ((c.apply dir (current dir cs)).toOption.or (current dir cs)) ds = _
      rw [hc]
      rfl
  · intro name v hname
    exact Change.apply_assign_public dir (current dir cs) v hname
  · intro name v hname
    rw [current_concat]
    cases current dir cs with
    | none => rfl
    | some o =>
      rw [Change.apply_assign_private dir o v hname]
      rfl

theorem assign_private_goes_through :
    ¬∀ (dir : String) (cs : List Change) (name : String) (v : Value),
      ∃ f, (Change.assign name v).apply dir (current dir cs) = .error f := by
  intro h
  obtain ⟨f, hf⟩ := h "/work" [.create (.table [])] "_x" (.int 1)
  contradiction

end AsmLens.Options
