import AsmLens.Proofs.OptionsResolution
import AsmLens.Retry

namespace AsmLens.Desk

variable {σ : Type}

theorem bind_eq_ok_iff {α β : Type} {a : EStateM Fault σ α} {f : α → EStateM Fault σ β} {s t : σ}
    {b : β} :
    (a >>= f) s = .ok b t ↔ ∃ x u, a s = .ok x u ∧ f x u = .ok b t := by
  constructor
  · intro h
    simp only [bind, EStateM.bind] at h
    cases ha : a s with
    | ok x u =>
      rw [ha] at h
      exact ⟨x, u, rfl, h⟩
    | error e u =>
      rw [ha] at h
      contradiction
  · rintro ⟨x, u, ha, hf⟩
    simp only [bind, EStateM.bind, ha, hf]

theorem pure_eq_ok_iff {α : Type} {a b : α} {s t : σ} :
    (pure a : EStateM Fault σ α) s = .ok b t ↔ b = a ∧ t = s := by
  constructor
  · intro h
    cases h
    exact ⟨rfl, rfl⟩
  · rintro ⟨rfl, rfl⟩
    rfl

inductive Returns (d : Desk σ) (path : String) (o : Options) :
    Nat → List (Option String) → σ → Outcome → σ → Prop where
  | succeeded {n replies s t r} (ha : d.attempt path o s = .ok r t) (hr : r.success = true) :
      Returns d path o n replies s
        { phase := .succeeded, output := some r.output, attempts := n } t
  | declined {n replies s t u v r} (ha : d.attempt path o s = .ok r t)
      (hr : r.success = false) (hc : d.confirm (replies.headD none) t = .ok false u)
      (hn : d.note (attemptNote n r.failure? "retry declined") u = .ok () v) :
      Returns d path o n replies s { phase := .aborted, output := none, attempts := n } v
  | again {n reply rest s t u v w x r outcome} (ha : d.attempt path o s = .ok r t)
      (hr : r.success = false) (hc : d.confirm reply t = .ok true u)
      (hn : d.note (attemptNote n r.failure? "returning to editor") u = .ok () v)
      (he : d.edit path v = .ok () w) (h : Returns d path o (n + 1) rest w outcome x) :
      Returns d path o n (reply :: rest) s outcome x

theorem returns_of_rounds {d : Desk σ} {path : String} {o : Options} {n : Nat} {s t : σ}
    {outcome : Outcome} (replies : List (Option String))
    (h : d.rounds path o n replies s = .ok outcome t) :
    Returns d path o n replies s outcome t := by
  unfold rounds at h
  obtain ⟨r, u, ha, h⟩ := bind_eq_ok_iff.mp h
  cases hr : r.success with
  | true =>
    rw [if_pos hr] at h
    obtain ⟨rfl, rfl⟩ := pure_eq_ok_iff.mp h
    exact .succeeded ha hr
  | false =>
    rw [if_neg (by rw [hr]; decide)] at h
    obtain ⟨yes, v, hc, h⟩ := bind_eq_ok_iff.mp h
    cases yes with
    | true =>
      cases replies with
      | nil => contradiction
      | cons reply rest =>
        -- Each round but the last takes a reply, so the replies bound the recursion.
        obtain ⟨⟨⟩, w, hn, h⟩ := bind_eq_ok_iff.mp h
        obtain ⟨⟨⟩, x, he, h⟩ := bind_eq_ok_iff.mp h
        exact .again ha hr hc hn he (returns_of_rounds rest h)
    | false =>
      obtain ⟨⟨⟩, w, hn, h⟩ := bind_eq_ok_iff.mp h
      obtain ⟨rfl, rfl⟩ := pure_eq_ok_iff.mp h
      exact .declined ha hr hc hn

theorem rounds_of_returns {d : Desk σ} {path : String} {o : Options} {n : Nat}
    {replies : List (Option String)} {s t : σ} {outcome : Outcome}
    (h : Returns d path o n replies s outcome t) :
    d.rounds path o n replies s = .ok outcome t := by
  induction h with
  | succeeded ha hr =>
    unfold rounds
    refine bind_eq_ok_iff.mpr ⟨_, _, ha, ?_⟩
    rw [if_pos hr]
    rfl
  | declined ha hr hc hn =>
    unfold rounds
    refine bind_eq_ok_iff.mpr ⟨_, _, ha, ?_⟩
    rw [if_neg (by rw [hr]; decide)]
    refine bind_eq_ok_iff.mpr ⟨_, _, hc, ?_⟩
    exact bind_eq_ok_iff.mpr ⟨_, _, hn, rfl⟩
  | again ha hr hc hn he h ih =>
    unfold rounds
    refine bind_eq_ok_iff.mpr ⟨_, _, ha, ?_⟩
    rw [if_neg (by rw [hr]; decide)]
    refine bind_eq_ok_iff.mpr ⟨_, _, hc, ?_⟩
    refine bind_eq_ok_iff.mpr ⟨_, _, hn, ?_⟩
    exact bind_eq_ok_iff.mpr ⟨_, _, he, ih⟩

inductive Call where
  | edit (path : String)
  | attempt (path : String) (options : Options) (result : Pipeline.Result)
  | confirm (yes : Bool)

namespace Call

def isEdit : Call → Bool
  | .edit _ => true
  | _ => false

def isAttempt : Call → Bool
  | .attempt _ _ _ => true
  | _ => false

def isConfirm : Call → Bool
  | .confirm _ => true
  | _ => false

def isFailure : Call → Bool
  | .attempt _ _ r => !r.success
  | _ => false

def isFinal : Call → Bool
  | .attempt _ _ r => r.success
  | .confirm yes => !yes
  | .edit _ => false

def Concerns (path : String) (o : Options) : Call → Prop
  | .edit p => p = path
  | .attempt p q _ => p = path ∧ q = o
  | .confirm _ => True

end Call

/-- The calls from the `n`-th attempt on, and the outcome that they lead to. -/
inductive Rounds (path : String) (o : Options) : Nat → List Call → Outcome → Prop where
  | succeeded {n r} (hr : r.success = true) :
      Rounds path o n [.attempt path o r]
        { phase := .succeeded, output := some r.output, attempts := n }
  | declined {n r} (hr : r.success = false) :
      Rounds path o n [.attempt path o r, .confirm false]
        { phase := .aborted, output := none, attempts := n }
  | again {n r calls outcome} (hr : r.success = false) (h : Rounds path o (n + 1) calls outcome) :
      Rounds path o n (.attempt path o r :: .confirm true :: .edit path :: calls) outcome

def kept {α : Type} (calls : α → List Call) (a : EStateM Fault σ α) :
    EStateM Fault (σ × List Call) α := fun s =>
  match a s.1 with
  | .ok x t => .ok x (t, s.2 ++ calls x)
  | .error f t => .error f (t, s.2)

def traced (d : Desk σ) : Desk (σ × List Call) :=
  { edit := fun path => kept (fun _ => [.edit path]) (d.edit path)
    attempt := fun path o => kept (fun r => [.attempt path o r]) (d.attempt path o)
    confirm := fun reply => kept (fun yes => [.confirm yes]) (d.confirm reply)
    note := fun r => kept (fun _ => []) (d.note r) }

theorem kept_eq_ok {α : Type} {a : EStateM Fault σ α} {s t : σ} {x : α} (calls : α → List Call)
    (before : List Call) (h : a s = .ok x t) :
    kept calls a (s, before) = .ok x (t, before ++ calls x) := by
  simp only [kept, h]

theorem Returns.traced {d : Desk σ} {path : String} {o : Options} {n : Nat}
    {replies : List (Option String)} {s t : σ} {outcome : Outcome}
    (h : Returns d path o n replies s outcome t) :
    ∃ calls, Rounds path o n calls outcome ∧
      ∀ before, Returns d.traced path o n replies (s, before) outcome (t, before ++ calls) := by
  induction h with
  | @succeeded n replies s t r ha hr =>
    exact ⟨_, .succeeded hr, fun before => .succeeded (kept_eq_ok _ before ha) hr⟩
  | @declined n replies s t u v r ha hr hc hn =>
    refine ⟨_, .declined hr, fun before => ?_⟩
    -- Each action adds its own calls at the end, and a note adds none.
    have hb : before ++ [.attempt path o r, .confirm false] =
        before ++ [.attempt path o r] ++ [.confirm false] ++ [] := by simp
    rw [hb]
    exact .declined (kept_eq_ok _ before ha) hr (kept_eq_ok _ _ hc) (kept_eq_ok _ _ hn)
  | @again n reply rest s t u v w x r outcome ha hr hc hn he h ih =>
    obtain ⟨calls, hcalls, ih⟩ := ih
    refine ⟨_, .again hr hcalls, fun before => ?_⟩
    have hb : before ++ .attempt path o r :: .confirm true :: .edit path :: calls =
        before ++ [.attempt path o r] ++ [.confirm true] ++ [] ++ [.edit path] ++ calls := by simp
    rw [hb]
    exact .again (kept_eq_ok _ before ha) hr (kept_eq_ok _ _ hc) (kept_eq_ok _ _ hn)
      (kept_eq_ok _ _ he) (ih _)

section

variable {path : String} {o : Options} {n : Nat} {calls : List Call} {outcome : Outcome}

theorem Rounds.ne_nil (h : Rounds path o n calls outcome) : calls ≠ [] := by
  cases h <;> simp

theorem Rounds.attempts (h : Rounds path o n calls outcome) :
    outcome.attempts + 1 = n + calls.countP Call.isAttempt := by
  induction h with
  | succeeded hr => simp [Call.isAttempt]
  | declined hr => rfl
  | again hr h ih =>
    simp only [List.countP_cons, Call.isAttempt]
    rw [ih]
    simp only [Bool.false_eq_true, ↓reduceIte]
    omega

theorem Rounds.edits (h : Rounds path o n calls outcome) :
    calls.countP Call.isEdit + 1 = calls.countP Call.isAttempt := by
  induction h with
  | succeeded hr => simp [Call.isEdit, Call.isAttempt]
  | declined hr => rfl
  | again hr h ih => simpa [List.countP_cons, Call.isEdit, Call.isAttempt] using ih

theorem Rounds.confirms (h : Rounds path o n calls outcome) :
    calls.countP Call.isConfirm = calls.countP Call.isFailure := by
  induction h with
  | succeeded hr => simp [Call.isConfirm, Call.isFailure, hr]
  | declined hr => simp [Call.isConfirm, Call.isFailure, hr]
  | again hr h ih => simpa [List.countP_cons, Call.isConfirm, Call.isFailure, hr] using ih

theorem Rounds.concerns (h : Rounds path o n calls outcome) :
    ∀ call ∈ calls, call.Concerns path o := by
  induction h with
  | succeeded hr => simp [Call.Concerns]
  | declined hr => simp [Call.Concerns]
  | again hr h ih => simpa [Call.Concerns] using ih

theorem Rounds.dropLast (h : Rounds path o n calls outcome) :
    ∀ call ∈ calls.dropLast, call.isFinal = false := by
  induction h with
  | succeeded hr => simp
  | declined hr => simp [Call.isFinal, hr]
  | again hr h ih =>
    rw [List.dropLast_cons_of_ne_nil (by simp), List.dropLast_cons_of_ne_nil (by simp),
      List.dropLast_cons_of_ne_nil h.ne_nil]
    simpa [Call.isFinal, hr] using ih

theorem Rounds.getLast? (h : Rounds path o n calls outcome) :
    (outcome.phase = .succeeded ∧ ∃ r, calls.getLast? = some (.attempt path o r) ∧
      r.success = true ∧ outcome.output = some r.output) ∨
    outcome.phase = .aborted ∧ outcome.output = none ∧ calls.getLast? = some (.confirm false) := by
  induction h with
  | succeeded hr => exact .inl ⟨rfl, _, rfl, hr, rfl⟩
  | declined hr => exact .inr ⟨rfl, rfl, rfl⟩
  | @again n r calls outcome hr h ih =>
    obtain ⟨call, rest, rfl⟩ := List.exists_cons_of_ne_nil h.ne_nil
    simpa only [List.getLast?_cons_cons] using ih

end

def opening (path : String) (startEditing : Bool) : List Call :=
  if startEditing then [.edit path] else []

theorem mem_opening {path : String} {startEditing : Bool} {call : Call}
    (h : call ∈ opening path startEditing) : call = .edit path := by
  unfold opening at h
  split at h
  · exact List.mem_singleton.mp h
  · contradiction

theorem countP_opening (path : String) (startEditing : Bool) (p : Call → Bool) :
    (opening path startEditing).countP p = if startEditing && p (.edit path) then 1 else 0 := by
  cases startEditing <;> simp [opening, List.countP_cons]

theorem run_traced {d : Desk σ} {path : String} {o : Options} {startEditing : Bool}
    {replies : List (Option String)} {s t : σ} {outcome : Outcome}
    (h : d.run path o startEditing replies s = .ok outcome t) :
    ∃ rounds, Rounds path o 1 rounds outcome ∧
      d.traced.run path o startEditing replies (s, []) =
        .ok outcome (t, opening path startEditing ++ rounds) := by
  unfold run at h
  cases startEditing with
  | false =>
    obtain ⟨rounds, hrounds, htraced⟩ := (returns_of_rounds replies h).traced
    exact ⟨rounds, hrounds, rounds_of_returns (htraced [])⟩
  | true =>
    obtain ⟨⟨⟩, u, he, h⟩ := bind_eq_ok_iff.mp h
    obtain ⟨rounds, hrounds, htraced⟩ := (returns_of_rounds replies h).traced
    refine ⟨rounds, hrounds, bind_eq_ok_iff.mpr ⟨(), _, kept_eq_ok _ [] he, ?_⟩⟩
    exact rounds_of_returns (htraced _)

theorem run_trace (d : Desk σ) (path : String) (o : Options) (startEditing : Bool)
    (replies : List (Option String)) (s t : σ) (outcome : Outcome)
    (h : d.run path o startEditing replies s = .ok outcome t) :
    ∃ calls, d.traced.run path o startEditing replies (s, []) = .ok outcome (t, calls) ∧
      (∃ rounds, calls = opening path startEditing ++ rounds ∧ Rounds path o 1 rounds outcome) ∧
      outcome.attempts = calls.countP Call.isAttempt ∧
      calls.countP Call.isEdit = (if startEditing then outcome.attempts else outcome.attempts - 1) ∧
      calls.countP Call.isConfirm = calls.countP Call.isFailure ∧
      (∀ call ∈ calls, call.Concerns path o) ∧
      (∀ call ∈ calls.dropLast, call.isFinal = false) ∧
      ((outcome.phase = .succeeded ∧ ∃ r, calls.getLast? = some (.attempt path o r) ∧
          r.success = true ∧ outcome.output = some r.output ∧ outcome.unwrap = .ok r.output) ∨
        (outcome.phase = .aborted ∧ outcome.output = none ∧
          calls.getLast? = some (.confirm false) ∧ outcome.unwrap = .error .declined)) := by
  obtain ⟨rounds, hrounds, hrun⟩ := run_traced h
  have hattempts := hrounds.attempts
  refine ⟨_, hrun, ⟨rounds, rfl, hrounds⟩, ?_, ?_, ?_, ?_, ?_, ?_⟩
  · rw [List.countP_append, countP_opening]
    simp only [Call.isAttempt, Bool.and_false, Bool.false_eq_true, ↓reduceIte]
    omega
  · have hedits := hrounds.edits
    rw [List.countP_append, countP_opening]
    simp only [Call.isEdit, Bool.and_true]
    split <;> omega
  · rw [List.countP_append, List.countP_append, countP_opening, countP_opening, hrounds.confirms]
    rfl
  · intro call hcall
    rcases List.mem_append.mp hcall with hopen | hround
    · rw [mem_opening hopen]
      rfl
    · exact hrounds.concerns call hround
  · intro call hcall
    rw [List.dropLast_append_of_ne_nil hrounds.ne_nil] at hcall
    rcases List.mem_append.mp hcall with hopen | hround
    · rw [mem_opening hopen]
      rfl
    · exact hrounds.dropLast call hround
  · rw [List.getLast?_append]
    rcases hrounds.getLast? with ⟨hp, r, hl, hr, ho⟩ | ⟨hp, ho, hl⟩
    · exact .inl ⟨hp, r, by rw [hl, Option.some_or], hr, ho, by rw [Outcome.unwrap, hp, ho]⟩
    · exact .inr ⟨hp, ho, by rw [hl, Option.some_or], by rw [Outcome.unwrap, hp, ho]⟩

def scripted : Desk (List Pipeline.Result) :=
  { edit := fun _ => pure ()
    attempt := fun _ _ results =>
      match results with
      | [] => .error .inputClosed []
      | r :: rest => .ok r rest
    confirm := fun reply => pure (reply == some "y")
    note := fun _ => pure () }

def twoResults : List Pipeline.Result :=
  [.failed ["compile"] { kind := .compiling, stage := "compile", status := some 1 },
    .completed ["compile", "demangle"] [10]]

theorem run_trace_second_attempt :
    ∃ outcome calls,
      scripted.run "a.cpp" (.unasked "/work") true [some "y"] twoResults = .ok outcome [] ∧
        scripted.traced.run "a.cpp" (.unasked "/work") true [some "y"] (twoResults, []) =
          .ok outcome ([], calls) ∧
        calls.countP Call.isAttempt = 2 ∧ calls.countP Call.isEdit = 2 ∧
        outcome.phase = .succeeded ∧ outcome.output = some [10] := by
  let outcome : Outcome := { phase := .succeeded, output := some [10], attempts := 2 }
  obtain ⟨calls, hrun, -, hattempts, hedits, -⟩ :=
    run_trace scripted "a.cpp" (.unasked "/work") true [some "y"] twoResults [] outcome rfl
  exact ⟨outcome, calls, rfl, hrun, hattempts.symm, hedits, rfl, rfl⟩

end AsmLens.Desk
