import AsmLens.Pipeline.Execution

namespace AsmLens

namespace Launch

def status? : Launch → Option Int
  | .ended status _ => some status
  | .refused _ => none

def printed : Launch → Bytes
  | .ended _ printed => printed.getD []
  | .refused _ => []

end Launch

namespace Pipeline

def answer (launches : List Launch) (i : Nat) : Launch := launches.getD i .silent

def carried (data : Bytes) (launches : List Launch) : Nat → Bytes
  | 0 => data
  | i + 1 => (answer launches i).printed

def startAt (data : Bytes) (launches : List Launch) (i : Nat) (s : Stage) : Start :=
  { command := s.command, input := if s.readsInput then some (carried data launches i) else none }

def failureOf (s : Stage) (a : Launch) : Failure :=
  { kind := s.failure, stage := s.name, status := a.status? }

/-- A run of `p` that started its first `n` stages and came to a result. `data` is what the first
of them may read, `ran` are the stages before it. -/
structure Account (data : Bytes) (ran : List String) (p : Pipeline) (launches : List Launch)
    (n : Nat) (r : Run) (result : Result) : Prop where
  bound : n ≤ p.length
  returned : r.outcome = .ok result
  starts : r.starts = (p.take n).mapIdx (startAt data launches)
  used : r.launches = launches.drop n
  names : result.ran = ran ++ (p.take n).map (·.name)
  passed : ∀ i, i + 1 < n → (answer launches i).status? = some 0
  ending :
    (n = p.length ∧ (∀ i < n, (answer launches i).status? = some 0) ∧
      result = .completed result.ran (carried data launches n)) ∨
    ∃ i s, n = i + 1 ∧ p[i]? = some s ∧ (answer launches i).status? ≠ some 0 ∧
      result = .failed result.ran (failureOf s (answer launches i))

theorem answer_zero (launches : List Launch) : answer launches 0 = launches.headD .silent := by
  cases launches <;> rfl

theorem answer_tail (launches : List Launch) (i : Nat) :
    answer launches.tail i = answer launches (i + 1) := by
  cases launches <;> simp [answer]

theorem carried_tail (data : Bytes) (launches : List Launch) (i : Nat) :
    carried (answer launches 0).printed launches.tail i = carried data launches (i + 1) := by
  cases i with
  | zero => rfl
  | succ i => simp only [carried, answer_tail]

theorem startAt_tail (data : Bytes) (launches : List Launch) (i : Nat) (s : Stage) :
    startAt (answer launches 0).printed launches.tail i s = startAt data launches (i + 1) s := by
  simp only [startAt, carried_tail data]

theorem account_nil (data : Bytes) (ran : List String) (launches : List Launch) :
    Account data ran [] launches 0 (runFrom data ran [] launches) (.completed ran data) where
  bound := Nat.le_refl 0
  returned := rfl
  starts := rfl
  used := rfl
  names := (List.append_nil ran).symm
  passed := by simp
  ending := .inl ⟨rfl, by simp, rfl⟩

theorem Account.cons {data : Bytes} {ran : List String} {s : Stage} {p : Pipeline}
    {launches : List Launch} {n : Nat} {r : Run} {result : Result} (log : List Record)
    (hs : (answer launches 0).status? = some 0)
    (h : Account (answer launches 0).printed (ran ++ [s.name]) p launches.tail n r result) :
    Account data ran (s :: p) launches (n + 1)
      (r.after [startAt data launches 0 s] log) result where
  bound := Nat.succ_le_succ h.bound
  returned := h.returned
  starts := by
    simp only [Run.after, h.starts, List.take_succ_cons, List.mapIdx_cons, List.singleton_append]
    congr 2
    funext i t
    exact startAt_tail data launches i t
  used := by
    rw [Run.after, h.used, List.drop_tail]
  names := by
    rw [h.names, List.take_succ_cons, List.map_cons, List.append_assoc, List.singleton_append]
  passed := by
    intro i hi
    cases i with
    | zero => exact hs
    | succ i =>
      rw [← answer_tail]
      exact h.passed i (by omega)
  ending := by
    rcases h.ending with ⟨hn, hall, he⟩ | ⟨i, t, hn, ht, hf, he⟩
    · refine .inl ⟨by rw [hn, List.length_cons], ?_, by rwa [carried_tail data] at he⟩
      intro i hi
      cases i with
      | zero => exact hs
      | succ i =>
        rw [← answer_tail]
        exact hall i (by omega)
    · refine .inr ⟨i + 1, t, by rw [hn], by rw [List.getElem?_cons_succ, ht], ?_, ?_⟩
      · rwa [← answer_tail]
      · rwa [answer_tail] at he

theorem account_stop (data : Bytes) (ran : List String) (s : Stage) (p : Pipeline)
    (launches : List Launch) (log : List Record) (hs : (answer launches 0).status? ≠ some 0) :
    Account data ran (s :: p) launches 1
      { outcome := .ok (.failed (ran ++ [s.name]) (failureOf s (answer launches 0)))
        starts := [startAt data launches 0 s], log, launches := launches.tail }
      (.failed (ran ++ [s.name]) (failureOf s (answer launches 0))) where
  bound := by simp
  returned := rfl
  starts := rfl
  used := by rw [List.drop_one]
  names := rfl
  passed := by omega
  ending := .inr ⟨0, s, rfl, rfl, hs, rfl⟩

theorem runFrom_cons (data : Bytes) (ran : List String) (s : Stage) (p : Pipeline)
    (launches : List Launch) (hc : s.command ≠ []) :
    ∃ log, runFrom data ran (s :: p) launches =
      if (answer launches 0).status? = some 0 then
        (runFrom (answer launches 0).printed (ran ++ [s.name]) p launches.tail).after
          [startAt data launches 0 s] log
      else
        { outcome := .ok (.failed (ran ++ [s.name]) (failureOf s (answer launches 0)))
          starts := [startAt data launches 0 s], log, launches := launches.tail } := by
  obtain ⟨program, arguments, hcommand⟩ := List.exists_cons_of_ne_nil hc
  cases ha : answer launches 0 with
  | refused reason =>
    refine ⟨[announce s, refusal s program reason], ?_⟩
    rw [answer_zero] at ha
    rw [if_neg (by simp [Launch.status?])]
    simp only [runFrom, startAt, carried, hcommand, ha]
    rfl
  | ended status printed =>
    rw [answer_zero] at ha
    by_cases hz : status = 0
    · refine ⟨[announce s], ?_⟩
      rw [if_pos (by rw [hz]; rfl)]
      simp only [runFrom, startAt, carried, hcommand, ha, if_pos hz]
      rfl
    · refine ⟨[announce s, exitNote s status], ?_⟩
      rw [if_neg (by simp [Launch.status?, hz])]
      simp only [runFrom, startAt, carried, hcommand, ha, if_neg hz]
      rfl

theorem exists_account (data : Bytes) (ran : List String) (p : Pipeline) (launches : List Launch)
    (hp : ∀ s ∈ p, s.command ≠ []) :
    ∃ n result, Account data ran p launches n (runFrom data ran p launches) result := by
  induction p generalizing data ran launches with
  | nil => exact ⟨0, _, account_nil data ran launches⟩
  | cons s p ih =>
    obtain ⟨log, hrun⟩ := runFrom_cons data ran s p launches (hp s (by simp))
    rw [hrun]
    by_cases hs : (answer launches 0).status? = some 0
    · -- What this stage printed is what the first of the rest may read.
      obtain ⟨n, result, h⟩ := ih (answer launches 0).printed (ran ++ [s.name]) launches.tail
        (fun t ht => hp t (List.mem_cons_of_mem s ht))
      rw [if_pos hs]
      exact ⟨n + 1, result, h.cons log hs⟩
    · rw [if_neg hs]
      exact ⟨1, _, account_stop data ran s p launches log hs⟩

section

variable {data : Bytes} {ran : List String} {p : Pipeline} {launches : List Launch} {n : Nat}
  {r : Run} {result : Result}

theorem Account.success_iff (h : Account data ran p launches n r result) :
    result.success = true ↔ ∀ i < p.length, (answer launches i).status? = some 0 := by
  rcases h.ending with ⟨hn, hall, he⟩ | ⟨i, s, hn, hs, hf, he⟩
  · rw [hn] at hall
    rw [he]
    exact ⟨fun _ => hall, fun _ => rfl⟩
  · have hi : i < p.length := (List.getElem?_eq_some_iff.mp hs).1
    rw [he]
    exact ⟨fun h => by contradiction, fun hall => absurd (hall i hi) hf⟩

theorem Account.success_iff_failure? (h : Account data ran p launches n r result) :
    result.success = true ↔ result.failure? = none := by
  rcases h.ending with ⟨-, -, he⟩ | ⟨i, s, -, -, -, he⟩
  · rw [he]
    exact ⟨fun _ => rfl, fun _ => rfl⟩
  · rw [he]
    exact ⟨fun h => by contradiction, fun h => by contradiction⟩

theorem Account.of_success (h : Account data ran p launches n r result)
    (hr : result.success = true) :
    n = p.length ∧ result.output = carried data launches n ∧ result.unwrap = .ok result.output := by
  rcases h.ending with ⟨hn, -, he⟩ | ⟨i, s, -, -, -, he⟩
  · rw [he]
    exact ⟨hn, rfl, rfl⟩
  · rw [he] at hr
    contradiction

theorem Account.of_failure (h : Account data ran p launches n r result)
    (hr : result.success = false) :
    result.output = [] ∧
      ∃ i s, n = i + 1 ∧ p[i]? = some s ∧ result.ran.getLast? = some s.name ∧
        (answer launches i).status? ≠ some 0 ∧
        result.failure? = some (failureOf s (answer launches i)) ∧
        result.unwrap = .error (.failed (failureOf s (answer launches i))) := by
  rcases h.ending with ⟨-, -, he⟩ | ⟨i, s, hn, hs, hf, he⟩
  · rw [he] at hr
    contradiction
  · have hlast : result.ran.getLast? = some s.name := by
      rw [h.names, hn, List.take_add_one, hs]
      simp
    refine ⟨by rw [he]; rfl, i, s, hn, hs, hlast, hf, ?_, ?_⟩
    · rw [he]
      rfl
    · rw [he]
      rfl

end

theorem run_account (p : Pipeline) (launches : List Launch) (hp : ∀ s ∈ p, s.command ≠ []) :
    ∃ n result, (p.run launches).outcome = .ok result ∧ n ≤ p.length ∧
      result.ran = (p.take n).map (·.name) ∧
      (p.run launches).starts = (p.take n).mapIdx (startAt [] launches) ∧
      (p.run launches).launches = launches.drop n ∧
      (∀ i, i + 1 < n → (answer launches i).status? = some 0) ∧
      (result.success = true ↔ ∀ i < p.length, (answer launches i).status? = some 0) ∧
      (result.success = true ↔ result.failure? = none) ∧
      (result.success = true → n = p.length ∧ result.output = carried [] launches n ∧
        result.unwrap = .ok result.output) ∧
      (result.success = false → result.output = [] ∧
        ∃ i s, n = i + 1 ∧ p[i]? = some s ∧ result.ran.getLast? = some s.name ∧
          (answer launches i).status? ≠ some 0 ∧
          result.failure? = some (failureOf s (answer launches i)) ∧
          result.unwrap = .error (.failed (failureOf s (answer launches i)))) := by
  obtain ⟨n, result, h⟩ := exists_account [] [] p launches hp
  have hnames : result.ran = (p.take n).map (·.name) := by rw [h.names, List.nil_append]
  exact ⟨n, result, h.returned, h.bound, hnames, h.starts, h.used, h.passed, h.success_iff,
    h.success_iff_failure?, h.of_success, h.of_failure⟩

def threeStages : Pipeline :=
  [compileStage ["cc", "-S", "a.c", "-o", "-"],
    { name := "encode", command := ["as"], readsInput := true, failure := .encoding },
    { name := "demangle", command := ["c++filt"], readsInput := true, failure := .demangling }]

theorem run_account_refused :
    (∀ s ∈ threeStages, s.command ≠ []) ∧
      ∃ n result, (threeStages.run [.ended 0 (some [10]), .refused "missing"]).outcome = .ok result ∧
        result.ran = (threeStages.take n).map (·.name) ∧ result.ran.getLast? = some "encode" ∧
        result.success = false ∧ result.output = [] := by
  have hp : ∀ s ∈ threeStages, s.command ≠ [] := by decide
  obtain ⟨n, result, hr, -, hnames, -, -, -, -, -, -, hfailed⟩ :=
    run_account threeStages [.ended 0 (some [10]), .refused "missing"] hp
  have hlast : result.ran.getLast? = some "encode" ∧ result.success = false := by
    cases hr
    exact ⟨rfl, rfl⟩
  exact ⟨hp, n, result, hr, hnames, hlast.1, hlast.2, (hfailed hlast.2).1⟩

end Pipeline

end AsmLens
