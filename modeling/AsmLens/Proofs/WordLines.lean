import AsmLens.Pipeline.Stage

namespace AsmLens

namespace Text

theorem inert_of_isPlain {c : Char} (h : isPlain c = true) :
    separatesWords c = false ∧ Place.enter c = none := by
  have hne (d : Char) (hd : isPlain d = false) : c ≠ d := by
    rintro rfl
    rw [h] at hd
    contradiction
  constructor
  · simp [separatesWords, hne ' ' (by decide), hne '\t' (by decide), hne '\r' (by decide),
      hne '\n' (by decide)]
  · simp [Place.enter, hne '\\' (by decide), hne apostrophe (by decide), hne '"' (by decide)]

theorem splitFrom_plain {s : List Char} (h : ∀ c ∈ s, isPlain c = true) (w rest : List Char) :
    splitFrom .inWord w (s ++ rest) = splitFrom .inWord (w ++ s) rest := by
  induction s generalizing w with
  | nil => rw [List.nil_append, List.append_nil]
  | cons c s ih =>
    obtain ⟨hc, hs⟩ := List.forall_mem_cons.mp h
    obtain ⟨hseparates, henter⟩ := inert_of_isPlain hc
    simp only [List.cons_append, splitFrom, hseparates, henter, Bool.false_eq_true, if_false]
    rw [ih hs, ← List.append_cons]

theorem splitFrom_apostrophes (s w rest : List Char) :
    splitFrom .inApostrophes w (s.flatMap quoteChar ++ apostrophe :: rest) =
      splitFrom .inWord (w ++ s) rest := by
  induction s generalizing w with
  | nil => simp [splitFrom]
  | cons c s ih =>
    rw [List.flatMap_cons, List.append_assoc, quoteChar]
    by_cases hc : c = apostrophe
    · -- The quotes are closed, the apostrophe has a pair of its own, and the quotes are opened again.
      subst hc
      have hpair : splitFrom .inApostrophes w
          ([apostrophe, '"', apostrophe, '"', apostrophe] ++
            (s.flatMap quoteChar ++ apostrophe :: rest)) =
          splitFrom .inApostrophes (w ++ [apostrophe])
            (s.flatMap quoteChar ++ apostrophe :: rest) := rfl
      rw [if_pos rfl, hpair, ih, ← List.append_cons]
    · rw [if_neg hc, List.singleton_append, splitFrom, if_neg hc, ih, ← List.append_cons]

theorem splitFrom_quoteChars (w rest : List Char) :
    splitFrom .between [] (quoteChars w ++ rest) = splitFrom .inWord w rest := by
  unfold quoteChars
  split
  · rename_i h
    cases w with
    | nil => contradiction
    | cons c s =>
      have hplain : ∀ d ∈ c :: s, isPlain d = true := by simpa using h
      obtain ⟨hc, hs⟩ := List.forall_mem_cons.mp hplain
      obtain ⟨hseparates, henter⟩ := inert_of_isPlain hc
      rw [List.cons_append, splitFrom, hseparates, henter]
      exact splitFrom_plain hs [c] rest
  · rw [List.cons_append, List.append_assoc, List.singleton_append]
    exact splitFrom_apostrophes w [] rest

theorem exists_quoteChars_eq (w : List Char) :
    ∃ c s, quoteChars w = c :: s ∧ (isPlain c = true ∨ c = apostrophe) := by
  unfold quoteChars
  split
  · rename_i h
    cases w with
    | nil => contradiction
    | cons c s =>
      have hplain : ∀ d ∈ c :: s, isPlain d = true := by simpa using h
      exact ⟨c, s, rfl, .inl (hplain c List.mem_cons_self)⟩
  · exact ⟨apostrophe, _, rfl, .inr rfl⟩

theorem quoteChars_ne_bar (w s t : List Char) : quoteChars w ++ s ≠ '|' :: t := by
  obtain ⟨c, v, hw, hc⟩ := exists_quoteChars_eq w
  intro h
  rw [hw, List.cons_append] at h
  obtain ⟨rfl, -⟩ := List.cons.inj h
  exact absurd hc (by decide)

def EndsWord (rest : List Char) : Prop := ∀ c, rest.head? = some c → separatesWords c = true

theorem endsWord_nil : EndsWord [] := nofun

theorem endsWord_space (rest : List Char) : EndsWord (' ' :: rest) := by
  rintro c ⟨⟩
  decide

theorem splitFrom_space (rest : List Char) :
    splitFrom .between [] (' ' :: rest) = splitFrom .between [] rest := rfl

theorem splitFrom_endsWord {rest : List Char} (h : EndsWord rest) (w : List Char) :
    splitFrom .inWord w rest = (splitFrom .between [] rest).map (w :: ·) := by
  cases rest with
  | nil => rfl
  | cons c rest =>
    have hc : separatesWords c = true := h c rfl
    rw [splitFrom, splitFrom, if_pos hc, if_pos hc]

theorem quoteChars_append_inj {v w rest more : List Char} {ws : List (List Char)}
    (hrest : EndsWord rest) (hmore : EndsWord more) (hws : splitFrom .between [] rest = .ok ws)
    (h : quoteChars v ++ rest = quoteChars w ++ more) : v = w ∧ rest = more := by
  have hsplit := congrArg (splitFrom .between []) h
  rw [splitFrom_quoteChars, splitFrom_quoteChars, splitFrom_endsWord hrest,
    splitFrom_endsWord hmore, hws] at hsplit
  cases hm : splitFrom .between [] more with
  | error e =>
    rw [hm] at hsplit
    contradiction
  | ok us =>
    rw [hm] at hsplit
    obtain ⟨rfl, -⟩ := List.cons.inj (Except.ok.inj hsplit)
    exact ⟨rfl, List.append_cancel_left h⟩

def furtherWords : List (List Char) → List Char
  | [] => []
  | w :: ws => ' ' :: (quoteChars w ++ furtherWords ws)

theorem joinChars_cons (w : List Char) (ws : List (List Char)) :
    joinChars (w :: ws) = quoteChars w ++ furtherWords ws := by
  induction ws generalizing w with
  | nil => exact (List.append_nil _).symm
  | cons v ws ih =>
    have hjoin : joinChars (w :: v :: ws) = quoteChars w ++ ' ' :: joinChars (v :: ws) := rfl
    rw [hjoin, ih, furtherWords]

theorem furtherWords_eq {ws : List (List Char)} (h : ws ≠ []) :
    furtherWords ws = ' ' :: joinChars ws := by
  obtain ⟨w, ws, rfl⟩ := List.exists_cons_of_ne_nil h
  rw [joinChars_cons, furtherWords]

theorem endsWord_furtherWords (ws : List (List Char)) {rest : List Char} (h : EndsWord rest) :
    EndsWord (furtherWords ws ++ rest) := by
  cases ws with
  | nil => exact h
  | cons w ws => exact endsWord_space _

theorem splitFrom_furtherWords (ws : List (List Char)) {rest : List Char} {vs : List (List Char)}
    (h : EndsWord rest) (hvs : splitFrom .between [] rest = .ok vs) :
    splitFrom .between [] (furtherWords ws ++ rest) = .ok (ws ++ vs) := by
  induction ws with
  | nil => exact hvs
  | cons w ws ih =>
    rw [furtherWords, List.cons_append, splitFrom_space, List.append_assoc, splitFrom_quoteChars,
      splitFrom_endsWord (endsWord_furtherWords ws h), ih]
    rfl

theorem splitFrom_joinChars {ws : List (List Char)} (hws : ws ≠ []) {rest : List Char}
    {vs : List (List Char)} (h : EndsWord rest) (hvs : splitFrom .between [] rest = .ok vs) :
    splitFrom .between [] (joinChars ws ++ rest) = .ok (ws ++ vs) := by
  have hfurther := splitFrom_furtherWords ws h hvs
  rwa [furtherWords_eq hws, List.cons_append, splitFrom_space] at hfurther

theorem splitWords_joinWords (ws : List String) : splitWords (joinWords ws) = .ok ws := by
  have hsplit : splitFrom .between [] (joinChars (ws.map String.toList)) =
      .ok (ws.map String.toList) := by
    cases ws with
    | nil => rfl
    | cons w ws =>
      have hne : (w :: ws).map String.toList ≠ [] := by simp
      have hjoin := splitFrom_joinChars hne endsWord_nil rfl
      rwa [List.append_nil, List.append_nil] at hjoin
  simp [splitWords, joinWords, hsplit, Except.map]

def EndsCommand (rest : List Char) : Prop := rest = [] ∨ ∃ s, rest = ' ' :: '|' :: s

theorem EndsCommand.endsWord {rest : List Char} (h : EndsCommand rest) : EndsWord rest := by
  rcases h with rfl | ⟨s, rfl⟩
  · exact endsWord_nil
  · exact endsWord_space _

theorem EndsCommand.ne_furtherWords {rest : List Char} (h : EndsCommand rest) (w : List Char)
    (ws : List (List Char)) (more : List Char) : rest ≠ furtherWords (w :: ws) ++ more := by
  rw [furtherWords, List.cons_append, List.append_assoc]
  rcases h with rfl | ⟨s, rfl⟩
  · exact (List.cons_ne_nil _ _).symm
  · intro hbar
    exact quoteChars_ne_bar w _ s (List.cons.inj hbar).2.symm

theorem furtherWords_append_inj {vs ws : List (List Char)} {rest more : List Char}
    {us : List (List Char)} (hrest : EndsCommand rest) (hmore : EndsCommand more)
    (hus : splitFrom .between [] rest = .ok us)
    (h : furtherWords vs ++ rest = furtherWords ws ++ more) : vs = ws ∧ rest = more := by
  induction vs generalizing ws with
  | nil =>
    cases ws with
    | nil => exact ⟨rfl, h⟩
    | cons w ws => exact absurd h (hrest.ne_furtherWords w ws more)
  | cons v vs ih =>
    cases ws with
    | nil => exact absurd h.symm (hmore.ne_furtherWords v vs rest)
    | cons w ws =>
      simp only [furtherWords, List.cons_append, List.append_assoc, List.cons.injEq, true_and] at h
      obtain ⟨rfl, hfurther⟩ := quoteChars_append_inj
        (endsWord_furtherWords vs hrest.endsWord) (endsWord_furtherWords ws hmore.endsWord)
        (splitFrom_furtherWords vs hrest.endsWord hus) h
      obtain ⟨rfl, hmore⟩ := ih hfurther
      exact ⟨rfl, hmore⟩

theorem joinChars_append_inj {vs ws : List (List Char)} (hvs : vs ≠ []) (hws : ws ≠ [])
    {rest more : List Char} {us : List (List Char)} (hrest : EndsCommand rest)
    (hmore : EndsCommand more) (hus : splitFrom .between [] rest = .ok us)
    (h : joinChars vs ++ rest = joinChars ws ++ more) : vs = ws ∧ rest = more := by
  refine furtherWords_append_inj hrest hmore hus ?_
  rw [furtherWords_eq hvs, furtherWords_eq hws, List.cons_append, List.cons_append, h]

end Text

def Stage.words (s : Stage) : List (List Char) := s.command.map String.toList

theorem Stage.words_ne_nil {s : Stage} (h : s.command ≠ []) : s.words ≠ [] := by
  simpa [words] using h

theorem Stage.command_eq_of_words {s t : Stage} (h : s.words = t.words) : s.command = t.command :=
  (List.map_inj_right fun _ _ => String.toList_injective).mp h

namespace Pipeline

open Text

def furtherStages : Pipeline → List Char
  | [] => []
  | s :: p => ' ' :: '|' :: ' ' :: (joinChars s.words ++ furtherStages p)

theorem toList_describe (s : Stage) (p : Pipeline) :
    (describe (s :: p)).toList = joinChars s.words ++ furtherStages p := by
  induction p generalizing s with
  | nil => simp [describe, Stage.describe, joinWords, Stage.words, furtherStages]
  | cons t p ih =>
    have hrest := ih t
    simp only [describe, String.toList_intercalate, List.map_cons, List.intercalate_cons_cons]
      at hrest ⊢
    rw [hrest, furtherStages, Stage.describe, joinWords, String.toList_ofList]
    simp [Stage.words]

theorem endsCommand_furtherStages (p : Pipeline) : EndsCommand (furtherStages p) := by
  cases p with
  | nil => exact .inl rfl
  | cons s p => exact .inr ⟨_, rfl⟩

theorem splitFrom_furtherStages {p : Pipeline} (hp : ∀ s ∈ p, s.command ≠ []) :
    splitFrom .between [] (furtherStages p) = .ok (p.flatMap fun s => ['|'] :: s.words) := by
  induction p with
  | nil => rfl
  | cons s p ih =>
    obtain ⟨hs, hp⟩ := List.forall_mem_cons.mp hp
    have hbar : splitFrom .between [] (furtherStages (s :: p)) =
        (splitFrom .between [] (joinChars s.words ++ furtherStages p)).map (['|'] :: ·) := rfl
    rw [hbar, splitFrom_joinChars (Stage.words_ne_nil hs) (endsCommand_furtherStages p).endsWord
      (ih hp)]
    rfl

theorem furtherStages_inj {p q : Pipeline} (hp : ∀ s ∈ p, s.command ≠ [])
    (hq : ∀ s ∈ q, s.command ≠ []) (h : furtherStages p = furtherStages q) :
    p.map (·.command) = q.map (·.command) := by
  induction p generalizing q with
  | nil =>
    cases q with
    | nil => rfl
    | cons t q => contradiction
  | cons s p ih =>
    cases q with
    | nil => contradiction
    | cons t q =>
      obtain ⟨hs, hp⟩ := List.forall_mem_cons.mp hp
      obtain ⟨ht, hq⟩ := List.forall_mem_cons.mp hq
      simp only [furtherStages, List.cons.injEq, true_and] at h
      obtain ⟨hwords, hrest⟩ := joinChars_append_inj (Stage.words_ne_nil hs)
        (Stage.words_ne_nil ht) (endsCommand_furtherStages p) (endsCommand_furtherStages q)
        (splitFrom_furtherStages hp) h
      rw [List.map_cons, List.map_cons, Stage.command_eq_of_words hwords, ih hp hq hrest]

theorem describe_cons_ne_empty {s : Stage} (hs : s.command ≠ []) (p : Pipeline) :
    describe (s :: p) ≠ "" := by
  intro h
  obtain ⟨w, ws, hwords⟩ := List.exists_cons_of_ne_nil (Stage.words_ne_nil hs)
  obtain ⟨c, v, hw, -⟩ := exists_quoteChars_eq w
  have htext := toList_describe s p
  rw [h, hwords, joinChars_cons, hw] at htext
  contradiction

theorem commands_of_describe {p q : Pipeline} (hp : ∀ s ∈ p, s.command ≠ [])
    (hq : ∀ s ∈ q, s.command ≠ []) (h : p.describe = q.describe) :
    p.map (·.command) = q.map (·.command) := by
  cases p with
  | nil =>
    cases q with
    | nil => rfl
    | cons t q => exact absurd h.symm (describe_cons_ne_empty (hq t List.mem_cons_self) q)
  | cons s p =>
    cases q with
    | nil => exact absurd h (describe_cons_ne_empty (hp s List.mem_cons_self) p)
    | cons t q =>
      have htext := congrArg String.toList h
      rw [toList_describe, toList_describe] at htext
      exact furtherStages_inj hp hq (congrArg (' ' :: '|' :: ' ' :: ·) htext)

theorem describe_of_commands {p q : Pipeline} (h : p.map (·.command) = q.map (·.command)) :
    p.describe = q.describe := by
  have hmap (p : Pipeline) : p.map Stage.describe = (p.map (·.command)).map joinWords := by
    rw [List.map_map]
    rfl
  rw [describe, describe, hmap p, hmap q, h]

theorem describe_faithful (p : Pipeline) (hp : ∀ s ∈ p, s.command ≠ []) :
    (∀ s ∈ p, splitWords s.describe = .ok s.command) ∧
      ∀ q : Pipeline, (∀ s ∈ q, s.command ≠ []) →
        (p.describe = q.describe ↔ p.map (·.command) = q.map (·.command)) :=
  ⟨fun s _ => splitWords_joinWords s.command,
    fun _ hq => ⟨commands_of_describe hp hq, describe_of_commands⟩⟩

def ofCommands (commands : List (List String)) : Pipeline := commands.map compileStage

theorem describe_faithful_bars :
    let p := ofCommands [["a b", "it's", ""], ["b", "\n", "é"]]
    let q := ofCommands [["a b", "it's", "", "|", "b", "\n", "é"]]
    (∀ s ∈ p, s.command ≠ []) ∧ (∀ s ∈ q, s.command ≠ []) ∧
      (∀ s ∈ p, splitWords s.describe = .ok s.command) ∧ p.describe ≠ q.describe := by
  intro p q
  have hp : ∀ s ∈ p, s.command ≠ [] := by decide
  have hq : ∀ s ∈ q, s.command ≠ [] := by decide
  obtain ⟨hsplit, hdescribe⟩ := describe_faithful p hp
  exact ⟨hp, hq, hsplit, fun h => absurd ((hdescribe q hq).mp h) (by decide)⟩

end Pipeline

end AsmLens
