import AsmLens.Proofs.EditorLaunches

namespace AsmLens

namespace Text

theorem enter_eq_some {c : Char} {p : Place} (h : Place.enter c = some p) :
    p = .escaped ∨ p = .inApostrophes ∨ p = .inQuotes := by
  unfold Place.enter at h
  split_ifs at h <;> cases h <;> simp

theorem ne_between_of_enter {c : Char} {p : Place} (h : Place.enter c = some p) : p ≠ .between := by
  rcases enter_eq_some h with rfl | rfl | rfl <;> decide

theorem splitFrom_ne_nil {p : Place} (hp : p ≠ .between) (w s : List Char) :
    splitFrom p w s ≠ .ok [] := by
  induction s generalizing p w with
  | nil => cases p <;> simp [splitFrom] at hp ⊢
  | cons c s ih =>
    cases p with
    | between => contradiction
    | inWord =>
      rw [splitFrom]
      split
      · cases splitFrom .between [] s <;> simp [Except.map]
      · split
        · rename_i q hq
          exact ih (ne_between_of_enter hq) _
        · exact ih (by decide) _
    | inApostrophes =>
      rw [splitFrom]
      split <;> exact ih (by decide) _
    | inQuotes =>
      rw [splitFrom]
      split_ifs <;> exact ih (by decide) _
    | escaped => exact ih (by decide) _
    | escapedInQuotes =>
      rw [splitFrom]
      split <;> exact ih (by decide) _

theorem splitFrom_between_eq_nil_iff {s : List Char} :
    splitFrom .between [] s = .ok [] ↔ ∀ c ∈ s, separatesWords c = true := by
  induction s with
  | nil => simp [splitFrom]
  | cons c s ih =>
    rw [splitFrom, List.forall_mem_cons, ← ih]
    split
    · rename_i hc
      simp [hc]
    · rename_i hc
      apply iff_of_false _ fun h => hc h.1
      split
      · rename_i q hq
        exact splitFrom_ne_nil (ne_between_of_enter hq) _ _
      · exact splitFrom_ne_nil (by decide) _ _

theorem splitWords_eq_nil_iff {s : String} :
    splitWords s = .ok [] ↔ ∀ c ∈ s.toList, separatesWords c = true := by
  rw [← splitFrom_between_eq_nil_iff, splitWords]
  cases splitFrom .between [] s.toList <;> simp [Except.map]

def Place.held : Place → List Char
  | .escapedInQuotes => ['\\']
  | _ => []

theorem held_of_enter {c : Char} {p : Place} (h : Place.enter c = some p) : p.held = [] := by
  rcases enter_eq_some h with rfl | rfl | rfl <;> rfl

theorem sublist_of_splitFrom {p : Place} {w s : List Char} {ws : List (List Char)}
    (h : splitFrom p w s = .ok ws) : ws.flatten.Sublist (w ++ p.held ++ s) := by
  induction s generalizing p w ws with
  | nil =>
    cases p <;> simp [splitFrom] at h <;> subst h <;> simp [Place.held]
  | cons c s ih =>
    cases p with
    | between =>
      rw [splitFrom] at h
      split at h
      · exact (ih h).trans (by simp [Place.held])
      · split at h
        · rename_i q hq
          have hs := ih h
          rw [held_of_enter hq] at hs
          exact hs.trans (by simp [Place.held])
        · exact (ih h).trans (by simp [Place.held])
    | inWord =>
      rw [splitFrom] at h
      split at h
      · cases hs : splitFrom .between [] s with
        | error e => simp [hs, Except.map] at h
        | ok vs =>
          obtain rfl : w :: vs = ws := by simpa [hs, Except.map] using h
          have hvs := ih hs
          simp only [Place.held, List.append_nil, List.nil_append, List.flatten_cons] at hvs ⊢
          exact (hvs.cons c).append_left w
      · split at h
        · rename_i q hq
          have hs := ih h
          rw [held_of_enter hq] at hs
          exact hs.trans (by simp [Place.held])
        · exact (ih h).trans (by simp [Place.held])
    | inApostrophes =>
      rw [splitFrom] at h
      split at h <;> exact (ih h).trans (by simp [Place.held])
    | inQuotes =>
      rw [splitFrom] at h
      split at h
      · exact (ih h).trans (by simp [Place.held])
      · split at h
        · rename_i hc
          subst hc
          exact (ih h).trans (by simp [Place.held])
        · exact (ih h).trans (by simp [Place.held])
    | escaped => exact (ih h).trans (by simp [Place.held])
    | escapedInQuotes =>
      rw [splitFrom] at h
      split at h <;> exact (ih h).trans (by simp [Place.held])

theorem sublist_of_splitWords {s : String} {ws : List String} (h : splitWords s = .ok ws) :
    (ws.flatMap String.toList).Sublist s.toList := by
  unfold splitWords at h
  cases hs : splitFrom .between [] s.toList with
  | error e => simp [hs, Except.map] at h
  | ok vs =>
    obtain rfl : vs.map String.ofList = ws := by simpa [hs, Except.map] using h
    simpa [List.flatMap_map, Place.held] using sublist_of_splitFrom hs

end Text

namespace Editor

def FirstGiven (line : String) (settings : List (Option String)) : Prop :=
  ∃ before after, settings = before ++ some line :: after ∧ line ≠ "" ∧
    ∀ setting ∈ before, setting = none ∨ setting = some ""

theorem firstGiven_cons (setting : Option String) {fallback : String}
    {settings : List (Option String)} (h : FirstGiven fallback settings) :
    FirstGiven ((nonempty? setting).getD fallback) (setting :: settings) := by
  cases hgiven : nonempty? setting with
  | none =>
    obtain ⟨before, after, rfl, hline, hbefore⟩ := h
    have hsetting := nonempty?_eq_none_iff.mp hgiven
    exact ⟨setting :: before, after, rfl, hline, List.forall_mem_cons.mpr ⟨hsetting, hbefore⟩⟩
  | some x =>
    obtain ⟨rfl, -⟩ := Option.filter_eq_some_iff.mp hgiven
    have hx : x ≠ "" := by
      rintro rfl
      exact nonempty?_ne_some_empty _ hgiven
    exact ⟨[], settings, rfl, hx, by simp⟩

theorem firstGiven_line (environ : Environ) (asked : Option String) :
    FirstGiven (line environ asked)
      [asked, Assoc.get? environ "VISUAL", Assoc.get? environ "EDITOR", some builtin] := by
  have hline : line environ asked = (nonempty? asked).getD
      ((nonempty? (Assoc.get? environ "VISUAL")).getD
        ((nonempty? (Assoc.get? environ "EDITOR")).getD builtin)) := by
    rw [line, choose]
    cases nonempty? (Assoc.get? environ "VISUAL") <;> rfl
  rw [hline]
  apply firstGiven_cons
  apply firstGiven_cons
  apply firstGiven_cons
  exact ⟨[], [], rfl, by decide, by simp⟩

theorem command_of_words {line : String} {words : List String}
    (h : Text.splitWords line = .ok words) (path : String) :
    command line path = .ok (words ++ [path]) := by
  rw [command, h]
  rfl

end Editor

namespace Session

theorem events_editWith {path : String} {asked : Option String} {s : Session} {words : List String}
    (h : Text.splitWords (Editor.line s.environ asked) = .ok words) :
    (finalState (editWith path asked s)).events = s.events ++ [.edit (words ++ [path])] := by
  obtain ⟨t, -, hevents, hstill⟩ := edit_still (Editor.command_of_words h path) s
  rw [← hevents]
  exact hstill.events

theorem opened_command (path : String) (asked : Option String) (s : Session) (words : List String)
    (h : Text.splitWords (Editor.line s.environ asked) = .ok words) :
    let line := Editor.line s.environ asked
    let command := words ++ [path]
    Editor.FirstGiven line [asked, Assoc.get? s.environ "VISUAL", Assoc.get? s.environ "EDITOR",
        some Editor.builtin] ∧
      (finalState (editWith path asked s)).events = s.events ++ [.edit command] ∧
      (words.flatMap String.toList).Sublist line.toList ∧
      (words ≠ [] ↔ ∃ c ∈ line.toList, Text.separatesWords c = false) ∧
      (command.head? = some path ↔
        (∀ c ∈ line.toList, Text.separatesWords c = true) ∨ words.head? = some path) := by
  intro line command
  have hnil : words = [] ↔ ∀ c ∈ line.toList, Text.separatesWords c = true := by
    rw [← Text.splitWords_eq_nil_iff, h, Except.ok.injEq]
  refine ⟨Editor.firstGiven_line s.environ asked, events_editWith h, Text.sublist_of_splitWords h,
    ?_, ?_⟩
  · rw [Ne, hnil]
    simp
  · rw [← hnil]
    cases words with
    | nil => simp [command]
    | cons word words => simp [command]

theorem opened_command_quoted :
    let s := { bare with environ := [("VISUAL", ""), ("EDITOR", "'my ed' -w")] }
    Text.splitWords (Editor.line s.environ none) = .ok ["my ed", "-w"] ∧
      (finalState (editWith "a.c" none s)).events = [.edit ["my ed", "-w", "a.c"]] ∧
      ["my ed", "-w", "a.c"].head? ≠ some "a.c" := by
  intro s
  have hwords : Text.splitWords (Editor.line s.environ none) = .ok ["my ed", "-w"] := by
    decide +kernel
  obtain ⟨-, hevents, -, hne, hfile⟩ := opened_command "a.c" none s ["my ed", "-w"] hwords
  refine ⟨hwords, hevents, ?_⟩
  intro hhead
  rcases hfile.mp hhead with hseparators | hword
  · obtain ⟨c, hc, hinert⟩ := hne.mp (by decide)
    rw [hseparators c hc] at hinert
    contradiction
  · contradiction

theorem blank_line_runs_file :
    Text.splitWords (Editor.line bare.environ (some " ")) = .ok [] ∧
      (finalState (editWith "a.c" (some " ") bare)).events = [.edit ["a.c"]] := by
  have hwords : Text.splitWords (Editor.line bare.environ (some " ")) = .ok [] := by
    decide +kernel
  exact ⟨hwords, events_editWith hwords⟩

end Session

end AsmLens
