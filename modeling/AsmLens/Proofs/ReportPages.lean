import AsmLens.Proofs.FittingLines
import AsmLens.Proofs.ToolSurvey
import AsmLens.Session.ReportLayout

/-!
Where the printing of a page ends. Each text that comes from outside is read as one with tags, and
the first one that cannot be read ends the run.
-/

namespace AsmLens

namespace Markup

variable {α β : Type}

def trouble? : Except Trouble α → Option Trouble
  | .ok _ => none
  | .error e => some e

@[simp] theorem trouble?_ok (x : α) : trouble? (.ok x) = none := rfl

@[simp] theorem trouble?_map (f : α → β) (x : Except Trouble α) : trouble? (x.map f) = trouble? x := by
  cases x <;> rfl

theorem trouble?_mapM (f : α → Except Trouble β) (xs : List α) :
    trouble? (xs.mapM f) = xs.findSome? fun x => trouble? (f x) := by
  induction xs with
  | nil => rfl
  | cons x xs ih =>
    rw [List.mapM_cons, List.findSome?_cons, ← ih]
    cases f x with
    | error e => rfl
    | ok y => cases xs.mapM f <;> rfl

theorem parse_of_notMem {s : List Char} (h : '[' ∉ s) : parse s = [.text s] := by
  rw [parse, Text.pieces_of_notMem h]
  rfl

theorem trouble?_read_of_notMem (n : Names) {s : String} (h : '[' ∉ s.toList) :
    trouble? (n.read s) = none := by
  rw [Names.read, parse_of_notMem h]
  rfl

end Markup

namespace Report

variable (c : Console)

def pageTexts (r : Report) : List String :=
  r.summary ::
    ((if readsCells c then r.tools.map (·.command) ++ r.tools.map toolVersion else []) ++
      (r.issues ++ r.notes).map bullet)

def trouble? (r : Report) : Option Markup.Trouble :=
  (r.pageTexts c).findSome? fun text => Markup.trouble? (c.names.read text)

theorem trouble?_of_notMem {r : Report} (h : ∀ text ∈ r.pageTexts c, '[' ∉ text.toList) :
    r.trouble? c = none :=
  List.findSome?_eq_none_iff.mpr fun text htext => Markup.trouble?_read_of_notMem _ (h text htext)

theorem trouble?_marked (s : String) :
    Markup.trouble? (c.marked s) = Markup.trouble? (c.names.read s) :=
  Markup.trouble?_map _ _

theorem trouble?_cell (s : String) :
    Markup.trouble? (cell c s) =
      if readsCells c then Markup.trouble? (c.names.read s) else none := by
  unfold cell
  split
  · exact Markup.trouble?_map _ _
  · rfl

theorem trouble?_toolTable (tools : List ToolCheck) :
    Markup.trouble? (toolTable c tools) =
      (if readsCells c then tools.map (·.command) ++ tools.map toolVersion else []).findSome?
        fun text => Markup.trouble? (c.names.read text) := by
  have hread : Markup.trouble? (toolTable c tools) =
      (Markup.trouble? (tools.mapM fun t => cell c t.command)).or
        (Markup.trouble? (tools.mapM fun t => cell c (toolVersion t))) := by
    unfold toolTable
    cases tools.mapM fun t => cell c t.command with
    | error e => rfl
    | ok commands => cases tools.mapM fun t => cell c (toolVersion t) <;> rfl
  rw [hread, Markup.trouble?_mapM, Markup.trouble?_mapM]
  simp only [trouble?_cell]
  by_cases h : readsCells c = true
  · simp only [h, if_true, List.findSome?_append, List.findSome?_map, Function.comp_def]
  · simp [h]

theorem findSome?_bullets (title : String) (items : List String) :
    (bullets c title items).findSome? Markup.trouble? =
      (items.map bullet).findSome? fun text => Markup.trouble? (c.names.read text) := by
  cases items with
  | nil => rfl
  | cons i items =>
    rw [bullets, List.isEmpty_cons, if_neg (by decide), List.findSome?_cons, Markup.trouble?_ok]
    simp only [List.findSome?_map, Function.comp_def, trouble?_marked]

theorem findSome?_pageParts (r : Report) :
    (r.pageParts c).findSome? Markup.trouble? = r.trouble? c := by
  simp only [pageParts, trouble?, pageTexts, List.map_append, List.findSome?_append,
    findSome?_bullets, List.findSome?_cons, List.findSome?_nil, Markup.trouble?_ok, trouble?_marked,
    trouble?_toolTable]
  cases Markup.trouble? (c.names.read r.summary) with
  | some e => rfl
  | none =>
    generalize List.findSome? _ (if readsCells c then _ else []) = cells
    cases cells with
    | some e => rfl
    | none => rfl

end Report

namespace Session

def printedOf : List (Except Markup.Trouble String) → String
  | .ok text :: parts => text ++ printedOf parts
  | _ => ""

theorem printAll_eq (parts : List (Except Markup.Trouble String)) (s : Session) :
    let t := { s with output := s.output ++ printedOf parts }
    printAll parts s =
      match parts.findSome? Markup.trouble? with
      | none => .ok () t
      | some e => .error (.badMarkup e) t := by
  induction parts generalizing s with
  | nil =>
    simp only [printedOf, String.append_empty]
    rfl
  | cons part parts ih =>
    cases part with
    | error e =>
      simp only [printedOf, String.append_empty]
      rfl
    | ok text =>
      have hrest := ih { s with output := s.output ++ text }
      simp only [String.append_assoc] at hrest
      exact hrest

end Session

end AsmLens
