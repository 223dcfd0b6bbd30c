import AsmLens.Proofs.ListedLines
import AsmLens.Proofs.ShownPipeline
import AsmLens.Proofs.WordLines

namespace AsmLens

namespace Text

/-- What comes after a comment that lasts to the end of its line. -/
def afterLine (s : List Char) : List Char := (s.dropWhile (· != '\n')).tail

theorem afterLine_newline (s : List Char) : afterLine ('\n' :: s) = s := rfl

theorem afterLine_cons {c : Char} (hc : c ≠ '\n') (s : List Char) :
    afterLine (c :: s) = afterLine s := by
  rw [afterLine, List.dropWhile_cons_of_pos (by simp [hc]), afterLine]

theorem afterLine_eq_iff {s rest : List Char} :
    afterLine (s ++ '\n' :: rest) = rest ↔ '\n' ∉ s := by
  induction s with
  | nil => simp [afterLine_newline]
  | cons c s ih =>
    by_cases hc : c = '\n'
    · subst hc
      -- More than the rest is left over: the end of this line comes too.
      have hlonger : s ++ '\n' :: rest ≠ rest := by
        intro h
        have hlength := congrArg List.length h
        simp only [List.length_append, List.length_cons] at hlength
        omega
      rw [List.cons_append, afterLine_newline]
      simp [hlonger]
    · rw [List.cons_append, afterLine_cons hc, ih]
      simp [Ne.symm hc]

def newlines (texts : List String) : Nat := (texts.flatMap String.toList).count '\n'

theorem newlines_cons (s : String) (texts : List String) :
    newlines (s :: texts) = s.toList.count '\n' + newlines texts := by
  rw [newlines, List.flatMap_cons, List.count_append, newlines]

theorem newlines_append (xs ys : List String) :
    newlines (xs ++ ys) = newlines xs + newlines ys := by
  rw [newlines, List.flatMap_append, List.count_append, newlines, newlines]

theorem newlines_flatMap_congr {α : Type} {f g : α → List String} (xs : List α)
    (h : ∀ x, newlines (f x) = newlines (g x)) : newlines (xs.flatMap f) = newlines (xs.flatMap g) := by
  induction xs with
  | nil => rfl
  | cons x xs ih =>
    rw [List.flatMap_cons, List.flatMap_cons, newlines_append, newlines_append, h, ih]

theorem newlines_eq_zero_iff {texts : List String} :
    newlines texts = 0 ↔ ∀ s ∈ texts, '\n' ∉ s.toList := by
  simp [newlines, List.count_eq_zero]

theorem count_quoteChar (c : Char) : (quoteChar c).count '\n' = [c].count '\n' := by
  unfold quoteChar
  split
  · rename_i hc
    subst hc
    decide
  · rfl

theorem count_flatMap_quoteChar (w : List Char) : (w.flatMap quoteChar).count '\n' = w.count '\n' := by
  induction w with
  | nil => rfl
  | cons c w ih =>
    rw [List.flatMap_cons, List.count_append, count_quoteChar, ih, ← List.count_append]
    rfl

theorem count_quoteChars (w : List Char) : (quoteChars w).count '\n' = w.count '\n' := by
  unfold quoteChars
  split
  · rfl
  · rw [List.count_cons_of_ne (by decide), List.count_append, count_flatMap_quoteChar,
      Nat.add_eq_left]
    decide

theorem count_furtherWords (ws : List (List Char)) :
    (furtherWords ws).count '\n' = ws.flatten.count '\n' := by
  induction ws with
  | nil => rfl
  | cons w ws ih =>
    rw [furtherWords, List.count_cons_of_ne (by decide), List.count_append, count_quoteChars, ih,
      List.flatten_cons, List.count_append]

theorem count_joinChars (ws : List (List Char)) :
    (joinChars ws).count '\n' = ws.flatten.count '\n' := by
  cases ws with
  | nil => rfl
  | cons w ws =>
    rw [joinChars_cons, List.count_append, count_quoteChars, count_furtherWords,
      List.flatten_cons, List.count_append]

end Text

namespace Pipeline

open Text

theorem count_words (s : Stage) : s.words.flatten.count '\n' = newlines s.command := by
  rw [Stage.words, newlines, List.flatMap_def]

theorem count_furtherStages (p : Pipeline) :
    (furtherStages p).count '\n' = newlines (p.flatMap (·.command)) := by
  induction p with
  | nil => rfl
  | cons s p ih =>
    rw [furtherStages, List.count_cons_of_ne (by decide), List.count_cons_of_ne (by decide),
      List.count_cons_of_ne (by decide), List.count_append, count_joinChars, count_words, ih,
      List.flatMap_cons, newlines_append]

theorem count_describe (p : Pipeline) :
    p.describe.toList.count '\n' = newlines (p.flatMap (·.command)) := by
  cases p with
  | nil => rfl
  | cons s p =>
    rw [toList_describe, List.count_append, count_joinChars, count_words, count_furtherStages,
      List.flatMap_cons, newlines_append]

end Pipeline

namespace Options

open AsmLens.Flag (Kind)
open Text

section

variable {switch : String} {α : Type} (text : α → String) (xs : List α)

theorem newlines_switched (hswitch : switch.toList.count '\n' = 0) :
    newlines (xs.map fun x => switch ++ text x) = newlines (xs.map text) := by
  induction xs with
  | nil => rfl
  | cons x xs ih =>
    rw [List.map_cons, newlines_cons, List.map_cons, newlines_cons, ih, String.toList_append,
      List.count_append, hswitch, Nat.zero_add]

theorem newlines_shown_switched (hlength : 2 ≤ switch.toList.length)
    (hquiet : isNoise switch = false) (hswitch : switch.toList.count '\n' = 0) :
    newlines ((xs.map fun x => switch ++ text x).filter fun a => !isNoise a) =
      newlines (xs.map text) := by
  rw [filter_switched hlength text xs, hquiet, if_neg Bool.false_ne_true,
    newlines_switched text xs hswitch]

end

theorem newlines_trim_inked (texts : List String) :
    newlines ((inked texts).map trim) = newlines (texts.map trim) := by
  induction texts with
  | nil => rfl
  | cons t texts ih =>
    cases ht : isBlankText t with
    | true =>
      have htrim : (trim t).toList = [] := by
        rw [toList_trim, isBlankText_iff.mp ht]
      rw [inked_cons_of_blank ht, ih, List.map_cons, newlines_cons, htrim, List.count_nil,
        Nat.zero_add]
    | false => rw [inked_cons ht, List.map_cons, List.map_cons, newlines_cons, newlines_cons, ih]

def given (o : Options) : Kind → List String
  | .target => [o.architecture]
  | .standard => [o.standard]
  | .define => o.defines.map trim
  | .undef => o.undefs.map trim
  | .extra => (inked o.extraFlags).filter fun a => !isNoise a
  | _ => []

theorem newlines_shown_cons {switch : String} (hlength : 2 ≤ switch.toList.length)
    (hquiet : isNoise switch = false) (hswitch : switch.toList.count '\n' = 0) (s : String)
    {fixed : List String} (hfixed : newlines (fixed.filter fun a => !isNoise a) = 0) :
    newlines (((switch ++ s) :: fixed).filter fun a => !isNoise a) = newlines [s] := by
  have hs := newlines_shown_switched id [s] hlength hquiet hswitch
  rw [← List.singleton_append, List.filter_append, newlines_append, hfixed, Nat.add_zero]
  exact hs

theorem newlines_shown (named : Option String) (system : String) (o : Options) (k : Kind) :
    newlines (shown (libraryOf named system) o k) = newlines (given o k) := by
  -- Only a text of the user can have a newline; the other texts are few and can be tried.
  cases k with
  | language =>
    change newlines (List.filter _ ["-x" ++ o.language.name]) = 0
    cases o.language <;> decide
  | target =>
    rw [shown, documented]
    apply newlines_shown_cons (by decide) (by decide) (by decide)
    cases o.wordSize with
    | none => rfl
    | some w => cases w <;> decide
  | output =>
    change newlines (List.filter _ ("-S" :: _)) = 0
    cases o.emitIr <;> cases o.verboseAssembly <;> decide
  | standard =>
    have hlibrary : newlines ([libraryOf named system].filter fun a => !isNoise a) = 0 := by
      unfold libraryOf
      split <;> decide
    rw [shown, documented]
    apply newlines_shown_cons (by decide) (by decide) (by decide)
    cases o.language with
    | c => rfl
    | objC => rfl
    | cxx => exact hlibrary
    | objCxx => exact hlibrary
  | optimization =>
    change newlines (List.filter _ ["-O" ++ o.optimization.name]) = 0
    cases o.optimization <;> decide
  | exceptions =>
    have hgiven : newlines (given o .exceptions) = 0 := rfl
    rw [hgiven, shown, documented]
    cases o.language <;> cases o.exceptions <;> decide
  | rtti =>
    have hgiven : newlines (given o .rtti) = 0 := rfl
    rw [hgiven, shown, documented]
    cases o.language <;> cases o.rtti <;> decide
  | floatingPoint =>
    have hgiven : newlines (given o .floatingPoint) = 0 := rfl
    rw [hgiven, shown, documented]
    cases o.fastMath <;> decide
  | warning =>
    rw [shown, documented, filter_switched (by decide)]
    rfl
  | includePath =>
    rw [shown, documented, filter_switched (by decide)]
    rfl
  | define =>
    rw [shown, documented, newlines_shown_switched _ _ (by decide) (by decide) (by decide),
      newlines_trim_inked, given]
  | undef =>
    rw [shown, documented, newlines_shown_switched _ _ (by decide) (by decide) (by decide),
      newlines_trim_inked, given]
  | debug =>
    have hgiven : newlines (given o .debug) = 0 := rfl
    rw [hgiven, shown, documented]
    cases o.debugInfo <;> decide
  | extra => rfl

theorem newlines_summary (named : Option String) (system : String) (o : Options) :
    newlines (o.summary (isDarwin named system)) = newlines (Kind.all.flatMap o.given) := by
  rw [summary_eq]
  exact newlines_flatMap_congr _ (newlines_shown named system o)

end Options

namespace Pipeline

open Text

/-- The texts that a header has from the tools and from the options. -/
def shownTexts (t : Tools) (o : Options) : List String :=
  t.compiler :: o.architecture :: o.standard ::
    (o.defines.map trim ++ o.undefs.map trim ++
      (inked o.extraFlags).filter (fun a => !Options.isNoise a) ++
      (if o.showEncoding then t.encoder else []) ++
      (if o.shouldDemangle then t.demangler else []))

theorem newlines_summaryOf (t : Tools) (named : Option String) (system : String) (o : Options) :
    newlines ((summaryOf t (isDarwin named system) o).flatMap (·.command)) =
      newlines (shownTexts t o) := by
  have hgiven : Flag.Kind.all.flatMap o.given = o.architecture :: o.standard ::
      (o.defines.map trim ++ o.undefs.map trim ++
        (inked o.extraFlags).filter fun a => !Options.isNoise a) := by
    simp [Flag.Kind.all, Options.given]
  have hlater : (laterStages t o).flatMap (·.command) =
      (if o.showEncoding then t.encoder else []) ++ if o.shouldDemangle then t.demangler else [] := by
    unfold laterStages
    cases o.showEncoding <;> cases o.shouldDemangle <;> simp
  have hsummary := Options.newlines_summary named system o
  rw [hgiven] at hsummary
  rw [summaryOf, List.flatMap_cons, hlater, compileStage, newlines_append, newlines_cons, hsummary,
    ← newlines_cons, ← newlines_append, shownTexts]
  simp only [List.cons_append, List.append_assoc]

end Pipeline

namespace Listing

open Text

def headerLine (t : Tools) (darwin : Bool) (o : Options) : String :=
  marker o ++ " Compiled with `" ++ (Pipeline.summaryOf t darwin o).describe ++ "`"

theorem header_eq (t : Tools) (darwin : Bool) (o : Options) :
    header t darwin o (marker o) = headerLine t darwin o ++ "\n" := by
  have hend : "`\n" = "`" ++ "\n" := rfl
  rw [header, hend, ← String.append_assoc, headerLine]

theorem count_headerLine (t : Tools) (named : Option String) (system : String) (o : Options) :
    (headerLine t (isDarwin named system) o).toList.count '\n' =
      newlines (Pipeline.shownTexts t o) := by
  have hmarker : (marker o).toList.count '\n' = 0 := by
    unfold marker
    split_ifs <;> decide
  have hlead : " Compiled with `".toList.count '\n' = 0 := by decide
  have hquote : "`".toList.count '\n' = 0 := by decide
  simp only [headerLine, String.toList_append, List.count_append, hmarker, hlead, hquote,
    Pipeline.count_describe, Pipeline.newlines_summaryOf, Nat.zero_add, Nat.add_zero]

theorem toList_endLine (s t : String) : (s ++ "\n" ++ t).toList = s.toList ++ '\n' :: t.toList := by
  have hend : "\n".toList = ['\n'] := rfl
  rw [String.toList_append, String.toList_append, hend, List.append_assoc, List.singleton_append]

theorem render_of_alone (t : Tools) (darwin : Bool) {o : Options} (source captured : String)
    (h : o.combinedOutput = false) :
    render t darwin o source captured = headerLine t darwin o ++ "\n" ++ body captured := by
  simp only [render, h, Bool.false_eq_true, if_false, header_eq]

def withBreak : Options := { Options.unasked "/src" with defines := ["A=1\nB"] }

theorem comment_ends_with_header (t : Tools) (named : Option String) (system : String) (o : Options)
    (source captured : String) (h : o.combinedOutput = false) :
    let darwin := isDarwin named system
    let line := (if o.emitIr then ";" else "#") ++ " Compiled with `" ++
      (Pipeline.summaryOf t darwin o).describe ++ "`"
    let text := render t darwin o source captured
    header t darwin o (marker o) = line ++ "\n" ∧
      text = line ++ "\n" ++ body captured ∧
      (line ++ "\n").toList.count '\n' = newlines (Pipeline.shownTexts t o) + 1 ∧
      (afterLine text.toList = (body captured).toList ↔
        ∀ s ∈ Pipeline.shownTexts t o, '\n' ∉ s.toList) := by
  intro darwin line text
  have hline : headerLine t darwin o = line := by
    simp only [headerLine, marker, h, Bool.false_eq_true, if_false, line]
  have hcount : line.toList.count '\n' = newlines (Pipeline.shownTexts t o) := by
    rw [← hline]
    exact count_headerLine t named system o
  have htext : text = line ++ "\n" ++ body captured := by
    rw [← hline]
    exact render_of_alone t darwin source captured h
  refine ⟨?_, htext, ?_, ?_⟩
  · rw [header_eq, hline]
  · rw [String.toList_append, List.count_append, hcount]
    rfl
  · rw [htext, toList_endLine, afterLine_eq_iff, ← List.count_eq_zero, hcount, newlines_eq_zero_iff]

theorem comment_ends_with_header_plain :
    let o := { Options.unasked "/src" with emitIr := true, extraFlags := ["-DA=1 2", "-I/a\nb"] }
    o.combinedOutput = false ∧
      afterLine (render Tools.standard (isDarwin none "Linux") o "" "\tret\n").toList =
        "        ret\n".toList := by
  intro o
  obtain ⟨-, -, -, hends⟩ := comment_ends_with_header Tools.standard none "Linux" o "" "\tret\n" rfl
  have htexts : ∀ s ∈ Pipeline.shownTexts Tools.standard o, '\n' ∉ s.toList := by decide
  refine ⟨rfl, ?_⟩
  rw [hends.mpr htexts]
  decide

theorem comment_ends_in_header :
    let darwin := isDarwin none "Linux"
    Options.resolve "/src" (.table [("defines", .array [.text "A=1\nB"])]) = .ok withBreak ∧
      withBreak.combinedOutput = false ∧
      (header Tools.standard darwin withBreak (marker withBreak)).toList.count '\n' = 2 ∧
      afterLine (render Tools.standard darwin withBreak "" "\tret\n").toList ≠
        (body "\tret\n").toList := by
  intro darwin
  have hcount : (headerLine Tools.standard darwin withBreak).toList.count '\n' = 1 := by
    rw [count_headerLine]
    decide
  refine ⟨rfl, rfl, ?_, ?_⟩
  · rw [header_eq, String.toList_append, List.count_append, hcount]
    rfl
  · rw [render_of_alone _ _ _ _ rfl, toList_endLine, Ne, afterLine_eq_iff, ← List.count_eq_zero,
      hcount]
    exact Nat.one_ne_zero

end Listing

end AsmLens
