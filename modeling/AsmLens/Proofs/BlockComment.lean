import AsmLens.Proofs.ListedLines
import AsmLens.Proofs.OptionsResolution
import AsmLens.Proofs.WordLines

/-!
A listing in a comment. What is put there is not looked through for the mark that closes a comment, so
the comment is over at the first one: at the end of the listing if no word and no line of code has it.
-/

namespace AsmLens

namespace Text

/-- What comes after a comment that stands open. -/
def afterComment? : List Char → Option (List Char)
  | [] => none
  | c :: s => if c = '*' ∧ s.head? = some '/' then some s.tail else afterComment? s

def Closes (s : List Char) : Prop := ['*', '/'] <:+: s

instance : DecidablePred Closes := fun s => inferInstanceAs (Decidable (['*', '/'] <:+: s))

theorem not_closes_nil : ¬Closes [] := by simp [Closes]

theorem closes_cons {c : Char} {s : List Char} :
    Closes (c :: s) ↔ c = '*' ∧ s.head? = some '/' ∨ Closes s := by
  rw [Closes, List.infix_cons_iff, Closes, List.cons_prefix_cons]
  refine or_congr_left (and_congr eq_comm ?_)
  cases s <;> simp [eq_comm]

def Inert (c : Char) : Prop := c ≠ '*' ∧ c ≠ '/'

instance : DecidablePred Inert := fun c => inferInstanceAs (Decidable (c ≠ '*' ∧ c ≠ '/'))

theorem inert_of_all {run : List Char} (h : run.all (fun c => decide (Inert c)) = true) :
    ∀ c ∈ run, Inert c := fun c hc => of_decide_eq_true (List.all_eq_true.mp h c hc)

theorem closes_cons_of_inert {c : Char} (hc : Inert c) {s : List Char} :
    Closes (c :: s) ↔ Closes s := by
  simp [closes_cons, hc.1]

theorem closes_append_cons {c : Char} (hc : Inert c) (s t : List Char) :
    Closes (s ++ c :: t) ↔ Closes s ∨ Closes t := by
  induction s with
  | nil => simp [closes_cons_of_inert hc, not_closes_nil]
  | cons d s ih =>
    have hhead : (s ++ c :: t).head? = some '/' ↔ s.head? = some '/' := by
      cases s <;> simp [hc.2]
    rw [List.cons_append, closes_cons, closes_cons, ih, hhead, or_assoc]

theorem closes_append_of_inert {run : List Char} (h : ∀ c ∈ run, Inert c) (s : List Char) :
    Closes (run ++ s) ↔ Closes s := by
  induction run with
  | nil => rfl
  | cons c run ih =>
    obtain ⟨hc, hrun⟩ := List.forall_mem_cons.mp h
    rw [List.cons_append, closes_cons_of_inert hc, ih hrun]

theorem afterComment?_of_not_closes {s : List Char} (h : ¬Closes s) (rest : List Char) :
    afterComment? (s ++ '*' :: '/' :: rest) = some rest := by
  induction s with
  | nil => rfl
  | cons c s ih =>
    rw [closes_cons, not_or] at h
    have hhead : ¬(c = '*' ∧ (s ++ '*' :: '/' :: rest).head? = some '/') := by
      cases s <;> simp at h ⊢
      exact h.1
    rw [List.cons_append, afterComment?, if_neg hhead, ih h.2]

theorem exists_of_afterComment? {s rest : List Char} (h : afterComment? s = some rest) :
    ∃ inside, s = inside ++ '*' :: '/' :: rest ∧ ¬Closes inside := by
  induction s with
  | nil => contradiction
  | cons c s ih =>
    by_cases hmark : c = '*' ∧ s.head? = some '/'
    · obtain ⟨rfl, hhead⟩ := hmark
      obtain ⟨t, rfl⟩ := List.head?_eq_some_iff.mp hhead
      obtain rfl : t = rest := Option.some.inj h
      exact ⟨[], rfl, not_closes_nil⟩
    · rw [afterComment?, if_neg hmark] at h
      obtain ⟨inside, rfl, hinside⟩ := ih h
      refine ⟨c :: inside, rfl, ?_⟩
      rw [closes_cons, not_or]
      refine ⟨?_, hinside⟩
      rintro ⟨rfl, hhead⟩
      refine hmark ⟨rfl, ?_⟩
      rw [List.head?_append, hhead]
      rfl

theorem afterComment?_eq_some_iff {s rest : List Char} :
    afterComment? (s ++ '*' :: '/' :: rest) = some rest ↔ ¬Closes s := by
  refine ⟨fun h => ?_, fun h => afterComment?_of_not_closes h rest⟩
  obtain ⟨inside, hinside, hclosed⟩ := exists_of_afterComment? h
  rwa [List.append_cancel_right hinside]

inductive SameMarks : List Char → List Char → Prop where
  | nil : SameMarks [] []
  | keep (c : Char) {s t : List Char} : SameMarks s t → SameMarks (c :: s) (c :: t)
  | swap {c d : Char} {run s t : List Char} : Inert c → Inert d → (∀ e ∈ run, Inert e) →
      SameMarks s t → SameMarks (c :: s) (d :: run ++ t)

theorem SameMarks.head?_iff {s t : List Char} (h : SameMarks s t) :
    s.head? = some '/' ↔ t.head? = some '/' := by
  cases h with
  | nil => rfl
  | keep c _ => rfl
  | swap hc hd _ _ => simp [hc.2, hd.2]

theorem SameMarks.closes_iff {s t : List Char} (h : SameMarks s t) : Closes s ↔ Closes t := by
  induction h with
  | nil => rfl
  | keep c h ih => rw [closes_cons, closes_cons, h.head?_iff, ih]
  | swap hc hd hrun _ ih =>
    rw [closes_cons_of_inert hc, List.cons_append, closes_cons_of_inert hd,
      closes_append_of_inert hrun, ih]

theorem inert_space : Inert ' ' := by decide

theorem inert_newline : Inert '\n' := by decide

theorem inert_apostrophe : Inert apostrophe := by decide

theorem inert_of_mem_replicate {n : Nat} {c : Char} (h : c ∈ List.replicate n ' ') : Inert c := by
  rw [List.eq_of_mem_replicate h]
  exact inert_space

theorem sameMarks_onePass (column : Nat) (s : List Char) : SameMarks s (onePass column s) := by
  induction s generalizing column with
  | nil => exact .nil
  | cons c s ih =>
    by_cases hc : c = '\t'
    · subst hc
      obtain ⟨n, hn⟩ := Nat.exists_eq_add_of_le' (toStop_bounds column).1
      rw [onePass_tab, hn, List.replicate_succ]
      exact .swap (by decide) inert_space (fun d hd => inert_of_mem_replicate hd) (ih _)
    · rw [onePass, if_neg hc]
      exact .keep c (ih _)

theorem sameMarks_flatMap_quoteChar (w : List Char) : SameMarks w (w.flatMap quoteChar) := by
  induction w with
  | nil => exact .nil
  | cons c w ih =>
    rw [List.flatMap_cons, quoteChar]
    split
    · rename_i hc
      subst hc
      exact .swap inert_apostrophe inert_apostrophe (inert_of_all (by decide)) ih
    · exact .keep c ih

theorem closes_quoteChars (w : List Char) : Closes (quoteChars w) ↔ Closes w := by
  unfold quoteChars
  split
  · rfl
  · rw [closes_cons_of_inert inert_apostrophe, closes_append_cons inert_apostrophe,
      ← (sameMarks_flatMap_quoteChar w).closes_iff, or_iff_left not_closes_nil]

theorem closes_append_furtherWords (s : List Char) (ws : List (List Char)) :
    Closes (s ++ furtherWords ws) ↔ Closes s ∨ ∃ w ∈ ws, Closes w := by
  induction ws generalizing s with
  | nil => simp [furtherWords]
  | cons w ws ih =>
    rw [furtherWords, closes_append_cons inert_space, ih, closes_quoteChars]
    simp

theorem closes_joinChars (ws : List (List Char)) :
    Closes (joinChars ws) ↔ ∃ w ∈ ws, Closes w := by
  cases ws with
  | nil => simp [joinChars, not_closes_nil]
  | cons w ws =>
    rw [joinChars_cons, closes_append_furtherWords, closes_quoteChars]
    simp

end Text

namespace Pipeline

open Text

theorem closes_append_furtherStages (s : List Char) (p : Pipeline) :
    Closes (s ++ furtherStages p) ↔ Closes s ∨ ∃ stage ∈ p, ∃ w ∈ stage.words, Closes w := by
  induction p generalizing s with
  | nil => simp [furtherStages]
  | cons stage p ih =>
    have hbar : Inert '|' := by decide
    rw [furtherStages, closes_append_cons inert_space, closes_cons_of_inert hbar,
      closes_cons_of_inert inert_space, ih, closes_joinChars]
    simp

theorem closes_describe (p : Pipeline) :
    Closes p.describe.toList ↔ ∃ stage ∈ p, ∃ w ∈ stage.command, Closes w.toList := by
  cases p with
  | nil => simp [describe, not_closes_nil]
  | cons stage p =>
    rw [toList_describe, closes_append_furtherStages, closes_joinChars]
    simp [Stage.words]

end Pipeline

namespace Listing

open Text

/-- What stands in the comment: the header but for its marker, and the code. -/
def comment (t : Tools) (darwin : Bool) (o : Options) (captured : String) : String :=
  header t darwin o "" ++ body captured ++ "\n"

theorem closes_body (captured : String) :
    Closes (body captured).toList ↔ Closes captured.toList := by
  by_cases hempty : captured = ""
  · subst hempty
    rfl
  · rw [body, if_neg hempty, toList_closeLine, toList_expandTabs]
    split
    · exact (sameMarks_onePass 0 _).closes_iff.symm
    · rw [closes_append_cons inert_newline, ← (sameMarks_onePass 0 _).closes_iff,
        or_iff_left not_closes_nil]

theorem toList_comment (t : Tools) (darwin : Bool) (o : Options) (captured : String) :
    (comment t darwin o captured).toList = " Compiled with `".toList ++
      ((Pipeline.summaryOf t darwin o).describe.toList ++
        '`' :: '\n' :: ((body captured).toList ++ ['\n'])) := by
  have hquote : "`\n".toList = ['`', '\n'] := rfl
  have hend : "\n".toList = ['\n'] := rfl
  simp only [comment, header, String.empty_append, String.toList_append, hquote, hend,
    List.append_assoc, List.cons_append, List.nil_append]

theorem closes_comment (t : Tools) (darwin : Bool) (o : Options) (captured : String) :
    Closes (comment t darwin o captured).toList ↔
      (∃ s ∈ Pipeline.summaryOf t darwin o, ∃ w ∈ s.command, Closes w.toList) ∨
        Closes captured.toList := by
  have hlead : ∀ c ∈ " Compiled with `".toList, Inert c := inert_of_all (by decide)
  have hquote : Inert '`' := by decide
  rw [toList_comment, closes_append_of_inert hlead, closes_append_cons hquote,
    closes_cons_of_inert inert_newline, closes_append_cons inert_newline,
    or_iff_left not_closes_nil, closes_body, Pipeline.closes_describe]

theorem render_of_combinedOutput (t : Tools) (darwin : Bool) {o : Options} (source captured : String)
    (h : o.combinedOutput = true) :
    render t darwin o source captured =
      closeLine source ++ "\n" ++ separator ++ "\n" ++ blockOpen ++ comment t darwin o captured ++
        blockClose ++ "\n" := by
  have hopening : opening o source = closeLine source ++ "\n" ++ separator ++ "\n" := if_pos h
  have hmarker : marker o = blockOpen := if_pos h
  have hending : ending o = "\n" ++ blockClose ++ "\n" := if_pos h
  simp only [render_eq, hopening, hmarker, hending, header, comment, String.append_assoc,
    String.empty_append]

def combined : Options := { Options.unasked "/src" with combinedOutput := true }

theorem comment_ends_last (t : Tools) (darwin : Bool) (o : Options) (source captured : String)
    (h : o.combinedOutput = true) :
    let inside := comment t darwin o captured
    render t darwin o source captured =
        closeLine source ++ "\n" ++ separator ++ "\n" ++ blockOpen ++ inside ++ blockClose ++ "\n" ∧
      (afterComment? (inside ++ blockClose ++ "\n").toList = some ['\n'] ↔
        (∀ s ∈ Pipeline.summaryOf t darwin o, ∀ w ∈ s.command, ¬Closes w.toList) ∧
          ¬Closes captured.toList) := by
  intro inside
  refine ⟨render_of_combinedOutput t darwin source captured h, ?_⟩
  have hmark : (blockClose ++ "\n").toList = '*' :: '/' :: ['\n'] := rfl
  rw [String.append_assoc, String.toList_append, hmark, afterComment?_eq_some_iff, closes_comment]
  push Not
  rfl

theorem comment_ends_last_plain :
    Options.resolve "/src" (.table [("combined_output", .bool true)]) = .ok combined ∧
      combined.combinedOutput = true ∧
      afterComment? (comment Tools.standard false combined "\tret\n" ++ blockClose ++ "\n").toList =
        some ['\n'] := by
  obtain ⟨-, hends⟩ := comment_ends_last Tools.standard false combined "int f;\n" "\tret\n" rfl
  have hwords : ∀ s ∈ Pipeline.summaryOf Tools.standard false combined, ∀ w ∈ s.command,
      ¬Closes w.toList := by
    decide +kernel
  have hcaptured : ¬Closes "\tret\n".toList := by decide
  exact ⟨rfl, rfl, hends.mpr ⟨hwords, hcaptured⟩⟩

theorem comment_ends_early :
    let source := "const char *s = \"*/\";\n"
    let captured := "\t.asciz\t\"*/\"\n"
    let inside := comment Tools.standard false combined captured
    Options.resolve "/src" (.table [("combined_output", .bool true)]) = .ok combined ∧
      combined.combinedOutput = true ∧
      render Tools.standard false combined source captured =
        closeLine source ++ "\n" ++ separator ++ "\n" ++ blockOpen ++ inside ++ blockClose ++ "\n" ∧
      afterComment? (inside ++ blockClose ++ "\n").toList = some "\"\n\n*/\n".toList := by
  intro source captured inside
  exact ⟨rfl, rfl, render_of_combinedOutput Tools.standard false source captured rfl,
    by decide +kernel⟩

end Listing

end AsmLens
