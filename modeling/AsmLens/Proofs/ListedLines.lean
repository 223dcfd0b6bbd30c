import AsmLens.Listing
import AsmLens.Proofs.DecodedParts
import AsmLens.Proofs.TabColumns
import Mathlib.Data.List.Basic

namespace AsmLens

namespace Text

@[elab_as_elim]
theorem cut_induction {α : Type} (a : α) {P : List α → Prop} (l : List α)
    (uncut : ∀ l, a ∉ l → P l)
    (cut : ∀ before after, a ∉ before → P after → P (before ++ a :: after)) : P l := by
  suffices h : ∀ before, a ∉ before → P (before ++ l) from h [] List.not_mem_nil
  induction l with
  | nil =>
    intro before h
    rw [List.append_nil]
    exact uncut before h
  | cons c s ih =>
    intro before h
    by_cases hc : c = a
    · subst hc
      exact cut before s h (ih [] List.not_mem_nil)
    · rw [List.append_cons]
      exact ih (before ++ [c]) (by simp [h, Ne.symm hc])

structure KeepsCuts {α β : Type} (a : α) (b : β) (f : List α → List β) : Prop where
  cut : ∀ before after, f (before ++ a :: after) = f before ++ b :: f after
  uncut : ∀ {l}, a ∉ l → b ∉ f l
  nil_iff : ∀ {l}, f l = [] ↔ l = []

namespace KeepsCuts

variable {α β γ : Type} {a : α} {b : β} {c : γ} {f : List α → List β} {g : List β → List γ}

theorem comp (hf : KeepsCuts a b f) (hg : KeepsCuts b c g) : KeepsCuts a c fun l => g (f l) where
  cut before after := by rw [hf.cut, hg.cut]
  uncut h := hg.uncut (hf.uncut h)
  nil_iff := hg.nil_iff.trans hf.nil_iff

theorem splitOn [BEq α] [LawfulBEq α] [BEq β] [LawfulBEq β] (h : KeepsCuts a b f) (l : List α) :
    (f l).splitOn b = (l.splitOn a).map f := by
  induction l using cut_induction a with
  | uncut l hl =>
    rw [List.splitOn_eq_singleton hl, List.splitOn_eq_singleton (h.uncut hl), List.map_singleton]
  | cut before after hbefore ih =>
    rw [h.cut, List.splitOn_append_cons_self_of_not_mem hbefore,
      List.splitOn_append_cons_self_of_not_mem (h.uncut hbefore), ih, List.map_cons]

theorem count [BEq α] [LawfulBEq α] [BEq β] [LawfulBEq β] (h : KeepsCuts a b f) (l : List α) :
    (f l).count b = l.count a := by
  induction l using cut_induction a with
  | uncut l hl => rw [List.count_eq_zero.mpr hl, List.count_eq_zero.mpr (h.uncut hl)]
  | cut before after hbefore ih =>
    rw [h.cut, List.count_append, List.count_append, List.count_cons_self, List.count_cons_self, ih,
      List.count_eq_zero.mpr hbefore, List.count_eq_zero.mpr (h.uncut hbefore)]

theorem getLast?_iff (h : KeepsCuts a b f) (l : List α) :
    (f l).getLast? = some b ↔ l.getLast? = some a := by
  induction l using cut_induction a with
  | uncut l hl =>
    exact iff_of_false (fun hlast => h.uncut hl (List.mem_of_getLast? hlast))
      fun hlast => hl (List.mem_of_getLast? hlast)
  | cut before after _ ih =>
    rw [h.cut, List.getLast?_append_cons, List.getLast?_append_cons]
    by_cases hafter : after = []
    · have hread : f after = [] := h.nil_iff.mpr hafter
      rw [hread, hafter]
      exact iff_of_true rfl rfl
    · have hread : f after ≠ [] := mt h.nil_iff.mp hafter
      rwa [← List.singleton_append, List.getLast?_append_of_ne_nil _ hread,
        ← List.singleton_append, List.getLast?_append_of_ne_nil _ hafter]

end KeepsCuts

def asciiChar (a : UInt8) : Char := Char.ofNat a.toNat

section

variable {a : UInt8} (ha : a < 0x80)
include ha

theorem isTail_of_ascii : isTail a = false :=
  Bool.eq_false_iff.mpr fun h => Nat.not_le.mpr ha (isTail_iff.mp h).1

theorem isSecondOfThree_of_ascii (b : UInt8) : isSecondOfThree b a = false :=
  Bool.eq_false_iff.mpr fun h => Nat.not_le.mpr ha (isSecondOfThree_iff.mp h).1

theorem isSecondOfFour_of_ascii (b : UInt8) : isSecondOfFour b a = false :=
  Bool.eq_false_iff.mpr fun h => Nat.not_le.mpr ha (isSecondOfFour_iff.mp h).1

theorem scan_of_ascii (rest : Bytes) : scan (a :: rest) = some (asciiChar a) :: scan rest := by
  rw [scan.eq_def]
  exact if_pos ha

theorem scan_append_ascii (before after : Bytes) :
    scan (before ++ a :: after) = scan before ++ some (asciiChar a) :: scan after := by
  have hrest := scan_of_ascii ha after
  have htail := isTail_of_ascii ha
  have hthree := isSecondOfThree_of_ascii ha
  have hfour := isSecondOfFour_of_ascii ha
  fun_induction scan before with
  | case1 => exact hrest
  | _ =>
    -- The same part comes first in both: where `before` ends in the midst of it, the byte ends it too.
    rw [List.cons_append, scan.eq_def]
    simp_all only [List.cons_append, List.nil_append, Bool.false_eq_true, if_true, if_false]

theorem asciiChar_ne_replacement : asciiChar a ≠ replacement := by
  have hbound : a.toNat < 0x80 := ha
  have hchar : (asciiChar a).toNat = a.toNat := toNat_ofNat (by omega)
  have hreplacement : replacement.toNat = 0xfffd := by decide
  intro h
  rw [h] at hchar
  omega

theorem mem_of_decodes {bs : Bytes} {s : List Char} (h : Decodes bs s) (hmem : asciiChar a ∈ s) :
    a ∈ bs := by
  induction h with
  | nil => contradiction
  | char hpart _ ih =>
    rcases List.mem_cons.mp hmem with rfl | hmem
    · rw [asciiChar, encodeChar_one ha] at hpart
      rw [← hpart]
      exact List.mem_cons_self
    · exact List.mem_append_right _ (ih hmem)
  | damaged _ _ ih =>
    have hlater := List.mem_of_ne_of_mem (asciiChar_ne_replacement ha) hmem
    exact List.mem_append_right _ (ih hlater)

end

theorem decodeLossy_eq_nil_iff {bs : Bytes} : decodeLossy bs = [] ↔ bs = [] := by
  rw [decodeLossy, List.map_eq_nil_iff]
  fun_cases scan bs <;> simp

theorem keepsCuts_decodeLossy {a : UInt8} (ha : a < 0x80) :
    KeepsCuts a (asciiChar a) decodeLossy where
  cut before after := by
    rw [decodeLossy, scan_append_ascii ha, List.map_append, List.map_cons]
    rfl
  uncut := mt (mem_of_decodes ha (decodes_decodeLossy _))
  nil_iff := decodeLossy_eq_nil_iff

theorem newline_mem_onePass (column : Nat) {s : List Char} (h : '\n' ∈ onePass column s) :
    '\n' ∈ s := by
  induction s generalizing column with
  | nil => exact h
  | cons c s ih =>
    by_cases hc : c = '\t'
    · subst hc
      rw [onePass_tab] at h
      rcases List.mem_append.mp h with hblank | h
      · exact absurd (List.eq_of_mem_replicate hblank) (by decide)
      · exact List.mem_cons_of_mem _ (ih _ h)
    · rw [onePass, if_neg hc] at h
      rcases List.mem_cons.mp h with rfl | h
      · exact List.mem_cons_self
      · exact List.mem_cons_of_mem _ (ih _ h)

theorem onePass_eq_nil_iff (column : Nat) {s : List Char} : onePass column s = [] ↔ s = [] := by
  cases s with
  | nil => exact Iff.rfl
  | cons c s =>
    have hstop := (toStop_bounds column).1
    by_cases hc : c = '\t'
    · subst hc
      simp [onePass_tab]
      omega
    · simp [onePass, hc]

theorem keepsCuts_onePass : KeepsCuts '\n' '\n' (onePass 0) where
  cut before after := by rw [onePass_append, onePass_newline]
  uncut := mt (newline_mem_onePass 0)
  nil_iff := onePass_eq_nil_iff 0

def newline : UInt8 := 0x0a

def tab : UInt8 := 0x09

def shownBytes (bs : Bytes) : List Char := onePass 0 (decodeLossy bs)

theorem keepsCuts_shownBytes : KeepsCuts newline '\n' shownBytes :=
  (keepsCuts_decodeLossy (a := newline) (by decide)).comp keepsCuts_onePass

example : shownBytes [0xe2, 0x82, newline, 0xf0, 0x9f, tab, 0x61] =
    replacement :: '\n' :: replacement :: "       a".toList := by decide

def closeBytes (bs : Bytes) : Bytes :=
  if bs = [] ∨ bs.getLast? = some newline then bs else bs ++ [newline]

theorem toList_closeLine (s : String) : (closeLine s).toList =
    if s.toList.getLast? = some '\n' then s.toList else s.toList ++ ['\n'] := by
  rw [closeLine, apply_ite String.toList, String.toList_append]
  rfl

end Text

namespace Listing

open Text

def opening (o : Options) (source : String) : String :=
  if o.combinedOutput then closeLine source ++ "\n" ++ separator ++ "\n" else ""

def ending (o : Options) : String := if o.combinedOutput then "\n" ++ blockClose ++ "\n" else ""

theorem render_eq (t : Tools) (darwin : Bool) (o : Options) (source captured : String) :
    render t darwin o source captured =
      opening o source ++ header t darwin o (marker o) ++ body captured ++ ending o := by
  by_cases h : o.combinedOutput = true
  · simp only [render, opening, ending, if_pos h, String.append_assoc]
  · simp only [render, opening, ending, if_neg h, String.empty_append, String.append_empty]

theorem toList_body (captured : Bytes) :
    (body (String.ofList (decodeLossy captured))).toList = shownBytes (closeBytes captured) := by
  by_cases hempty : captured = []
  · subst hempty
    rfl
  · have htext : String.ofList (decodeLossy captured) ≠ "" := by
      intro h
      have hchars := congrArg String.toList h
      rw [String.toList_ofList] at hchars
      exact hempty (decodeLossy_eq_nil_iff.mp hchars)
    have hlast := keepsCuts_shownBytes.getLast?_iff captured
    rw [body, if_neg htext, toList_closeLine, toList_expandTabs, String.toList_ofList, ← shownBytes,
      closeBytes]
    by_cases hclosed : captured.getLast? = some newline
    · rw [if_pos (hlast.mpr hclosed), if_pos (.inr hclosed)]
    · have hshown : shownBytes [] = [] := rfl
      rw [if_neg (mt hlast.mp hclosed), if_neg (by simp [hempty, hclosed]),
        keepsCuts_shownBytes.cut captured [], hshown]

theorem getLast?_closeBytes (bs : Bytes) :
    (closeBytes bs).getLast? = if bs = [] then none else some newline := by
  unfold closeBytes
  split_ifs <;> simp_all

theorem count_closeBytes (bs : Bytes) : (closeBytes bs).count newline = bs.count newline +
    if bs = [] ∨ bs.getLast? = some newline then 0 else 1 := by
  unfold closeBytes
  split_ifs <;> simp

theorem body_keeps_lines (t : Tools) (darwin : Bool) (o : Options) (source : String)
    (captured : Bytes) :
    let inserted := body (String.ofList (decodeLossy captured))
    renderBytes t darwin o source captured =
        opening o source ++ header t darwin o (marker o) ++ inserted ++ ending o ∧
      '\t' ∉ inserted.toList ∧
      inserted.toList.getLast? = (if captured = [] then none else some '\n') ∧
      inserted.toList.count '\n' = captured.count newline +
        (if captured = [] ∨ captured.getLast? = some newline then 0 else 1) ∧
      inserted.toList.splitOn '\n' = ((closeBytes captured).splitOn newline).map shownBytes ∧
      (∀ line, (decodeLossy line).splitOn '\t' = (line.splitOn tab).map decodeLossy) ∧
      Decodes captured (decodeLossy captured) := by
  intro inserted
  have hbody := toList_body captured
  refine ⟨render_eq t darwin o source _, ?_, ?_, ?_, ?_, ?_, decodes_decodeLossy captured⟩
  · rw [hbody]
    exact tab_notMem_onePass 0 _
  · rw [hbody]
    by_cases hempty : captured = []
    · subst hempty
      rfl
    · rw [if_neg hempty, keepsCuts_shownBytes.getLast?_iff, getLast?_closeBytes, if_neg hempty]
  · rw [hbody, keepsCuts_shownBytes.count, count_closeBytes]
  · rw [hbody, keepsCuts_shownBytes.splitOn]
  · exact (keepsCuts_decodeLossy (a := tab) (by decide)).splitOn

end Listing

end AsmLens
