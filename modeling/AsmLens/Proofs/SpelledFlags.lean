import AsmLens.Proofs.FlagSequence
import Mathlib.Data.List.Basic

namespace AsmLens

namespace Text

structure TrimmedTo (s t : List Char) : Prop where
  around : ∃ left right, s = left ++ t ++ right ∧ left.all isBlank = true ∧ right.all isBlank = true
  trimmed : Trimmed t

theorem trimmedTo_trimChars (s : List Char) : TrimmedTo s (trimChars s) where
  around := by
    obtain ⟨right, hright⟩ := trimRight_prefix (trimLeft s)
    refine ⟨s.takeWhile isBlank, right, ?_, List.all_takeWhile, ?_⟩
    · rw [List.append_assoc, trimChars, hright, trimLeft, List.takeWhile_append_dropWhile]
    · -- What is cut off at the end are the blanks that the reversed text starts with.
      have hends : trimLeft s = trimRight (trimLeft s) ++
          ((trimLeft s).reverse.takeWhile isBlank).reverse := by
        rw [trimRight, ← List.reverse_append, List.takeWhile_append_dropWhile, List.reverse_reverse]
      rw [List.append_cancel_left (hright.trans hends), List.all_reverse]
      exact List.all_takeWhile
  trimmed := trimmed_trimChars s

theorem TrimmedTo.eq {s t : List Char} (h : TrimmedTo s t) : t = trimChars s := by
  obtain ⟨left, right, rfl, hleft, hright⟩ := h.around
  by_cases ht : t = []
  · subst ht
    refine (trimChars_eq_nil_iff.mpr ?_).symm
    rw [List.append_nil, List.all_append, hleft, hright]
    rfl
  · have hfirst : ∀ c, (t ++ right).head? = some c → isBlank c = false := by
      rw [List.head?_append_of_ne_nil t ht]
      exact h.trimmed.first
    have hlast : ∀ c, t.reverse.head? = some c → isBlank c = false := by
      rw [List.head?_reverse]
      exact h.trimmed.last
    have hcut : trimLeft (left ++ t ++ right) = t ++ right := by
      rw [trimLeft, List.append_assoc, List.dropWhile_append_of_pos (List.all_eq_true.mp hleft),
        dropWhile_eq_self hfirst]
    have hblank : ∀ c ∈ right.reverse, isBlank c = true := by
      rw [← List.all_eq_true, List.all_reverse]
      exact hright
    rw [trimChars, hcut, trimRight, List.reverse_append, List.dropWhile_append_of_pos hblank,
      dropWhile_eq_self hlast, List.reverse_reverse]

theorem trimmedTo_iff {s t : List Char} : TrimmedTo s t ↔ t = trimChars s :=
  ⟨TrimmedTo.eq, fun h => h ▸ trimmedTo_trimChars s⟩

end Text

namespace Flag

/-- The rest of a text after the longest of these spellings that it starts with. -/
def Unspelled (spellings : List (List Char)) (t rest : List Char) : Prop :=
  ∃ p ∈ spellings, t = p ++ rest ∧ ∀ q ∈ spellings, q <+: t → q.length ≤ p.length

theorem Unspelled.unique {spellings : List (List Char)} {t rest rest' : List Char}
    (h : Unspelled spellings t rest) (h' : Unspelled spellings t rest') : rest = rest' := by
  obtain ⟨p, hp, rfl, hlongest⟩ := h
  obtain ⟨q, hq, hsplit, hlongest'⟩ := h'
  have hlength : p.length = q.length :=
    Nat.le_antisymm (hlongest' p hp (List.prefix_append p rest))
      (hlongest q hq (hsplit ▸ List.prefix_append q rest'))
  exact (List.append_inj hsplit hlength).2

def warningSpellings : List (List Char) := [[], ['W'], ['-', 'W']]

def includeSpellings : List (List Char) := [[], ['-', 'I']]

theorem unspelled_stripWarning (t : List Char) : Unspelled warningSpellings t (stripWarning t) := by
  unfold stripWarning
  cases hlong : Text.drop? ['-', 'W'] t with
  | some rest =>
    rw [Text.drop?_eq_some_iff] at hlong
    have hlongest : ∀ q ∈ warningSpellings, q.length ≤ ['-', 'W'].length := by decide
    exact ⟨['-', 'W'], by decide, hlong, fun q hq _ => hlongest q hq⟩
  | none =>
    have hnot : ¬['-', 'W'] <+: t := by simp [← Text.starts_iff, Text.starts, hlong]
    cases hshort : Text.drop? ['W'] t with
    | some rest =>
      rw [Text.dropFront, hshort, Option.getD_some]
      rw [Text.drop?_eq_some_iff] at hshort
      refine ⟨['W'], by decide, hshort, ?_⟩
      simp [warningSpellings, hnot]
    | none =>
      rw [Text.dropFront, hshort, Option.getD_none]
      have hnot' : ¬['W'] <+: t := by simp [← Text.starts_iff, Text.starts, hshort]
      refine ⟨[], by decide, rfl, ?_⟩
      simp [warningSpellings, hnot, hnot']

theorem unspelled_stripInclude (t : List Char) : Unspelled includeSpellings t (stripInclude t) := by
  unfold stripInclude Text.dropFront
  cases hdrop : Text.drop? ['-', 'I'] t with
  | some rest =>
    rw [Option.getD_some]
    rw [Text.drop?_eq_some_iff] at hdrop
    have hlongest : ∀ q ∈ includeSpellings, q.length ≤ ['-', 'I'].length := by decide
    exact ⟨['-', 'I'], by decide, hdrop, fun q hq _ => hlongest q hq⟩
  | none =>
    rw [Option.getD_none]
    have hnot : ¬['-', 'I'] <+: t := by simp [← Text.starts_iff, Text.starts, hdrop]
    refine ⟨[], by decide, rfl, ?_⟩
    simp [includeSpellings, hnot]

def Remainder (spellings : List (List Char)) (s : String) (rest : List Char) : Prop :=
  ∃ t, Text.TrimmedTo s.toList t ∧ Unspelled spellings t rest

theorem Remainder.unique {spellings : List (List Char)} {s : String} {rest rest' : List Char}
    (h : Remainder spellings s rest) (h' : Remainder spellings s rest') : rest = rest' := by
  obtain ⟨t, ht, hrest⟩ := h
  obtain ⟨t', ht', hrest'⟩ := h'
  rw [ht'.eq, ← ht.eq] at hrest'
  exact hrest.unique hrest'

theorem remainder_warningStem (s : String) : Remainder warningSpellings s (warningStem s) :=
  ⟨_, Text.trimmedTo_trimChars s.toList, unspelled_stripWarning _⟩

theorem remainder_includeStem (s : String) : Remainder includeSpellings s (includeStem s) :=
  ⟨_, Text.trimmedTo_trimChars s.toList, unspelled_stripInclude _⟩

structure IsSwitch (switch : String) (spellings : List (List Char)) : Prop where
  mem : switch.toList ∈ spellings
  longest : ∀ q ∈ spellings, q.length ≤ switch.toList.length
  ink : switch.toList ≠ []
  trimmed : Text.Trimmed switch.toList

theorem isSwitch_warning : IsSwitch "-W" warningSpellings :=
  ⟨by decide, by decide, by decide, Text.trimmed_of_trimChars (by decide)⟩

theorem isSwitch_include : IsSwitch "-I" includeSpellings :=
  ⟨by decide, by decide, by decide, Text.trimmed_of_trimChars (by decide)⟩

section

variable {switch s : String} {spellings : List (List Char)} {rest : List Char}

theorem IsSwitch.trimmed_append (h : IsSwitch switch spellings) (hrest : Remainder spellings s rest) :
    Text.Trimmed (switch ++ String.ofList rest).toList := by
  obtain ⟨t, ht, p, -, rfl, -⟩ := hrest
  rw [String.toList_append, String.toList_ofList]
  constructor
  · rw [List.head?_append_of_ne_nil _ h.ink]
    exact h.trimmed.first
  · by_cases hrest : rest = []
    · rw [hrest, List.append_nil]
      exact h.trimmed.last
    · rw [List.getLast?_append_of_ne_nil _ hrest, ← List.getLast?_append_of_ne_nil p hrest]
      exact ht.trimmed.last

theorem IsSwitch.remainder_append (h : IsSwitch switch spellings)
    (hrest : Remainder spellings s rest) : Remainder spellings (switch ++ String.ofList rest) rest := by
  refine ⟨_, Text.trimmedTo_iff.mpr (h.trimmed_append hrest).trimChars_eq.symm, switch.toList, h.mem, ?_,
    fun q hq _ => h.longest q hq⟩
  rw [String.toList_append, String.toList_ofList]

end

structure NormalForm (switch : String) (spellings : List (List Char)) (f : String → String) :
    Prop where
  idempotent : ∀ s, f (f s) = f s
  eq_empty_iff : ∀ s, f s = "" ↔ Text.isBlankText s = true
  carries : ∀ s, Text.isBlankText s = false → ∃ rest, Remainder spellings s rest ∧
    f s = switch ++ String.ofList rest ∧ Text.Trimmed (f s).toList

theorem normalForm_of_stem {switch : String} {spellings : List (List Char)}
    (hswitch : IsSwitch switch spellings) {f : String → String} {stem : String → List Char}
    (hstem : ∀ s, Remainder spellings s (stem s))
    (hblank : ∀ s, Text.isBlankText s = true → f s = "")
    (hink : ∀ s, Text.isBlankText s = false → f s = switch ++ String.ofList (stem s) ∧
      Text.isBlankText (switch ++ String.ofList (stem s)) = false) :
    NormalForm switch spellings f where
  idempotent := by
    intro s
    cases hs : Text.isBlankText s with
    | true => rw [hblank s hs, hblank "" rfl]
    | false =>
      obtain ⟨hf, hflag⟩ := hink s hs
      have hsame := (hstem _).unique (hswitch.remainder_append (hstem s))
      rw [hf, (hink _ hflag).1, hsame]
  eq_empty_iff := by
    intro s
    cases hs : Text.isBlankText s with
    | true => exact iff_of_true (hblank s hs) rfl
    | false =>
      obtain ⟨hf, hflag⟩ := hink s hs
      refine iff_of_false ?_ Bool.false_ne_true
      intro hempty
      rw [← hf, hempty] at hflag
      contradiction
  carries := by
    intro s hs
    have hf := (hink s hs).1
    exact ⟨stem s, hstem s, hf, hf ▸ hswitch.trimmed_append (hstem s)⟩

theorem normalForm_toWarning : NormalForm "-W" warningSpellings toWarning :=
  normalForm_of_stem isSwitch_warning remainder_warningStem toWarning_of_blank toWarning_of_ink

theorem normalForm_toInclude : NormalForm "-I" includeSpellings toInclude :=
  normalForm_of_stem isSwitch_include remainder_includeStem toInclude_of_blank toInclude_of_ink

theorem NormalForm.eq_iff {switch : String} {spellings : List (List Char)} {f : String → String}
    (h : NormalForm switch spellings f) {a b : String} (ha : Text.isBlankText a = false)
    (hb : Text.isBlankText b = false) :
    f a = f b ↔ ∃ rest, Remainder spellings a rest ∧ Remainder spellings b rest := by
  obtain ⟨rest, hrest, hfa, -⟩ := h.carries a ha
  obtain ⟨rest', hrest', hfb, -⟩ := h.carries b hb
  rw [hfa, hfb, String.append_right_inj, String.ofList_inj]
  constructor
  · rintro rfl
    exact ⟨rest, hrest, hrest'⟩
  · rintro ⟨common, ha, hb⟩
    rw [hrest.unique ha, hrest'.unique hb]

theorem flag_spellings :
    NormalForm "-W" warningSpellings toWarning ∧ NormalForm "-I" includeSpellings toInclude ∧
      ∀ a b, Text.isBlankText a = false → Text.isBlankText b = false →
        (toWarning a = toWarning b ↔
          ∃ rest, Remainder warningSpellings a rest ∧ Remainder warningSpellings b rest) :=
  ⟨normalForm_toWarning, normalForm_toInclude, fun _ _ ha hb => normalForm_toWarning.eq_iff ha hb⟩

theorem flag_spellings_doubled :
    Text.isBlankText "-WW all" = false ∧ Text.isBlankText " WW all\t" = false ∧
      toWarning "-WW all" = toWarning " WW all\t" ∧
      toInclude (toInclude "-I-I") = toInclude "-I-I" ∧ toInclude "-I-I" = "-I-I" := by
  obtain ⟨-, hinclude, hsame⟩ := flag_spellings
  have hstem : warningStem " WW all\t" = warningStem "-WW all" := by decide
  refine ⟨by decide, by decide, ?_, hinclude.idempotent "-I-I", by decide⟩
  refine (hsame _ _ (by decide) (by decide)).mpr ⟨_, remainder_warningStem "-WW all", ?_⟩
  rw [← hstem]
  exact remainder_warningStem " WW all\t"

end Flag

end AsmLens
