import AsmLens.Text.Blank

namespace AsmLens.Text

structure Trimmed (s : List Char) : Prop where
  first : ∀ c, s.head? = some c → isBlank c = false
  last : ∀ c, s.getLast? = some c → isBlank c = false

theorem head?_dropWhile {s : List Char} {c : Char} (h : (s.dropWhile isBlank).head? = some c) :
    isBlank c = false := by
  have hs := List.head?_dropWhile_not isBlank s
  rw [h] at hs
  exact hs

theorem trimRight_prefix (s : List Char) : trimRight s <+: s := by
  rw [← List.reverse_suffix, trimRight, List.reverse_reverse]
  exact List.dropWhile_suffix isBlank

theorem trimmed_trimChars (s : List Char) : Trimmed (trimChars s) where
  first := by
    intro c hc
    obtain ⟨rest, hrest⟩ := trimRight_prefix (trimLeft s)
    apply head?_dropWhile (s := s)
    rw [← trimLeft, ← hrest, List.head?_append]
    exact Option.or_eq_some_iff.mpr (.inl hc)
  last := by
    intro c hc
    rw [trimChars, trimRight, List.getLast?_reverse] at hc
    exact head?_dropWhile hc

theorem trimmed_of_trimChars {s : List Char} (h : trimChars s = s) : Trimmed s := by
  rw [← h]
  exact trimmed_trimChars s

theorem dropWhile_eq_self {s : List Char} (h : ∀ c, s.head? = some c → isBlank c = false) :
    s.dropWhile isBlank = s := by
  cases s with
  | nil => rfl
  | cons c s => rw [List.dropWhile_cons_of_neg (by simp [h c rfl])]

theorem Trimmed.trimChars_eq {s : List Char} (h : Trimmed s) : trimChars s = s := by
  have hlast : s.reverse.dropWhile isBlank = s.reverse := by
    apply dropWhile_eq_self
    rw [List.head?_reverse]
    exact h.last
  rw [trimChars, trimLeft, dropWhile_eq_self h.first, trimRight, hlast, List.reverse_reverse]

theorem trimChars_eq_nil_iff {s : List Char} : trimChars s = [] ↔ s.all isBlank = true := by
  rw [trimChars, trimRight_eq_nil_iff, trimLeft, ← dropWhile_eq_nil_iff_all, ← dropWhile_eq_nil_iff_all]
  constructor
  · intro h
    cases hs : s.dropWhile isBlank with
    | nil => rfl
    | cons c rest =>
      have hc : isBlank c = false := head?_dropWhile (s := s) (by rw [hs]; rfl)
      rw [hs, List.dropWhile_cons_of_neg (by simp [hc])] at h
      exact h
  · intro h
    rw [h]
    rfl

end AsmLens.Text
