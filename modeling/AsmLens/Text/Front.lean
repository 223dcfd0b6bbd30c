namespace AsmLens.Text

def drop? : List Char → List Char → Option (List Char)
  | [], s => some s
  | _ :: _, [] => none
  | a :: t, b :: s => if a = b then drop? t s else none

def starts (t s : List Char) : Bool := (drop? t s).isSome

def dropFront (t s : List Char) : List Char := (drop? t s).getD s

def holds (t : List Char) : List Char → Bool
  | [] => t.isEmpty
  | c :: s => starts t (c :: s) || holds t s

theorem drop?_eq_some_iff {t s rest : List Char} : drop? t s = some rest ↔ s = t ++ rest := by
  induction t generalizing s with
  | nil => simp [drop?, eq_comm]
  | cons a t ih =>
    cases s with
    | nil => simp [drop?]
    | cons b s =>
      by_cases h : a = b
      · simp [drop?, h, ih]
      · simp [drop?, h, Ne.symm h]

theorem starts_iff {t s : List Char} : starts t s = true ↔ t <+: s := by
  simp only [starts, Option.isSome_iff_exists, drop?_eq_some_iff]
  exact ⟨fun ⟨r, h⟩ => ⟨r, h.symm⟩, fun ⟨r, h⟩ => ⟨r, h.symm⟩⟩

theorem holds_iff {t s : List Char} : holds t s = true ↔ t <:+: s := by
  induction s with
  | nil => simp [holds]
  | cons c s ih => simp [holds, starts_iff, ih, List.infix_cons_iff]

end AsmLens.Text
