import AsmLens.Text.Tabs

namespace AsmLens.Text

def toStop (column : Nat) : Nat := tabWidth - column % tabWidth

def columnAfter (column : Nat) (c : Char) : Nat := if c = '\n' then 0 else column + 1

def columnFrom (column : Nat) (s : List Char) : Nat := s.foldl columnAfter column

def onePass (column : Nat) : List Char → List Char
  | [] => []
  | c :: s =>
    if c = '\t' then List.replicate (toStop column) ' ' ++ onePass (column + toStop column) s
    else c :: onePass (columnAfter column c) s

theorem toStop_bounds (column : Nat) :
    1 ≤ toStop column ∧ toStop column ≤ tabWidth ∧ tabWidth ∣ column + toStop column := by
  simp only [toStop, tabWidth]
  omega

theorem columnFrom_append (column : Nat) (s t : List Char) :
    columnFrom column (s ++ t) = columnFrom (columnFrom column s) t := List.foldl_append

theorem columnFrom_blanks (column n : Nat) :
    columnFrom column (List.replicate n ' ') = column + n := by
  induction n generalizing column with
  | zero => rfl
  | succ n ih =>
    have hstep : columnFrom column (List.replicate (n + 1) ' ') =
        columnFrom (column + 1) (List.replicate n ' ') := rfl
    rw [hstep, ih]
    omega

section

variable (column : Nat)

theorem onePass_tab (s : List Char) : onePass column ('\t' :: s) =
    List.replicate (toStop column) ' ' ++ onePass (column + toStop column) s := rfl

theorem onePass_newline (s : List Char) : onePass column ('\n' :: s) = '\n' :: onePass 0 s := rfl

theorem onePass_append (s t : List Char) :
    onePass column (s ++ t) =
      onePass column s ++ onePass (columnFrom column (onePass column s)) t := by
  induction s generalizing column with
  | nil => rfl
  | cons c s ih =>
    by_cases hc : c = '\t'
    · subst hc
      rw [List.cons_append, onePass_tab, onePass_tab, ih, columnFrom_append, columnFrom_blanks,
        List.append_assoc]
    · simp only [List.cons_append, onePass, if_neg hc, ih]
      rfl

theorem onePass_of_notMem {s : List Char} (h : '\t' ∉ s) : onePass column s = s := by
  induction s generalizing column with
  | nil => rfl
  | cons c s ih =>
    obtain ⟨hc, hs⟩ := not_or.mp (mt List.mem_cons.mpr h)
    rw [onePass, if_neg (Ne.symm hc), ih _ hs]

theorem tab_notMem_onePass (s : List Char) : '\t' ∉ onePass column s := by
  induction s generalizing column with
  | nil => exact List.not_mem_nil
  | cons c s ih =>
    by_cases hc : c = '\t'
    · subst hc
      rw [onePass_tab]
      simp [ih]
    · rw [onePass, if_neg hc]
      simp [ih, Ne.symm hc]

end

theorem onePass_joinPieces (lines : List (List Char)) :
    onePass 0 (joinPieces ['\n'] lines) = joinPieces ['\n'] (lines.map (onePass 0)) := by
  induction lines with
  | nil => rfl
  | cons line lines ih =>
    cases lines with
    | nil => rfl
    | cons next lines =>
      have hjoin : joinPieces ['\n'] (line :: next :: lines) =
          line ++ '\n' :: joinPieces ['\n'] (next :: lines) := List.append_assoc _ _ _
      rw [hjoin, onePass_append, onePass_newline, ih]
      exact (List.append_assoc _ ['\n'] _).symm

theorem fillPieces_eq {s p q : List Char} {qs : List (List Char)} {column : Nat}
    (hs : '\n' ∉ s) (hcolumn : tabWidth ∣ column) (hq : pieces '\t' s = q :: qs) :
    fillPieces fillToStop ((p ++ q) :: qs) = p ++ onePass (column + p.length) s := by
  induction s generalizing p q qs column with
  | nil =>
    obtain ⟨rfl, rfl⟩ : [] = q ∧ [] = qs := by simpa [pieces] using hq
    rfl
  | cons c s ih =>
    obtain ⟨hc, hrest⟩ := not_or.mp (mt List.mem_cons.mpr hs)
    obtain ⟨q', qs', hq'⟩ := List.exists_cons_of_ne_nil (pieces_ne_nil '\t' s)
    by_cases htab : c = '\t'
    · subst htab
      obtain ⟨rfl, rfl⟩ : [] = q ∧ q' :: qs' = qs := by simpa [pieces, hq'] using hq
      have hfill : tabWidth - p.length % tabWidth = toStop (column + p.length) := by
        rw [toStop, Nat.add_mod, Nat.dvd_iff_mod_eq_zero.mp hcolumn, Nat.zero_add, Nat.mod_mod]
      have hpieces : fillPieces fillToStop (p :: q' :: qs') =
          fillToStop p ++ fillPieces fillToStop (q' :: qs') := rfl
      have hnext := ih (p := []) hrest (toStop_bounds (column + p.length)).2.2 hq'
      simp only [List.nil_append, List.length_nil, Nat.add_zero] at hnext
      rw [List.append_nil, hpieces, hnext, fillToStop, hfill, onePass_tab, List.append_assoc]
    · obtain ⟨rfl, rfl⟩ : c :: q' = q ∧ qs' = qs := by simpa [pieces, hq', htab] using hq
      have hnext := ih (p := p ++ [c]) hrest hcolumn hq'
      rw [onePass, if_neg htab, columnAfter, if_neg (Ne.symm hc)]
      simpa [Nat.add_assoc] using hnext

theorem expandLine_eq_onePass {line : List Char} (h : '\n' ∉ line) :
    expandLine fillToStop line = onePass 0 line := by
  obtain ⟨q, qs, hq⟩ := List.exists_cons_of_ne_nil (pieces_ne_nil '\t' line)
  have hline := fillPieces_eq (p := []) h (Nat.dvd_zero tabWidth) hq
  rw [expandLine, hq]
  exact hline

theorem expandChars_eq_onePass (s : List Char) : expandChars s = onePass 0 s := by
  have hlines : (pieces '\n' s).map (expandLine fillToStop) = (pieces '\n' s).map (onePass 0) :=
    List.map_congr_left fun line hline => expandLine_eq_onePass (notMem_of_mem_pieces hline)
  rw [expandChars, hlines, ← onePass_joinPieces, joinPieces_pieces]

theorem toList_expandTabs (s : String) : (expandTabs s).toList = onePass 0 s.toList := by
  rw [expandTabs, String.toList_ofList, expandChars_eq_onePass]

def StartsSegment (before : List Char) : Prop := ∀ c ∈ before.getLast?, c = '\t' ∨ c = '\n'

theorem tabWidth_dvd_columnFrom {before : List Char} (h : StartsSegment before) :
    tabWidth ∣ columnFrom 0 (onePass 0 before) := by
  rcases List.eq_nil_or_concat before with rfl | ⟨init, c, rfl⟩
  · exact Nat.dvd_zero tabWidth
  · rw [List.concat_eq_append, onePass_append, columnFrom_append]
    generalize columnFrom 0 (onePass 0 init) = column
    rcases h c (by simp) with rfl | rfl
    · rw [onePass_tab, onePass, List.append_nil, columnFrom_blanks]
      exact (toStop_bounds column).2.2
    · exact Nat.dvd_zero tabWidth

theorem expandTabs_onePass (s : String) :
    expandTabs s = String.ofList (onePass 0 s.toList) ∧
      (∀ column, 1 ≤ toStop column ∧ toStop column ≤ tabWidth) ∧
      (∀ before segment rest, s.toList = before ++ segment ++ rest → StartsSegment before →
        '\t' ∉ segment →
        let shown := onePass 0 before
        tabWidth ∣ columnFrom 0 shown ∧
          (expandTabs s).toList =
            shown ++ segment ++ onePass (columnFrom 0 (shown ++ segment)) rest) ∧
      '\t' ∉ (expandTabs s).toList ∧ expandTabs (expandTabs s) = expandTabs s := by
  have hnone : '\t' ∉ (expandTabs s).toList := by
    rw [toList_expandTabs]
    exact tab_notMem_onePass 0 _
  refine ⟨?_, ?_, ?_, hnone, ?_⟩
  · rw [← toList_expandTabs, String.ofList_toList]
  · exact fun column => ⟨(toStop_bounds column).1, (toStop_bounds column).2.1⟩
  · intro before segment rest hs hstart hsegment shown
    have hcopied : onePass (columnFrom 0 shown) segment = segment := onePass_of_notMem _ hsegment
    refine ⟨tabWidth_dvd_columnFrom hstart, ?_⟩
    rw [toList_expandTabs, hs, onePass_append, onePass_append, hcopied]
  · rw [← String.toList_inj, toList_expandTabs, onePass_of_notMem 0 hnone]

theorem expandTabs_onePass_listing :
    let s := "f:\n\tmovl\t$0, %eax\n"
    expandTabs s = "f:\n        movl    $0, %eax\n" ∧
      StartsSegment "f:\n\tmovl\t".toList ∧ '\t' ∉ "$0, %eax".toList ∧
      tabWidth ∣ columnFrom 0 (onePass 0 "f:\n\tmovl\t".toList) := by
  intro s
  obtain ⟨hpass, -, hsegments, -⟩ := expandTabs_onePass s
  have hstart : StartsSegment "f:\n\tmovl\t".toList := by
    intro c hc
    exact .inl (Option.some.inj (hc.symm.trans (by decide)))
  have hsegment : '\t' ∉ "$0, %eax".toList := by decide
  obtain ⟨hcolumn, -⟩ := hsegments "f:\n\tmovl\t".toList "$0, %eax".toList ['\n'] (by decide) hstart
    hsegment
  refine ⟨?_, hstart, hsegment, hcolumn⟩
  rw [hpass]
  decide

end AsmLens.Text
