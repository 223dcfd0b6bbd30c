import AsmLens.Proofs.TrimmedText
import AsmLens.Text.Wrap
import Mathlib.Algebra.GroupWithZero.Nat

namespace AsmLens.Text

section

variable (last : Option Char) {c : Char} (s : List Char)

theorem roomAfter_joined (d : Char) : roomAfter last (joiner :: d :: s) = roomAfter last s := by
  simp [roomAfter]

theorem roomAfter_selector :
    roomAfter last (selector :: s) = (if last.any isWidenable then 1 else 0) + roomAfter none s := by
  have hj : selector ≠ joiner := by decide
  rw [roomAfter.eq_def]
  simp [hj]

variable {s} (hj : c ≠ joiner) (hs : c ≠ selector)
include hj hs

theorem roomAfter_of_mark (hc : roomOf c = 0) : roomAfter last (c :: s) = roomAfter last s := by
  rw [roomAfter.eq_def]
  simp [hj, hs, hc]

theorem roomAfter_of_width (hc : roomOf c ≠ 0) :
    roomAfter last (c :: s) = roomOf c + roomAfter (some c) s := by
  rw [roomAfter.eq_def]
  simp [hj, hs, hc]

end

theorem room_le_roomAfter (last : Option Char) (s : List Char) : room s ≤ roomAfter last s := by
  unfold room
  fun_induction roomAfter last s with
  | case1 | case2 => simp [roomAfter]
  | case3 last d s ih => rwa [roomAfter_joined]
  | case4 last s hj =>
    rw [roomAfter_selector]
    simp
  | case5 last c s hj hs hc ih => rwa [roomAfter_of_mark none hj hs hc]
  | case6 last c s hj hs hc ih => exact Nat.le_of_eq (roomAfter_of_width none hj hs hc)

theorem roomAfter_le_append (last : Option Char) (s t : List Char) :
    roomAfter last s ≤ roomAfter last (s ++ t) := by
  fun_induction roomAfter last s with
  | case1 | case2 => exact Nat.zero_le _
  | case3 last d s ih => rwa [List.cons_append, List.cons_append, roomAfter_joined]
  | case4 last s hj ih =>
    rw [List.cons_append, roomAfter_selector]
    omega
  | case5 last c s hj hs hc ih => rwa [List.cons_append, roomAfter_of_mark last hj hs hc]
  | case6 last c s hj hs hc ih =>
    rw [List.cons_append, roomAfter_of_width last hj hs hc]
    omega

theorem getLast?_of_cons {c d : Char} {s : List Char} (h : d ∈ s.getLast?) :
    d ∈ (c :: s).getLast? := by
  cases s with
  | nil => contradiction
  | cons e s => rwa [List.getLast?_cons_cons]

theorem roomAfter_add_room_le (last : Option Char) {s : List Char}
    (h : ∀ c ∈ s.getLast?, c ≠ joiner) (t : List Char) :
    roomAfter last s + room t ≤ roomAfter last (s ++ t) := by
  fun_induction roomAfter last s with
  | case1 last => simpa using room_le_roomAfter last t
  | case2 last => exact absurd rfl (h joiner (by simp))
  | case3 last d s ih =>
    rw [List.cons_append, List.cons_append, roomAfter_joined]
    exact ih fun c hc => h c (getLast?_of_cons (getLast?_of_cons hc))
  | case4 last s hj ih =>
    have hle := ih fun c hc => h c (getLast?_of_cons hc)
    rw [List.cons_append, roomAfter_selector]
    omega
  | case5 last c s hj hs hc ih =>
    rw [List.cons_append, roomAfter_of_mark last hj hs hc]
    exact ih fun c hc => h c (getLast?_of_cons hc)
  | case6 last c s hj hs hc ih =>
    have hle := ih fun c hc => h c (getLast?_of_cons hc)
    rw [List.cons_append, roomAfter_of_width last hj hs hc]
    omega

theorem takeWhile_isBlank_ne_nil {s : List Char}
    (h : (s.dropWhile fun c => !isBlank c) ≠ []) :
    (s.dropWhile fun c => !isBlank c).takeWhile isBlank ≠ [] := by
  have hhead := List.head?_dropWhile_not (fun c => !isBlank c) s
  obtain ⟨c, rest, hrest⟩ := List.exists_cons_of_ne_nil h
  rw [hrest] at hhead ⊢
  have hc : isBlank c = true := by simpa using hhead
  simp [hc]

theorem sum_room_spacedWords_le (n : Nat) (s : List Char) :
    ((spacedWords n s).map room).sum ≤ room s := by
  fun_induction spacedWords n s with
  | case1 | case2 => simp
  | case3 n s lead rest word after hword ih =>
    have hs : s = lead ++ word ++ after.takeWhile isBlank ++ after.dropWhile isBlank := by
      simp only [lead, word, after, rest, List.append_assoc, List.takeWhile_append_dropWhile]
    rw [List.map_cons, List.sum_cons]
    by_cases hafter : after = []
    · -- The word is the last one.
      have hnil : room [] = 0 := rfl
      simp only [hafter, List.takeWhile_nil, List.dropWhile_nil, List.append_nil] at hs ih ⊢
      rw [hs]
      omega
    · have hblanks := List.getLast?_isSome.mpr (takeWhile_isBlank_ne_nil hafter)
      have hlast : ∀ c ∈ (lead ++ word ++ after.takeWhile isBlank).getLast?, c ≠ joiner := by
        intro c hc
        rw [List.getLast?_append, Option.or_of_isSome hblanks] at hc
        have hblank : isBlank c = true :=
          List.all_eq_true.mp List.all_takeWhile c (List.mem_of_getLast? hc)
        rintro rfl
        contradiction
      have hle := roomAfter_add_room_le none hlast (after.dropWhile isBlank)
      rw [← hs] at hle
      simp only [room] at hle ih ⊢
      omega

theorem lineStarts_eq_nil {width filled : Nat} {ws : List (List Char)}
    (h : filled + (ws.map room).sum ≤ width) (cuts : Bool) (start : Nat) :
    lineStarts cuts width filled start ws = [] := by
  induction ws generalizing filled start with
  | nil => rfl
  | cons w ws ih =>
    rw [List.map_cons, List.sum_cons] at h
    obtain ⟨blanks, hw⟩ := trimRight_prefix w
    have hneeded : room (trimRight w) ≤ room w := by
      have hle := roomAfter_le_append none (trimRight w) blanks
      rwa [hw] at hle
    rw [lineStarts, if_pos (by omega)]
    exact ih (by omega) _

theorem pieces_of_notMem {sep : Char} {s : List Char} (h : sep ∉ s) : pieces sep s = [s] := by
  induction s with
  | nil => rfl
  | cons c s ih =>
    simp only [List.mem_cons, not_or] at h
    rw [pieces, if_neg (Ne.symm h.1), ih h.2]

theorem pieces_append (sep : Char) (s t : List Char) :
    pieces sep (s ++ sep :: t) = pieces sep s ++ pieces sep t := by
  induction s with
  | nil => simp [pieces]
  | cons c s ih =>
    by_cases hc : c = sep
    · simp only [List.cons_append, pieces, hc, if_true, ih]
    · obtain ⟨p, ps, hps⟩ := List.exists_cons_of_ne_nil (pieces_ne_nil sep s)
      simp only [List.cons_append, pieces, hc, if_false, ih, hps]

theorem mem_pieces {sep : Char} {line : List Char} (h : sep ∉ line) (s t : List Char) :
    line ∈ pieces sep (s ++ sep :: (line ++ sep :: t)) := by
  rw [pieces_append, pieces_append, pieces_of_notMem h]
  simp

theorem trimRight_eq_self {s : List Char} (h : ∀ c ∈ s.getLast?, isBlank c = false) :
    trimRight s = s := by
  rw [← List.head?_reverse] at h
  rw [trimRight]
  cases hs : s.reverse with
  | nil => simpa using hs
  | cons c t =>
    have hc : isBlank c = false := h c (by rw [hs]; rfl)
    rw [List.dropWhile_cons_of_neg (by simp [hc]), ← hs, List.reverse_reverse]

structure Fits (width : Nat) (line : List Char) : Prop where
  room : room line ≤ width
  untabbed : '\t' ∉ line
  last : ∀ c ∈ line.getLast?, isBlank c = false

theorem Fits.wrapLine {width : Nat} {line : List Char} (h : Fits width line) (cuts : Bool) :
    wrapLine cuts width line = [line] := by
  have hwords := sum_room_spacedWords_le (line.length + 1) line
  have hroom := h.room
  have hexpand : expandLine fillRoom line = line := by
    rw [expandLine, pieces_of_notMem h.untabbed, fillPieces]
  rw [Text.wrapLine, hexpand, lineStarts_eq_nil (by omega), cutAt, List.map_singleton, trimBeyond,
    trimRight_eq_self h.last]
  simp

theorem flatMap_pieces (sep : Char) (s : List Char) :
    (pieces sep s).flatMap (· ++ [sep]) = s ++ [sep] := by
  induction s with
  | nil => rfl
  | cons c s ih =>
    by_cases hc : c = sep
    · rw [pieces, if_pos hc, List.flatMap_cons, ih, hc]
      rfl
    · obtain ⟨p, ps, hps⟩ := List.exists_cons_of_ne_nil (pieces_ne_nil sep s)
      rw [hps] at ih
      rw [pieces, if_neg hc, hps]
      simpa using ih

theorem flatMap_eq_self {α : Type} {f : α → List α} {xs : List α} (h : ∀ x ∈ xs, f x = [x]) :
    xs.flatMap f = xs := by
  induction xs with
  | nil => rfl
  | cons x xs ih =>
    rw [List.flatMap_cons, h x (by simp), ih fun y hy => h y (List.mem_cons_of_mem x hy),
      List.singleton_append]

def wrappedLines (width : Nat) (s : String) : List (List Char) :=
  ((pieces '\n' (shown s)).flatMap (wrapLine true width)).map (cropBeyond width)

theorem wrap_eq (width : Nat) (s : String) :
    wrap width s = String.ofList ((wrappedLines width s).flatMap (· ++ ['\n'])) := rfl

theorem cutAt_ne_nil (start : Nat) (s : List Char) (ps : List Nat) : cutAt start s ps ≠ [] := by
  cases ps <;> simp [cutAt]

theorem wrapLine_ne_nil (cuts : Bool) (width : Nat) (s : List Char) : wrapLine cuts width s ≠ [] := by
  simp [Text.wrapLine, cutAt_ne_nil]

theorem mem_wrappedLines {width : Nat} {s : String} (hshown : ∀ c ∈ s.toList, isShown c = true)
    {line piece : List Char} (hline : line ∈ pieces '\n' s.toList)
    (hpiece : piece ∈ wrapLine true width line) : cropBeyond width piece ∈ wrappedLines width s := by
  have hall : shown s = s.toList := List.filter_eq_self.mpr hshown
  refine List.mem_map_of_mem ?_
  rw [hall]
  exact List.mem_flatMap.mpr ⟨line, hline, hpiece⟩

theorem wrap_of_fits {width : Nat} {s : String} (hshown : ∀ c ∈ s.toList, isShown c = true)
    (h : ∀ line ∈ pieces '\n' s.toList, Fits width line) : wrap width s = s ++ "\n" := by
  have hall : shown s = s.toList := List.filter_eq_self.mpr hshown
  have hlines : (pieces '\n' s.toList).flatMap (wrapLine true width) = pieces '\n' s.toList :=
    flatMap_eq_self fun line hline => (h line hline).wrapLine true
  have hcrop : (pieces '\n' s.toList).map (cropBeyond width) = pieces '\n' s.toList := by
    refine (List.map_congr_left fun line hline => ?_).trans (List.map_id _)
    rw [cropBeyond, if_pos (h line hline).room, id]
  rw [wrap_eq, wrappedLines, hall, hlines, hcrop, flatMap_pieces]
  simp [String.ofList_append]

end AsmLens.Text
