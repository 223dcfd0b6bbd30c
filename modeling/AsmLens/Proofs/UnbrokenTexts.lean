import AsmLens.Json.Reader
import Mathlib.Tactic.SplitIfs

namespace AsmLens.Json

inductive Place where
  | outside
  | inside
  | escaped
  deriving DecidableEq, Repr

def Place.step : Place → Char → Option Place
  | .outside, c => some (if c = '"' then .inside else .outside)
  | .inside, c =>
    if c = '"' then some .outside
    else if c.toNat < 0x20 then none
    else some (if c = '\\' then .escaped else .inside)
  | .escaped, c => if c.toNat < 0x20 then none else some .inside

/-- Where a text that begins at `p` ends, if it holds no control character inside of quotes. -/
def Place.after (p : Place) (s : List Char) : Option Place := s.foldlM Place.step p

namespace Place

theorem after_cons (p : Place) (c : Char) (s : List Char) :
    p.after (c :: s) = (p.step c).bind fun q => q.after s := by
  simp only [after, List.foldlM_cons, bind]

theorem after_append (p : Place) (s t : List Char) :
    p.after (s ++ t) = (p.after s).bind fun q => q.after t := by
  simp only [after, List.foldlM_append, bind]

theorem after_of_stays {p : Place} {g : List Char} (h : ∀ c ∈ g, p.step c = some p) (s : List Char) :
    p.after (g ++ s) = p.after s := by
  induction g with
  | nil => rfl
  | cons c g ih =>
    rw [List.cons_append, after_cons, h c List.mem_cons_self, Option.bind_some]
    exact ih fun d hd => h d (List.mem_cons_of_mem c hd)

theorem of_after_line {p : Place} {line rest : List Char}
    (h : outside.after (line ++ '\n' :: rest) = some p) :
    outside.after line = some outside ∧ outside.after rest = some p := by
  rw [after_append] at h
  obtain ⟨q, hq, h⟩ := Option.bind_eq_some_iff.mp h
  rw [after_cons] at h
  cases q with
  | outside => exact ⟨hq, h⟩
  | inside => contradiction
  | escaped => contradiction

theorem of_after_lines {p : Place} {lines : List (List Char)}
    (h : outside.after (lines.flatMap (· ++ ['\n'])) = some p) :
    ∀ line ∈ lines, outside.after line = some outside := by
  induction lines with
  | nil => exact nofun
  | cons line lines ih =>
    rw [List.flatMap_cons, List.append_assoc, List.singleton_append] at h
    obtain ⟨hline, hrest⟩ := of_after_line h
    exact List.forall_mem_cons.mpr ⟨hline, ih hrest⟩

end Place

open Place

theorem rest_of_read {α : Type} {x y : α} {s rest : List Char} (h : some (x, s) = some (y, rest)) :
    s = rest :=
  (Prod.mk.inj (Option.some.inj h)).2

theorem step_inside {c : Char} (h : 0x20 ≤ c.toNat) (hquote : c ≠ '"') (hslash : c ≠ '\\') :
    inside.step c = some inside := by
  rw [step, if_neg hquote, if_neg (by omega), if_neg hslash]

theorem after_escape {c : Char} (h : 0x20 ≤ c.toNat) (s : List Char) :
    inside.after ('\\' :: c :: s) = inside.after s := by
  rw [after_cons, show inside.step '\\' = some escaped from rfl, Option.bind_some, after_cons, step,
    if_neg (by omega), Option.bind_some]

theorem isSome_of_hexValue? {ds : List Char} {n : Nat} (h : Text.hexValue? ds = some n) :
    ∀ c ∈ ds, (Text.hexDigitValue? c).isSome = true := by
  unfold Text.hexValue? at h
  generalize some 0 = acc at h
  induction ds generalizing acc with
  | nil => exact nofun
  | cons c ds ih =>
    rw [List.foldl_cons] at h
    refine List.forall_mem_cons.mpr ⟨?_, ih _ h⟩
    -- Once there is no value there is none at the end.
    have hnone : ds.foldl (fun acc c => do return 16 * (← acc) + (← Text.hexDigitValue? c))
        (none : Option Nat) = none := by
      clear ih h
      induction ds with
      | nil => rfl
      | cons d ds ih => exact ih
    cases hc : Text.hexDigitValue? c with
    | some d => rfl
    | none =>
      have hacc : (do return 16 * (← acc) + (← Text.hexDigitValue? c) : Option Nat) = none := by
        rw [hc]
        cases acc <;> rfl
      rw [hacc, hnone] at h
      contradiction

theorem step_hexDigit {c : Char} (h : (Text.hexDigitValue? c).isSome = true) :
    inside.step c = some inside := by
  have hrange : 0x30 ≤ c.toNat ∧ c.toNat ≤ 0x46 ∨ 0x61 ≤ c.toNat ∧ c.toNat ≤ 0x66 := by
    unfold Text.hexDigitValue? at h
    split_ifs at h with hdigit hlower hupper
    · simp only [Bool.and_eq_true, decide_eq_true_eq, Char.le_def, UInt32.le_iff_toNat_le] at hdigit
      have hlow : 0x30 ≤ c.toNat := hdigit.1
      have hhigh : c.toNat ≤ 0x39 := hdigit.2
      omega
    · simp only [Bool.and_eq_true, decide_eq_true_eq, Char.le_def, UInt32.le_iff_toNat_le] at hlower
      exact .inr hlower
    · simp only [Bool.and_eq_true, decide_eq_true_eq, Char.le_def, UInt32.le_iff_toNat_le] at hupper
      have hlow : 0x41 ≤ c.toNat := hupper.1
      have hhigh : c.toNat ≤ 0x46 := hupper.2
      omega
    · contradiction
  refine step_inside (by omega) ?_ ?_
  · rintro rfl
    exact absurd hrange (by decide)
  · rintro rfl
    exact absurd hrange (by decide)

theorem after_readHex? {n m : Nat} {s rest : List Char} (h : Text.readHex? n s = some (m, rest)) :
    inside.after s = inside.after rest := by
  unfold Text.readHex? at h
  split at h
  · contradiction
  · obtain ⟨k, hk, hrest⟩ := Option.map_eq_some_iff.mp h
    obtain ⟨-, rfl⟩ := Prod.mk.inj hrest
    have hstays := after_of_stays (fun c hc => step_hexDigit (isSome_of_hexValue? hk c hc)) (s.drop n)
    rwa [List.take_append_drop] at hstays

theorem after_readUnits? {c : Char} {s rest : List Char} (h : readUnits? s = some (c, rest)) :
    inside.after s = inside.after rest := by
  unfold readUnits? at h
  obtain ⟨⟨n, first⟩, hfirst, h⟩ := Option.bind_eq_some_iff.mp h
  rw [after_readHex? hfirst]
  simp only at h
  split at h
  · split at h
    · rename_i more
      obtain ⟨⟨m, second⟩, hsecond, h⟩ := Option.bind_eq_some_iff.mp h
      simp only at h
      split at h
      · obtain rfl := rest_of_read h
        exact (after_escape (by decide) more).trans (after_readHex? hsecond)
      · obtain rfl := rest_of_read h
        rfl
    · obtain rfl := rest_of_read h
      rfl
  · split at h
    · obtain rfl := rest_of_read h
      rfl
    · obtain rfl := rest_of_read h
      rfl

theorem shown_of_shortEscape? {c d : Char} (h : shortEscape? c = some d) : 0x20 ≤ c.toNat := by
  unfold shortEscape? at h
  split_ifs at h with hself hn hr ht hf hb
  · simp only [Bool.or_eq_true, decide_eq_true_eq] at hself
    rcases hself with (rfl | rfl) | rfl <;> decide
  · exact hn ▸ by decide
  · exact hr ▸ by decide
  · exact ht ▸ by decide
  · exact hf ▸ by decide
  · exact hb ▸ by decide

theorem after_readQuoted? {n : Nat} {s cs rest : List Char} (h : readQuoted? n s = some (cs, rest)) :
    inside.after s = outside.after rest := by
  fun_induction readQuoted? n s generalizing cs rest with
  | case1 | case2 => contradiction
  | case3 n s =>
    rename_i ih
    obtain ⟨⟨c, more⟩, hunits, h⟩ := Option.bind_eq_some_iff.mp h
    obtain ⟨⟨ds, last⟩, hread, h⟩ := Option.bind_eq_some_iff.mp h
    obtain rfl := rest_of_read h
    rw [after_escape (by decide), after_readUnits? hunits]
    exact ih more hread
  | case4 n c s =>
    rename_i ih
    obtain ⟨⟨d, more⟩, hshort, h⟩ := Option.bind_eq_some_iff.mp h
    obtain ⟨e, hescape, hmore⟩ := Option.map_eq_some_iff.mp hshort
    obtain ⟨-, rfl⟩ := Prod.mk.inj hmore
    obtain ⟨⟨ds, last⟩, hread, h⟩ := Option.bind_eq_some_iff.mp h
    obtain rfl := rest_of_read h
    rw [after_escape (shown_of_shortEscape? hescape)]
    exact ih s hread
  | case5 =>
    obtain rfl := rest_of_read h
    rfl
  | case6 => contradiction
  | case7 n c s _ hquote hplain ih =>
    obtain ⟨⟨ds, last⟩, hread, h⟩ := Option.bind_eq_some_iff.mp h
    obtain rfl := rest_of_read h
    simp only [Bool.or_eq_true, decide_eq_true_eq, not_or] at hplain
    rw [after_cons, step_inside (by omega) hquote hplain.1]
    exact ih hread

theorem after_readText? {s rest : List Char} {t : String} (h : readText? s = some (t, rest)) :
    outside.after s = outside.after rest := by
  unfold readText? at h
  split at h
  · obtain ⟨⟨cs, more⟩, hread, h⟩ := Option.bind_eq_some_iff.mp h
    obtain rfl := rest_of_read h
    exact after_readQuoted? hread
  · contradiction

def Passes (s rest : List Char) : Prop := ∃ g, s = g ++ rest ∧ '"' ∉ g

theorem Passes.after {s rest : List Char} (h : Passes s rest) :
    outside.after s = outside.after rest := by
  obtain ⟨g, rfl, hg⟩ := h
  refine after_of_stays (fun c hc => ?_) rest
  rw [step, if_neg (by rintro rfl; exact hg hc)]

theorem Passes.refl (s : List Char) : Passes s s := ⟨[], rfl, nofun⟩

theorem Passes.trans {s t u : List Char} (h : Passes s t) (h' : Passes t u) : Passes s u := by
  obtain ⟨g, rfl, hg⟩ := h
  obtain ⟨g', rfl, hg'⟩ := h'
  exact ⟨g ++ g', (List.append_assoc _ _ _).symm, by simp [hg, hg']⟩

theorem Passes.cons {c : Char} {s rest : List Char} (hc : c ≠ '"') (h : Passes s rest) :
    Passes (c :: s) rest := by
  obtain ⟨g, rfl, hg⟩ := h
  exact ⟨c :: g, rfl, by simp [hc.symm, hg]⟩

theorem passes_dropWhile {p : Char → Bool} (hp : p '"' = false) (s : List Char) :
    Passes s (s.dropWhile p) := by
  refine ⟨s.takeWhile p, List.takeWhile_append_dropWhile.symm, fun hmem => ?_⟩
  have hquote := List.all_eq_true.mp List.all_takeWhile _ hmem
  rw [hp] at hquote
  contradiction

theorem passes_skipSpace (s : List Char) : Passes s (skipSpace s) := passes_dropWhile rfl s

theorem passes_drop? {t s rest : List Char} (ht : '"' ∉ t) (h : Text.drop? t s = some rest) :
    Passes s rest :=
  ⟨t, Text.drop?_eq_some_iff.mp h, ht⟩

theorem passes_readFraction (s : List Char) : Passes s (readFraction s).2 := by
  unfold readFraction
  split
  · rename_i s
    split
    · exact .refl _
    · exact .cons (by decide) (passes_dropWhile rfl s)
  · exact .refl _

theorem passes_readExponent? {s rest : List Char} {e : Int} (h : readExponent? s = some (e, rest)) :
    Passes s rest := by
  unfold readExponent? at h
  simp only at h
  split at h
  · rename_i c s
    split at h
    · rename_i hc
      have hquote : c ≠ '"' := by
        rintro rfl
        contradiction
      refine .cons hquote ?_
      split at h
      · split at h
        · contradiction
        · exact .cons (by decide) (rest_of_read h ▸ passes_dropWhile rfl _)
      · split at h
        · contradiction
        · exact .cons (by decide) (rest_of_read h ▸ passes_dropWhile rfl _)
      · split at h
        · contradiction
        · exact rest_of_read h ▸ passes_dropWhile rfl _
    · contradiction
  · contradiction

theorem passes_readNumber? {negative : Bool} {s rest : List Char} {v : Value}
    (h : readNumber? negative s = some (v, rest)) : Passes s rest := by
  unfold readNumber? at h
  simp only at h
  split at h
  · contradiction
  · rename_i ds after _ hwhole
    have hafter : Passes s after := by
      split at hwhole
      · obtain ⟨-, rfl⟩ := Prod.mk.inj hwhole
        exact .cons (by decide) (.refl _)
      · obtain ⟨-, rfl⟩ := Prod.mk.inj hwhole
        exact passes_dropWhile rfl s
    have hfraction := hafter.trans (passes_readFraction after)
    split at h
    · rename_i e last hexponent
      obtain rfl := rest_of_read h
      exact hfraction.trans (passes_readExponent? hexponent)
    · split at h
      · obtain rfl := rest_of_read h
        exact hfraction
      · obtain rfl := rest_of_read h
        exact hfraction

def EndsOutside {α : Type} (read : List Char → Option (α × List Char)) : Prop :=
  ∀ s x rest, read s = some (x, rest) → outside.after s = outside.after rest

theorem endsOutside_readItems?_succ {n : Nat} (hv : EndsOutside (readValue? n))
    (hi : EndsOutside (readItems? n)) : EndsOutside (readItems? (n + 1)) := by
  intro s x rest h
  rw [readItems?] at h
  obtain ⟨⟨v, more⟩, hread, h⟩ := Option.bind_eq_some_iff.mp h
  rw [(passes_skipSpace s).after, hv _ _ _ hread, (passes_skipSpace more).after]
  simp only at h
  split at h
  · rename_i hmore
    obtain rfl := rest_of_read h
    rw [hmore]
    rfl
  · rename_i after hmore
    obtain ⟨⟨vs, last⟩, hrest, h⟩ := Option.bind_eq_some_iff.mp h
    obtain rfl := rest_of_read h
    rw [hmore, ← hi _ _ _ hrest]
    rfl
  · contradiction

theorem endsOutside_readEntries?_succ {n : Nat} (hv : EndsOutside (readValue? n))
    (he : ∀ es, EndsOutside (readEntries? n es)) (es : Entries) :
    EndsOutside (readEntries? (n + 1) es) := by
  intro s x rest h
  rw [readEntries?] at h
  obtain ⟨⟨k, more⟩, hkey, h⟩ := Option.bind_eq_some_iff.mp h
  rw [(passes_skipSpace s).after, after_readText? hkey, (passes_skipSpace more).after]
  simp only at h
  split at h
  · rename_i after hmore
    obtain ⟨⟨v, last⟩, hread, h⟩ := Option.bind_eq_some_iff.mp h
    have hvalue : outside.after (skipSpace more) = outside.after (skipSpace last) := by
      rw [hmore, ← (passes_skipSpace last).after, ← hv _ _ _ hread, ← (passes_skipSpace after).after]
      rfl
    rw [hvalue]
    simp only at h
    split at h
    · rename_i hlast
      obtain rfl := rest_of_read h
      rw [hlast]
      rfl
    · rename_i next hlast
      rw [hlast, ← he _ _ _ _ h]
      rfl
    · contradiction
  · contradiction

theorem after_word {t s rest : List Char} {v x : Value} (ht : '"' ∉ t)
    (h : (Text.drop? t s).map (v, ·) = some (x, rest)) : outside.after s = outside.after rest := by
  obtain ⟨more, hdrop, hmore⟩ := Option.map_eq_some_iff.mp h
  obtain ⟨-, rfl⟩ := Prod.mk.inj hmore
  exact (passes_drop? ht hdrop).after

theorem endsOutside_readValue?_succ {n : Nat} (hi : EndsOutside (readItems? n))
    (he : ∀ es, EndsOutside (readEntries? n es)) : EndsOutside (readValue? (n + 1)) := by
  intro s x rest h
  unfold readValue? at h
  split at h
  · contradiction
  · obtain ⟨⟨t, more⟩, htext, h⟩ := Option.bind_eq_some_iff.mp h
    obtain rfl := rest_of_read h
    exact after_readText? htext
  · rename_i s
    refine (passes_skipSpace s).after.trans ?_
    split at h
    · rename_i hempty
      obtain rfl := rest_of_read h
      rw [hempty]
      rfl
    · obtain ⟨⟨items, more⟩, hitems, h⟩ := Option.bind_eq_some_iff.mp h
      obtain rfl := rest_of_read h
      exact hi _ _ _ hitems
  · rename_i s
    refine (passes_skipSpace s).after.trans ?_
    split at h
    · rename_i hempty
      obtain rfl := rest_of_read h
      rw [hempty]
      rfl
    · obtain ⟨⟨entries, more⟩, hentries, h⟩ := Option.bind_eq_some_iff.mp h
      obtain rfl := rest_of_read h
      exact he [] _ _ _ hentries
  · exact after_word (by decide) h
  · exact after_word (by decide) h
  · exact after_word (by decide) h
  · exact after_word (by decide) h
  · exact after_word (by decide) h
  · exact after_word (by decide) h
  · exact (passes_readNumber? h).after
  · exact (passes_readNumber? h).after

theorem endsOutside_reads (n : Nat) :
    EndsOutside (readValue? n) ∧ EndsOutside (readItems? n) ∧
      ∀ es, EndsOutside (readEntries? n es) := by
  induction n with
  | zero => exact ⟨nofun, nofun, nofun⟩
  | succ n ih =>
    obtain ⟨hv, hi, he⟩ := ih
    exact ⟨endsOutside_readValue?_succ hi he, endsOutside_readItems?_succ hv hi,
      endsOutside_readEntries?_succ hv he⟩

theorem after_of_parse? {s : String} {v : Value} (h : parse? s = some v) :
    outside.after s.toList = some outside := by
  unfold parse? at h
  simp only at h
  split at h
  · rename_i w rest hread
    split at h
    · rename_i hrest
      have hend : skipSpace rest = [] := List.isEmpty_iff.mp hrest
      rw [(passes_skipSpace _).after, (endsOutside_reads _).1 _ _ _ hread,
        (passes_skipSpace rest).after, hend]
      rfl
    · contradiction
  · contradiction

end AsmLens.Json
