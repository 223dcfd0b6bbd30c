import AsmLens.Proofs.FieldReading
import AsmLens.Proofs.OptionsHistory

/-!
The warnings among the flags against the warnings that were asked for. Of the entries with one stem the
first is kept. A blank entry has the stem of a bare prefix but stands for no flag, so where it comes first
the bare prefix gets lost; no other warning does.
-/

namespace AsmLens

namespace Flag

theorem warningStem_of_blank {s : String} (h : Text.isBlankText s = true) : warningStem s = [] := by
  rw [warningStem, Text.isBlankText_iff.mp h]
  rfl

theorem toWarning_eq_iff {s t : String} (hs : Text.isBlankText s = false)
    (ht : Text.isBlankText t = false) : toWarning s = toWarning t ↔ warningStem s = warningStem t := by
  rw [(toWarning_of_ink s hs).1, (toWarning_of_ink t ht).1, String.append_right_inj, String.ofList_inj]

theorem toWarning_eq_bare_iff {s : String} (hs : Text.isBlankText s = false) :
    toWarning s = "-W" ↔ warningStem s = [] := by
  have hbare : toWarning "-W" = "-W" := by decide
  have hstem : warningStem "-W" = [] := by decide
  rw [← hstem, ← toWarning_eq_iff hs (by decide), hbare]

end Flag

namespace Options

open AsmLens.Flag (warningStem toWarning)
open AsmLens.Text (inked isBlankText)

def wanted (ws : List String) : List String := (inked ws).map toWarning

/-- Of the entries without a stem the first is blank. -/
def blankFirst (ws : List String) : Bool :=
  (ws.find? fun w => (warningStem w).isEmpty).any isBlankText

theorem blankFirst_cons_of_stem {w : String} (h : warningStem w ≠ []) (ws : List String) :
    blankFirst (w :: ws) = blankFirst ws := by
  simp [blankFirst, h]

theorem blankFirst_cons_of_bare {w : String} (h : warningStem w = []) (ws : List String) :
    blankFirst (w :: ws) = isBlankText w := by
  simp [blankFirst, h]

def Counts (seen : List (List Char)) (hidden : Bool) (w : String) : Prop :=
  warningStem w ∉ seen ∧ (warningStem w = [] → hidden = false)

instance (seen : List (List Char)) (hidden : Bool) : DecidablePred (Counts seen hidden) :=
  fun w => inferInstanceAs (Decidable (warningStem w ∉ seen ∧ (warningStem w = [] → hidden = false)))

theorem counts_cons_iff (seen : List (List Char)) (w : String) (ws : List String) (v : String) :
    Counts (warningStem w :: seen) (blankFirst ws) v ↔
      warningStem v ≠ warningStem w ∧ Counts seen (blankFirst (w :: ws)) v := by
  by_cases hw : warningStem w = []
  · simp only [Counts, List.mem_cons]
    grind
  · simp only [Counts, blankFirst_cons_of_stem hw, List.mem_cons]
    grind

theorem counts_iff_of_mem {seen : List (List Char)} {w : String} (hw : warningStem w ∈ seen)
    (ws : List String) (v : String) :
    Counts seen (blankFirst (w :: ws)) v ↔ Counts seen (blankFirst ws) v := by
  by_cases hbare : warningStem w = []
  · simp only [Counts]
    grind
  · rw [blankFirst_cons_of_stem hbare]

def counted (seen : List (List Char)) (ws : List String) : List String :=
  ((inked ws).filter fun w => decide (Counts seen (blankFirst ws) w)).map toWarning

theorem counted_cons_of_mem {seen : List (List Char)} {w : String} (hw : warningStem w ∈ seen)
    (ws : List String) : counted seen (w :: ws) = counted seen ws := by
  have hnot : ¬Counts seen (blankFirst ws) w := fun h => h.1 hw
  simp only [counted, counts_iff_of_mem hw]
  cases hblank : isBlankText w with
  | true => rw [Text.inked_cons_of_blank hblank]
  | false => rw [Text.inked_cons hblank, List.filter_cons_of_neg (by simpa using hnot)]

theorem counted_cons_of_blank (seen : List (List Char)) {w : String} (hw : isBlankText w = true)
    (ws : List String) : counted seen (w :: ws) = counted (warningStem w :: seen) ws := by
  have hstem := Flag.warningStem_of_blank hw
  have hcounts (v : String) : Counts (warningStem w :: seen) (blankFirst ws) v ↔
      Counts seen (blankFirst (w :: ws)) v := by
    rw [counts_cons_iff, and_iff_right_iff_imp, hstem, blankFirst_cons_of_bare hstem, hw]
    exact fun h hbare => Bool.noConfusion (h.2 hbare)
  simp only [counted, Text.inked_cons_of_blank hw, hcounts]

theorem eraseDups_counted_cons {seen : List (List Char)} {w : String} (hw : isBlankText w = false)
    (hnew : warningStem w ∉ seen) (ws : List String) :
    (counted seen (w :: ws)).eraseDups =
      toWarning w :: (counted (warningStem w :: seen) ws).eraseDups := by
  have hcounts : Counts seen (blankFirst (w :: ws)) w := by
    refine ⟨hnew, fun hbare => ?_⟩
    rw [blankFirst_cons_of_bare hbare, hw]
  have hlater : counted (warningStem w :: seen) ws =
      (((inked ws).filter fun v => decide (Counts seen (blankFirst (w :: ws)) v)).map toWarning).filter
        fun f => !f == toWarning w := by
    rw [counted, List.filter_map, List.filter_filter]
    apply congrArg (List.map toWarning)
    apply List.filter_congr
    intro v hv
    have hflag : (toWarning v == toWarning w) = decide (warningStem v = warningStem w) := by
      rw [Bool.eq_iff_iff, beq_iff_eq, decide_eq_true_iff]
      exact Flag.toWarning_eq_iff (Text.ink_of_mem_inked hv) hw
    simp [counts_cons_iff, hflag]
  rw [counted, Text.inked_cons hw, List.filter_cons_of_pos (by simpa using hcounts), List.map_cons,
    List.eraseDups_cons, hlater]

theorem wanted_cons {w : String} (hw : isBlankText w = false) (ws : List String) :
    wanted (w :: ws) = toWarning w :: wanted ws := by
  rw [wanted, Text.inked_cons hw, List.map_cons, wanted]

theorem wanted_cons_of_blank {w : String} (hw : isBlankText w = true) (ws : List String) :
    wanted (w :: ws) = wanted ws := by
  rw [wanted, Text.inked_cons_of_blank hw, wanted]

theorem wanted_keepFirst (seen : List (List Char)) (ws : List String) :
    wanted (keepFirst seen ws) = (counted seen ws).eraseDups := by
  induction ws generalizing seen with
  | nil => rfl
  | cons w ws ih =>
    by_cases hw : warningStem w ∈ seen
    · have hdropped : keepFirst seen (w :: ws) = keepFirst seen ws := by
        simp [keepFirst, hw]
      rw [hdropped, ih, counted_cons_of_mem hw]
    · have hkept : keepFirst seen (w :: ws) = w :: keepFirst (warningStem w :: seen) ws := by
        simp [keepFirst, hw]
      rw [hkept]
      cases hblank : isBlankText w with
      | true => rw [wanted_cons_of_blank hblank, ih, counted_cons_of_blank seen hblank]
      | false => rw [wanted_cons hblank, ih, eraseDups_counted_cons hblank hw]

theorem counted_nil (ws : List String) :
    counted [] ws = (wanted ws).filter fun f => !(blankFirst ws && f == "-W") := by
  rw [counted, wanted, List.filter_map]
  apply congrArg (List.map toWarning)
  apply List.filter_congr
  intro w hw
  have hbare : (toWarning w == "-W") = decide (warningStem w = []) := by
    rw [Bool.eq_iff_iff, beq_iff_eq, decide_eq_true_iff]
    exact Flag.toWarning_eq_bare_iff (Text.ink_of_mem_inked hw)
  cases hfirst : blankFirst ws <;> simp [Counts, hbare]

theorem textsOf_warning (darwin : Bool) (o : Options) :
    Flag.textsOf .warning (o.flags darwin) = wanted o.warnings := by
  rw [textsOf_warning_flags, wanted]
  apply List.map_congr_left
  intro w hw
  exact (Flag.toWarning_of_ink w (Text.ink_of_mem_inked hw)).1.symm

theorem warnings_of_resolve {dir : String} {es : Entries} {ws : List String} {o : Options}
    (hgiven : Assoc.get? es "warnings" = some (texts ws)) (h : resolve dir (.table es) = .ok o) :
    o.warnings = uniqueWarnings ws := by
  obtain ⟨language, asked, -, -, -, rfl⟩ := ofEntries_eq_ok_iff.mp h
  have hsame : Assoc.get? (reconcile es) "warnings" = some (texts ws) := by
    rw [get?_reconcile_of_ne (by decide), hgiven]
  rw [readFields_warnings, Entries.readTexts_of_get? hsame]

theorem eraseDups_filter_eq_iff (hidden : Bool) (fs : List String) :
    (fs.filter fun f => !(hidden && f == "-W")).eraseDups = fs.eraseDups ↔
      ¬(hidden = true ∧ "-W" ∈ fs) := by
  constructor
  · rintro hall ⟨rfl, hmem⟩
    rw [← List.mem_eraseDups, ← hall, List.mem_eraseDups, List.mem_filter] at hmem
    exact absurd hmem.2 (by decide)
  · intro hkept
    rw [List.filter_eq_self.mpr]
    intro f hf
    cases hidden with
    | false => rfl
    | true =>
      have hne : f ≠ "-W" := by
        rintro rfl
        exact hkept ⟨rfl, hf⟩
      simp [hne]

theorem exists_resolve_warnings (dir : String) (ws : List String) :
    ∃ o, resolve dir (.table [("warnings", texts ws)]) = .ok o := by
  have hreconcile : reconcile [("warnings", texts ws)] = [("warnings", texts ws)] := rfl
  have hgiven : Assoc.get? [("warnings", texts ws)] "warnings" = some (texts ws) := rfl
  have habsent {name : String} (h : name ≠ "warnings") :
      Assoc.get? [("warnings", texts ws)] name = none := if_neg (Ne.symm h)
  refine ⟨_, ofEntries_eq_ok_iff.mpr ⟨.cxx, "", rfl, rfl, ?_, rfl⟩⟩
  rw [hreconcile]
  simp [Reading.isClean, readFields, Entries.readTexts, Entries.readBool, Entries.readText,
    Entries.read, hgiven, habsent, Value.readTexts_texts]

theorem warnings_among_flags (dir : String) (ws : List String) (darwin : Bool) :
    (∃ o, resolve dir (.table [("warnings", texts ws)]) = .ok o) ∧
      ∀ es o, Assoc.get? es "warnings" = some (texts ws) → resolve dir (.table es) = .ok o →
        Flag.textsOf .warning (o.flags darwin) =
          ((wanted ws).filter fun f => !(blankFirst ws && f == "-W")).eraseDups ∧
        (Flag.textsOf .warning (o.flags darwin) = (wanted ws).eraseDups ↔
          ¬(blankFirst ws = true ∧ "-W" ∈ wanted ws)) := by
  refine ⟨exists_resolve_warnings dir ws, fun es o hgiven h => ?_⟩
  have hflags : Flag.textsOf .warning (o.flags darwin) =
      ((wanted ws).filter fun f => !(blankFirst ws && f == "-W")).eraseDups := by
    rw [textsOf_warning, warnings_of_resolve hgiven h, uniqueWarnings, wanted_keepFirst,
      counted_nil]
  refine ⟨hflags, ?_⟩
  rw [hflags]
  exact eraseDups_filter_eq_iff _ _

theorem warnings_among_flags_spelled :
    ∃ o, resolve "/src" (.table [("warnings", texts ["W", " all", "-Wall", "\t", "extra", "-W"])]) =
        .ok o ∧
      Flag.textsOf .warning (o.flags false) = ["-W", "-Wall", "-Wextra"] := by
  obtain ⟨⟨o, ho⟩, hflags⟩ :=
    warnings_among_flags "/src" ["W", " all", "-Wall", "\t", "extra", "-W"] false
  refine ⟨o, ho, ?_⟩
  rw [(hflags _ o rfl ho).2.mpr (by decide)]
  decide

theorem blank_hides_bare :
    ∃ o, resolve "/src" (.table [("warnings", texts [" ", "-W"])]) = .ok o ∧
      o.warnings = [" "] ∧ Flag.textsOf .warning (o.flags false) = [] ∧
      (wanted [" ", "-W"]).eraseDups = ["-W"] := by
  obtain ⟨o, ho⟩ := exists_resolve_warnings "/src" [" ", "-W"]
  have hwarnings : o.warnings = [" "] := by
    rw [warnings_of_resolve rfl ho]
    decide
  refine ⟨o, ho, hwarnings, ?_, by decide⟩
  rw [textsOf_warning, hwarnings]
  decide

end Options

end AsmLens
