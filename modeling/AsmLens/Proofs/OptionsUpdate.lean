import AsmLens.Proofs.DistinctKeys
import AsmLens.Proofs.FieldReading
import AsmLens.Proofs.OptionsResolution

namespace AsmLens

namespace Assoc

variable {κ α : Type} [DecidableEq κ]

theorem get?_cons_congr {k k' : κ} {v w : α} {es es' : Assoc κ α} (hv : k = k' → v = w)
    (hes : get? es k' = get? es' k') : get? ((k, v) :: es) k' = get? ((k, w) :: es') k' := by
  rw [get?_cons, get?_cons, hes]
  split
  · rename_i h
    rw [hv h]
  · rfl

theorem putAll_cons (es : Assoc κ α) (k : κ) (v : α) (changes : Assoc κ α) :
    putAll es ((k, v) :: changes) = putAll (put es k v) changes := rfl

theorem get?_putAll_of_absent {changes : Assoc κ α} {k : κ} (h : has changes k = false)
    (es : Assoc κ α) : get? (putAll es changes) k = get? es k := by
  induction changes generalizing es with
  | nil => rfl
  | cons e changes ih =>
    obtain ⟨l, v⟩ := e
    rw [has_cons, Bool.or_eq_false_iff, decide_eq_false_iff_not] at h
    rw [putAll_cons, ih h.2, get?_put, if_neg h.1]

theorem get?_putAll {changes : Assoc κ α} (h : (changes.map (·.1)).Nodup) (es : Assoc κ α) (k : κ) :
    get? (putAll es changes) k = (get? changes k).or (get? es k) := by
  induction changes generalizing es with
  | nil => rfl
  | cons e changes ih =>
    obtain ⟨l, v⟩ := e
    obtain ⟨hnew, hlater⟩ := List.nodup_cons.mp h
    rw [putAll_cons, ih hlater, get?_put, get?_cons]
    by_cases hl : l = k
    · subst hl
      rw [get?_eq_none_iff.mpr hnew, if_pos rfl, if_pos rfl, Option.none_or, Option.some_or]
    · rw [if_neg hl, if_neg hl]

theorem of_get?_putAll {es changes : Assoc κ α} {k : κ} {v : α}
    (h : get? (putAll es changes) k = some v) : (k, v) ∈ changes ∨ get? es k = some v := by
  induction changes generalizing es with
  | nil => exact .inr h
  | cons e changes ih =>
    obtain ⟨l, w⟩ := e
    rw [putAll_cons] at h
    rcases ih h with hv | hv
    · exact .inl (List.mem_cons_of_mem _ hv)
    · rw [get?_put] at hv
      split at hv
      · rename_i hl
        rw [hl, Option.some.inj hv]
        exact .inl List.mem_cons_self
      · exact .inr hv

theorem get?_putAll_of_same {es changes : Assoc κ α} (h : ∀ e ∈ changes, get? es e.1 = some e.2)
    (k : κ) : get? (putAll es changes) k = get? es k := by
  induction changes generalizing es with
  | nil => rfl
  | cons e changes ih =>
    obtain ⟨l, v⟩ := e
    obtain ⟨hv, hrest⟩ := List.forall_mem_cons.mp h
    have hput (k' : κ) : get? (put es l v) k' = get? es k' := by
      rw [get?_put]
      split
      · rename_i hl
        rw [← hl, hv]
      · rfl
    rw [putAll_cons, ih, hput]
    intro e he
    rw [hput]
    exact hrest e he

end Assoc

theorem Language.standard_empty (l : Language) : l.standard "" = l.defaultStandard := by
  cases l <;> decide

namespace Options

theorem keepFirst_eq_self {seen : List (List Char)} {ws : List String}
    (h : (ws.map Flag.warningStem).Nodup) (hseen : ∀ w ∈ ws, Flag.warningStem w ∉ seen) :
    keepFirst seen ws = ws := by
  induction ws generalizing seen with
  | nil => rfl
  | cons w ws ih =>
    obtain ⟨hw, hnodup⟩ := List.nodup_cons.mp h
    obtain ⟨hnew, hrest⟩ := List.forall_mem_cons.mp hseen
    rw [keepFirst, if_neg (by simpa using hnew), ih hnodup]
    intro v hv
    rw [List.mem_cons, not_or]
    exact ⟨fun he => hw (he ▸ List.mem_map_of_mem hv), hrest v hv⟩

theorem uniqueWarnings_eq_self {ws : List String} (h : (ws.map Flag.warningStem).Nodup) :
    uniqueWarnings ws = ws :=
  keepFirst_eq_self h fun _ _ => List.not_mem_nil

theorem readOptimization_name (l : Optimization) :
    readOptimization (.text l.name) = .ok l := by
  simp only [readOptimization, Optimization.ofName?_name]

theorem readWordSize_toEntries (o : Options) :
    o.toEntries.read "forced_word_size" none readWordSize = { value := o.wordSize, problems := [] } := by
  cases h : o.wordSize with
  | none =>
    have hsize : Assoc.get? o.toEntries "forced_word_size" = some .null := by
      simp [toEntries, Assoc.get?, h]
    have hread : readWordSize .null = .ok none := rfl
    exact Entries.read_of_get? hsize hread none
  | some w =>
    have hsize : Assoc.get? o.toEntries "forced_word_size" = some (.int w.bits) := by
      simp [toEntries, Assoc.get?, h]
    have hread : readWordSize (.int w.bits) = .ok (some w) := by
      cases w <;> rfl
    exact Entries.read_of_get? hsize hread none

theorem readFields_toEntries (dir : String) (l : Language) (s : String) {o : Options}
    (h : (o.warnings.map Flag.warningStem).Nodup) :
    readFields dir l s o.toEntries =
      { value := { o with language := l, standard := s }, problems := [] } := by
  have hbool (name : String) {b : Bool} (h : Assoc.get? o.toEntries name = some (.bool b)) :=
    Entries.readBool_of_get? h
  have htexts (name : String) {xs : List String}
      (h : Assoc.get? o.toEntries name = some (texts xs)) := Entries.readTexts_of_get? h
  have hlevel : Assoc.get? o.toEntries "optimization_level" = some (.text o.optimization.name) := rfl
  have harchitecture : Assoc.get? o.toEntries "architecture" = some (.text o.architecture) := rfl
  simp only [readFields, Entries.read_of_get? hlevel (readOptimization_name o.optimization),
    Entries.readText_of_get? harchitecture, readWordSize_toEntries,
    hbool "exceptions_enabled" rfl, hbool "rtti_enabled" rfl, hbool "fast_math" rfl,
    hbool "emit_ir" rfl, hbool "verbose_assembly" rfl, hbool "show_encoding" rfl,
    hbool "debug_info" rfl, hbool "demangle" rfl, hbool "combined_output" rfl,
    htexts "defines" rfl, htexts "undefs" rfl, htexts "warnings" rfl,
    htexts "include_directories" rfl, htexts "extra_flags" rfl, uniqueWarnings_eq_self h,
    List.append_nil]

theorem readFields_congr {es es' : Entries}
    (h : ∀ name, name ≠ "standard" → Assoc.get? es name = Assoc.get? es' name)
    (dir : String) (l : Language) (s : String) :
    readFields dir l s es = readFields dir l s es' := by
  simp only [readFields, Entries.readBool, Entries.readText, Entries.readTexts, Entries.read, h, ne_eq,
    String.reduceEq, not_false_eq_true]

theorem get?_readFields_congr {es es' : Entries} {name : String}
    (h : Assoc.get? es name = Assoc.get? es' name) (hlanguage : name ≠ "language")
    (hstandard : name ≠ "standard") (dir : String) (l l' : Language) (s s' : String) :
    Assoc.get? (readFields dir l s es).value.toEntries name =
      Assoc.get? (readFields dir l' s' es').value.toEntries name := by
  unfold toEntries
  apply Assoc.get?_cons_congr (fun he => absurd he.symm hlanguage)
  apply Assoc.get?_cons_congr (fun he => absurd he.symm hstandard)
  -- One entry after the other: the one with this name comes from what the name holds.
  repeat
    refine Assoc.get?_cons_congr ?_ ?_
    · rintro rfl
      simp only [readFields, Entries.readBool, Entries.readText, Entries.readTexts, Entries.read, h]
  rfl

theorem askedLanguage_of_get? {es : Entries} {l : Language}
    (h : Assoc.get? es "language" = some (.text l.name)) : askedLanguage es = .ok l := by
  have hgiven : given? es "language" = some (.text l.name) := by
    rw [given?, h]
    cases l <;> rfl
  simp only [askedLanguage, hgiven, Language.ofName?_name]

theorem askedStandard_of_null {es : Entries} (h : Assoc.get? es "standard" = some .null) :
    askedStandard es = .ok "" := by
  simp [askedStandard, given?, h, Option.filter, Value.isGiven]

theorem askedStandard_of_get? {es : Entries} {s : String}
    (h : Assoc.get? es "standard" = some (.text s)) : askedStandard es = .ok s := by
  by_cases hs : s = "" <;> simp [askedStandard, given?, h, Option.filter, Value.isGiven, hs]

theorem Settled.standard_eq {o : Options} (h : Settled o) : o.language.standard o.standard = o.standard := by
  have htrim : Text.trim o.standard = o.standard := by
    rw [Text.trim, h.standard_trimmed.trimChars_eq, String.ofList_toList]
  have hplain : (!o.language.isCxx && Text.holds Language.plusPlus o.standard.toList) = false := by
    cases hl : o.language.isCxx with
    | true => rfl
    | false =>
      have hc : o.language = .c ∨ o.language = .objC := by
        cases ho : o.language <;> simp_all [Language.isCxx]
      rw [Bool.not_false, Bool.true_and, Bool.eq_false_iff, Ne, Text.holds_iff]
      exact h.standard_plain hc
  simp only [Language.standard, htrim, h.standard_ne, hplain, Bool.false_eq_true, if_false]

def changed (o : Options) (changes : Entries) : Entries :=
  if Assoc.has changes "language" && !Assoc.has changes "standard" then
    Assoc.put (Assoc.putAll o.toEntries changes) "standard" .null
  else Assoc.putAll o.toEntries changes

section

variable {o d : Options} {dir : String} {changes : Entries}

theorem update_eq_ok_iff : o.update dir changes = .ok d ↔ ∃ language asked,
    askedLanguage (o.changed changes) = .ok language ∧
      askedStandard (o.changed changes) = .ok asked ∧
      (readFields dir language (language.standard asked)
        (reconcile (o.changed changes))).isClean = true ∧
      d = (readFields dir language (language.standard asked) (reconcile (o.changed changes))).value :=
  ofEntries_eq_ok_iff

theorem get?_changed_of_ne {name : String} (h : name ≠ "standard") :
    Assoc.get? (o.changed changes) name = Assoc.get? (Assoc.putAll o.toEntries changes) name := by
  unfold changed
  split
  · rw [Assoc.get?_put, if_neg (Ne.symm h)]
  · rfl

theorem get?_changed_standard (o : Options) (changes : Entries) :
    Assoc.get? (o.changed changes) "standard" =
    if Assoc.has changes "language" && !Assoc.has changes "standard" then some .null
    else Assoc.get? (Assoc.putAll o.toEntries changes) "standard" := by
  unfold changed
  split
  · rw [Assoc.get?_put, if_pos rfl]
  · rfl

theorem language_of_update (h : o.update dir changes = .ok d)
    (hl : Assoc.has changes "language" = false) : d.language = o.language := by
  obtain ⟨language, asked, hlanguage, -, -, rfl⟩ := update_eq_ok_iff.mp h
  have hget : Assoc.get? (o.changed changes) "language" = some (.text o.language.name) := by
    rw [get?_changed_of_ne (by decide), Assoc.get?_putAll_of_absent hl]
    rfl
  have hsame := hlanguage.symm.trans (askedLanguage_of_get? hget)
  exact Except.ok.inj hsame

theorem standard_of_update (ho : Settled o) (h : o.update dir changes = .ok d)
    (hs : Assoc.has changes "standard" = false) :
    d.standard = if Assoc.has changes "language" then d.language.defaultStandard else o.standard := by
  have hlanguage := language_of_update h
  obtain ⟨language, asked, -, hasked, -, rfl⟩ := update_eq_ok_iff.mp h
  rw [readFields_language] at hlanguage ⊢
  rw [readFields_standard]
  have hget := get?_changed_standard o changes
  cases hl : Assoc.has changes "language" with
  | true =>
    rw [hl, hs, Bool.true_and, Bool.not_false, if_pos rfl] at hget
    obtain rfl : "" = asked := Except.ok.inj ((askedStandard_of_null hget).symm.trans hasked)
    exact Language.standard_empty language
  | false =>
    have hown : Assoc.get? o.toEntries "standard" = some (.text o.standard) := rfl
    rw [hl, Bool.false_and, if_neg Bool.false_ne_true, Assoc.get?_putAll_of_absent hs, hown] at hget
    obtain rfl : o.standard = asked :=
      Except.ok.inj ((askedStandard_of_get? hget).symm.trans hasked)
    rw [hlanguage hl]
    exact ho.standard_eq

theorem get?_of_update (ho : Settled o) (h : o.update dir changes = .ok d) {name : String}
    (habsent : Assoc.has changes name = false) (hstandard : name ≠ "standard")
    (hencoding : name ≠ "show_encoding") :
    Assoc.get? d.toEntries name = Assoc.get? o.toEntries name := by
  by_cases hname : name = "language"
  · subst hname
    have hsame := language_of_update h habsent
    change some (Value.text d.language.name) = some (Value.text o.language.name)
    rw [hsame]
  · obtain ⟨language, asked, -, -, -, rfl⟩ := update_eq_ok_iff.mp h
    have hget : Assoc.get? (reconcile (o.changed changes)) name = Assoc.get? o.toEntries name := by
      rw [get?_reconcile_of_ne hencoding, get?_changed_of_ne hstandard,
        Assoc.get?_putAll_of_absent habsent]
    have hback : (readFields dir o.language o.standard o.toEntries).value = o := by
      rw [readFields_toEntries dir _ _ ho.warnings]
    rw [get?_readFields_congr hget hname hstandard dir _ o.language _ o.standard, hback]

theorem emitIr_of_given {es : Entries} (hgiven : (given? es "emit_ir").isSome = true)
    (hown : ∀ v, Assoc.get? es "emit_ir" = some v → v.isGiven = true →
      Assoc.get? o.toEntries "emit_ir" = some v) : o.emitIr = true := by
  obtain ⟨v, hv⟩ := Option.isSome_iff_exists.mp hgiven
  obtain ⟨hget, hvalue⟩ := Option.filter_eq_some_iff.mp hv
  obtain rfl : Value.bool o.emitIr = v := Option.some.inj (hown v hget hvalue)
  exact hvalue

theorem get?_reconcile_showEncoding (ho : Settled o) {es : Entries}
    (h : Assoc.get? es "show_encoding" = some (.bool o.showEncoding))
    (hown : ∀ v, Assoc.get? es "emit_ir" = some v → v.isGiven = true →
      Assoc.get? o.toEntries "emit_ir" = some v) :
    Assoc.get? (reconcile es) "show_encoding" = some (.bool o.showEncoding) := by
  unfold reconcile
  split
  · rename_i hgiven
    rw [Assoc.get?_put, if_pos rfl, ho.encoding (emitIr_of_given hgiven hown)]
  · exact h

theorem showEncoding_of_update (ho : Settled o) (h : o.update dir changes = .ok d)
    (habsent : Assoc.has changes "show_encoding" = false)
    (hemit : ∀ v, ("emit_ir", v) ∈ changes → v.isGiven = false) :
    d.showEncoding = o.showEncoding := by
  obtain ⟨language, asked, -, -, -, rfl⟩ := update_eq_ok_iff.mp h
  have hown : Assoc.get? (o.changed changes) "show_encoding" = some (.bool o.showEncoding) := by
    rw [get?_changed_of_ne (by decide), Assoc.get?_putAll_of_absent habsent]
    rfl
  have hget : Assoc.get? (reconcile (o.changed changes)) "show_encoding" =
      some (.bool o.showEncoding) := by
    apply get?_reconcile_showEncoding ho hown
    intro v hv hvalue
    rw [get?_changed_of_ne (by decide)] at hv
    -- What is given comes from the options, since no change gives it.
    rcases Assoc.of_get?_putAll hv with hmem | hold
    · rw [hemit v hmem] at hvalue
      contradiction
    · exact hold
  rw [readFields_showEncoding, Entries.readBool_of_get? hget]

theorem update_of_same (ho : Settled o)
    (h : ∀ e ∈ changes, Assoc.get? o.toEntries e.1 = some e.2) (dir : String) :
    o.update dir changes =
      .ok { o with standard :=
        if Assoc.has changes "language" && !Assoc.has changes "standard" then
          o.language.defaultStandard
        else o.standard } := by
  have hputAll := Assoc.get?_putAll_of_same h
  have hget : ∀ name, name ≠ "standard" →
      Assoc.get? (reconcile (o.changed changes)) name = Assoc.get? o.toEntries name := by
    intro name hname
    by_cases hencoding : name = "show_encoding"
    · subst hencoding
      apply get?_reconcile_showEncoding ho
      · rw [get?_changed_of_ne hname, hputAll]
        rfl
      · intro v hv _
        rwa [get?_changed_of_ne (by decide), hputAll] at hv
    · rw [get?_reconcile_of_ne hencoding, get?_changed_of_ne hname, hputAll]
  have hlanguage : askedLanguage (o.changed changes) = .ok o.language := by
    apply askedLanguage_of_get?
    rw [get?_changed_of_ne (by decide), hputAll]
    rfl
  have hasked : ∃ asked, askedStandard (o.changed changes) = .ok asked ∧ o.language.standard asked =
      if Assoc.has changes "language" && !Assoc.has changes "standard" then
        o.language.defaultStandard
      else o.standard := by
    have hstandard := get?_changed_standard o changes
    split at hstandard
    · rename_i hreset
      exact ⟨"", askedStandard_of_null hstandard, by rw [if_pos hreset, Language.standard_empty]⟩
    · rename_i hreset
      rw [hputAll] at hstandard
      exact ⟨o.standard, askedStandard_of_get? hstandard, by rw [if_neg hreset, ho.standard_eq]⟩
  obtain ⟨asked, hasked, hstandard⟩ := hasked
  refine update_eq_ok_iff.mpr ⟨o.language, asked, hlanguage, hasked, ?_, ?_⟩
  · rw [readFields_congr hget, readFields_toEntries _ _ _ ho.warnings]
    rfl
  · rw [readFields_congr hget, readFields_toEntries _ _ _ ho.warnings, hstandard]

end

theorem update_frame (o : Options) (dir : String) (ho : Resolved o) :
    o.update dir [] = .ok o ∧
      ∀ changes d, o.update dir changes = .ok d →
        (∀ name, Assoc.has changes name = false → name ≠ "standard" → name ≠ "show_encoding" →
          Assoc.get? d.toEntries name = Assoc.get? o.toEntries name) ∧
        (Assoc.has changes "standard" = false →
          d.standard = if Assoc.has changes "language" then d.language.defaultStandard
            else o.standard) ∧
        (Assoc.has changes "show_encoding" = false →
          (∀ v, ("emit_ir", v) ∈ changes → v.isGiven = false) →
          d.showEncoding = o.showEncoding) := by
  have hsettled := ho.settled
  refine ⟨update_of_same hsettled (List.forall_mem_nil _) dir, fun changes d h => ⟨?_, ?_, ?_⟩⟩
  · intro name habsent hstandard hencoding
    exact get?_of_update hsettled h habsent hstandard hencoding
  · exact standard_of_update hsettled h
  · exact showEncoding_of_update hsettled h

def newer : Options := { unasked "/src" with standard := "c++17", showEncoding := true }

theorem resolve_newer : resolve "/src" (.table [("standard", .text " c++17"),
    ("show_encoding", .text "on")]) = .ok newer := rfl

theorem update_frame_language :
    ∃ d, Resolved newer ∧ newer.update "/src" [("language", .text "c"), ("emit_ir", .int 0)] = .ok d ∧
      d.standard = "c11" ∧ d.showEncoding = true ∧
      Assoc.get? d.toEntries "warnings" = some (texts defaultWarnings) := by
  have hresolved : Resolved newer := ⟨_, _, resolve_newer⟩
  obtain ⟨d, hd, hl⟩ : ∃ d, newer.update "/src" [("language", .text "c"), ("emit_ir", .int 0)] = .ok d ∧
      d.language = .c := ⟨_, rfl, rfl⟩
  obtain ⟨hnames, hstandard, hencoding⟩ := (update_frame newer "/src" hresolved).2 _ d hd
  refine ⟨d, hresolved, hd, ?_, ?_, ?_⟩
  · rw [hstandard rfl, hl]
    rfl
  · rw [hencoding rfl (by simp [Value.isGiven])]
    rfl
  · rw [hnames "warnings" rfl (by decide) (by decide)]
    rfl

theorem update_own_values (o : Options) (dir : String) (changes : Entries) (ho : Resolved o)
    (h : ∀ e ∈ changes, Assoc.get? o.toEntries e.1 = some e.2) :
    o.update dir changes =
        .ok { o with standard :=
          if Assoc.has changes "language" && !Assoc.has changes "standard" then
            o.language.defaultStandard
          else o.standard } ∧
      (o.update dir changes = .ok o ↔
        (Assoc.has changes "language" = true → Assoc.has changes "standard" = false →
          o.standard = o.language.defaultStandard)) := by
  have hupdate := update_of_same ho.settled h dir
  refine ⟨hupdate, ?_⟩
  rw [hupdate, Except.ok.injEq]
  constructor
  · intro hsame hl hs
    have hstandard := congrArg Options.standard hsame
    rw [hl, hs, Bool.true_and, Bool.not_false, if_pos rfl] at hstandard
    exact hstandard.symm
  · intro hkept
    split
    · rename_i hreset
      rw [Bool.and_eq_true, Bool.not_eq_true'] at hreset
      rw [← hkept hreset.1 hreset.2]
    · rfl

theorem update_own_values_named :
    Resolved newer ∧
      newer.update "/src" [("language", .text "c++"), ("standard", .text "c++17"),
        ("emit_ir", .bool false)] = .ok newer := by
  have hresolved : Resolved newer := ⟨_, _, resolve_newer⟩
  have hown : ∀ e ∈ [("language", Value.text "c++"), ("standard", .text "c++17"), ("emit_ir", .bool false)],
      Assoc.get? newer.toEntries e.1 = some e.2 := by
    simp only [List.forall_mem_cons]
    exact ⟨rfl, rfl, rfl, List.forall_mem_nil _⟩
  refine ⟨hresolved, (update_own_values newer "/src" _ hresolved hown).2.mpr ?_⟩
  intro _ hs
  contradiction

theorem own_language_resets_standard :
    Resolved newer ∧ newer.standard = "c++17" ∧
      Assoc.get? newer.toEntries "language" = some (.text "c++") ∧
      newer.update "/src" [("language", .text "c++")] = .ok { newer with standard := "c++1y" } :=
  ⟨⟨_, _, resolve_newer⟩, rfl, rfl, rfl⟩

end Options

end AsmLens
