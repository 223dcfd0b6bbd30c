import AsmLens.Proofs.OptionsUpdate

namespace AsmLens

theorem Language.ofName?_eq_some_iff {s : String} {l : Language} : ofName? s = some l ↔ s = l.name := by
  constructor
  · intro h
    unfold ofName? at h
    have hname := List.find?_some h
    exact (beq_iff_eq.mp hname).symm
  · rintro rfl
    exact ofName?_name l

namespace Options

def Reported (x : Except Refusal Options) : Prop :=
  (∃ o, x = .ok o) ∨ ∃ p ps, x = .error (.invalid (p :: ps))

/-- A standard is given that is no text, and the language is one to go on with. -/
structure StrayStandard (es : Entries) : Prop where
  language : ∀ v, given? es "language" = some v → ∃ l : Language, v = .text l.name
  standard : ∃ v, given? es "standard" = some v ∧ ∀ s, v ≠ .text s

theorem askedLanguage_cases (es : Entries) :
    (∃ l, askedLanguage es = .ok l) ∧
        (∀ v, given? es "language" = some v → ∃ l : Language, v = .text l.name) ∨
      (∃ p, askedLanguage es = .error (.invalid [p])) ∧
        ¬∀ v, given? es "language" = some v → ∃ l : Language, v = .text l.name := by
  unfold askedLanguage
  cases hgiven : given? es "language" with
  | none => exact .inl ⟨⟨.cxx, rfl⟩, by simp⟩
  | some v =>
    have hother (h : ∀ l : Language, v ≠ .text l.name) :
        ¬∀ w, some v = some w → ∃ l : Language, w = .text l.name := by
      intro hall
      obtain ⟨l, hl⟩ := hall v rfl
      exact h l hl
    cases v with
    | text s =>
      dsimp only
      cases hs : Language.ofName? s with
      | some l =>
        refine .inl ⟨⟨l, rfl⟩, fun w hw => ⟨l, ?_⟩⟩
        rw [← Option.some.inj hw, Language.ofName?_eq_some_iff.mp hs]
      | none =>
        refine .inr ⟨⟨_, rfl⟩, hother fun l hl => ?_⟩
        rw [Language.ofName?_eq_some_iff.mpr (Value.text.inj hl)] at hs
        contradiction
    | _ => exact .inr ⟨⟨_, rfl⟩, hother fun l => Value.noConfusion⟩

theorem askedStandard_cases (es : Entries) :
    (∃ s, askedStandard es = .ok s) ∧ (¬∃ v, given? es "standard" = some v ∧ ∀ s, v ≠ .text s) ∨
      askedStandard es = .error .standardNotText ∧
        ∃ v, given? es "standard" = some v ∧ ∀ s, v ≠ .text s := by
  unfold askedStandard
  cases hgiven : given? es "standard" with
  | none => exact .inl ⟨⟨"", rfl⟩, by simp⟩
  | some v =>
    cases v with
    | text s =>
      refine .inl ⟨⟨s, rfl⟩, ?_⟩
      rintro ⟨w, hw, hother⟩
      exact hother s (Option.some.inj hw).symm
    | _ => exact .inr ⟨rfl, _, rfl, fun s => Value.noConfusion⟩

theorem reported_mapError (r : Reading Options) : Reported (r.toExcept.mapError .invalid) := by
  unfold Reading.toExcept Reading.isClean
  cases hr : r.problems with
  | nil => exact .inl ⟨r.value, rfl⟩
  | cons p ps => exact .inr ⟨p, ps, rfl⟩

theorem ofEntries_cases (dir : String) (es : Entries) :
    Reported (ofEntries dir es) ∧ ¬StrayStandard es ∨
      ofEntries dir es = .error .standardNotText ∧ StrayStandard es := by
  unfold ofEntries
  -- The language is asked for first, so one that is refused hides the standard.
  rcases askedLanguage_cases es with ⟨⟨l, hl⟩, hreadable⟩ | ⟨⟨p, hp⟩, hunreadable⟩
  · rcases askedStandard_cases es with ⟨⟨s, hs⟩, htext⟩ | ⟨hs, hstray⟩
    · simp only [hl, hs, bind, Except.bind]
      exact .inl ⟨reported_mapError _, fun h => htext h.standard⟩
    · simp only [hl, hs, bind, Except.bind]
      exact .inr ⟨trivial, hreadable, hstray⟩
  · simp only [hp, bind, Except.bind]
    exact .inl ⟨.inr ⟨p, [], rfl⟩, fun h => hunreadable h.language⟩

theorem ofEntries_of_strayStandard {es : Entries} (h : StrayStandard es) (dir : String) :
    ofEntries dir es = .error .standardNotText := by
  rcases ofEntries_cases dir es with ⟨-, hnot⟩ | ⟨hends, -⟩
  · exact absurd h hnot
  · exact hends

theorem reported_ofEntries_iff {dir : String} {es : Entries} :
    Reported (ofEntries dir es) ↔ ¬StrayStandard es := by
  rcases ofEntries_cases dir es with ⟨hreported, hnot⟩ | ⟨hends, hstray⟩
  · exact iff_of_true hreported hnot
  · rw [hends]
    refine iff_of_false ?_ (not_not_intro hstray)
    rintro (⟨o, ho⟩ | ⟨p, ps, hp⟩)
    · cases ho
    · cases hp

section

variable {changes : Entries} (h : (changes.map (·.1)).Nodup) (o : Options)

include h

theorem language_changed_iff :
    (∀ v, given? (o.changed changes) "language" = some v → ∃ l : Language, v = .text l.name) ↔
      ∀ v, given? changes "language" = some v → ∃ l : Language, v = .text l.name := by
  simp only [given?, get?_changed_of_ne (by decide : "language" ≠ "standard"), Assoc.get?_putAll h]
  cases Assoc.get? changes "language" with
  | some v => rw [Option.some_or]
  | none =>
    rw [Option.none_or]
    apply iff_of_true
    · intro v hv
      exact ⟨o.language, (Option.some.inj (Option.filter_eq_some_iff.mp hv).1).symm⟩
    · intro v hv
      contradiction

theorem standard_changed_iff :
    (∃ v, given? (o.changed changes) "standard" = some v ∧ ∀ s, v ≠ .text s) ↔
      ∃ v, given? changes "standard" = some v ∧ ∀ s, v ≠ .text s := by
  simp only [given?, get?_changed_standard, Assoc.get?_putAll h, Assoc.has]
  cases Assoc.get? changes "standard" with
  | some v => simp
  | none =>
    apply iff_of_false
    · rintro ⟨v, hv, hother⟩
      obtain ⟨hv, hgiven⟩ := Option.filter_eq_some_iff.mp hv
      split at hv
      · rw [← Option.some.inj hv] at hgiven
        contradiction
      · exact hother o.standard (Option.some.inj hv).symm
    · rintro ⟨v, hv, -⟩
      contradiction

theorem strayStandard_changed_iff : StrayStandard (o.changed changes) ↔ StrayStandard changes := by
  constructor
  · intro hstray
    exact ⟨(language_changed_iff h o).mp hstray.language, (standard_changed_iff h o).mp hstray.standard⟩
  · intro hstray
    exact ⟨(language_changed_iff h o).mpr hstray.language, (standard_changed_iff h o).mpr hstray.standard⟩

end

theorem reported_resolve_iff {dir : String} {data : Value} :
    Reported (resolve dir data) ↔ ¬∃ es, data = .table es ∧ StrayStandard es := by
  cases data with
  | table es =>
    rw [resolve, reported_ofEntries_iff]
    simp
  | _ =>
    refine iff_of_true (.inr ⟨_, [], rfl⟩) ?_
    rintro ⟨es, hes, -⟩
    cases hes

theorem refused_data (dir : String) :
    (∀ data, Reported (resolve dir data) ↔ ¬∃ es, data = .table es ∧ StrayStandard es) ∧
    (∀ es, StrayStandard es → resolve dir (.table es) = .error .standardNotText) ∧
    ∀ (o : Options) (changes : Entries), (changes.map (·.1)).Nodup →
      (Reported (o.update dir changes) ↔ ¬StrayStandard changes) ∧
      (StrayStandard changes → o.update dir changes = .error .standardNotText) := by
  refine ⟨fun data => reported_resolve_iff, fun es h => ofEntries_of_strayStandard h dir, ?_⟩
  intro o changes hchanges
  have hsame := strayStandard_changed_iff hchanges o
  constructor
  · rw [← hsame]
    exact reported_ofEntries_iff
  · intro hstray
    exact ofEntries_of_strayStandard (hsame.mpr hstray) dir

theorem refused_data_unknown_language :
    Reported (resolve "/src" (.table [("language", .text "d"), ("standard", .int 5)])) ∧
      StrayStandard [("language", .text "c"), ("standard", .array [.int 5])] ∧
      (unasked "/src").update "/src" [("language", .text "c"), ("standard", .array [.int 5])] =
        .error .standardNotText := by
  have hstray : StrayStandard [("language", .text "c"), ("standard", .array [.int 5])] := by
    constructor
    · intro v hv
      cases hv
      exact ⟨.c, rfl⟩
    · exact ⟨.array [.int 5], rfl, fun s => Value.noConfusion⟩
  have hfree : ¬∃ es, Value.table [("language", .text "d"), ("standard", .int 5)] = .table es ∧
      StrayStandard es := by
    rintro ⟨es, hes, hes'⟩
    cases hes
    obtain ⟨l, hl⟩ := hes'.language (.text "d") rfl
    have hne : "d" ≠ l.name := by cases l <;> decide
    exact hne (Value.text.inj hl)
  obtain ⟨hresolve, -, hupdate⟩ := refused_data "/src"
  exact ⟨(hresolve _).mpr hfree, hstray, (hupdate _ _ (by decide)).2 hstray⟩

theorem number_ends_resolution :
    resolve "/src" (.table [("standard", .int 5)]) = .error .standardNotText ∧
      (unasked "/src").update "/src" [("standard", .int 5)] = .error .standardNotText ∧
      ¬Reported (resolve "/src" (.table [("standard", .int 5)])) := by
  refine ⟨rfl, rfl, ?_⟩
  rintro (⟨o, ho⟩ | ⟨p, ps, hp⟩)
  · cases ho
  · cases hp

end Options

end AsmLens
