import AsmLens.Options.Resolve
import AsmLens.Proofs.TrimmedText

namespace AsmLens

namespace Language

theorem standard_cases (l : Language) (asked : String) :
    l.standard asked = l.defaultStandard ∨ l.standard asked = "gnu11" ∨
      (l.standard asked = Text.trim asked ∧ Text.trim asked ≠ "" ∧
        (l.isCxx = true ∨ Text.holds plusPlus (Text.trim asked).toList = false)) := by
  simp only [standard]
  split
  · exact .inl rfl
  · rename_i hs
    split
    · split
      · exact .inr (.inl rfl)
      · exact .inl rfl
    · rename_i hp
      refine .inr (.inr ⟨rfl, hs, ?_⟩)
      cases hl : l.isCxx with
      | true => exact .inl rfl
      | false => exact .inr (by simpa [hl] using hp)

theorem standard_ne (l : Language) (asked : String) : l.standard asked ≠ "" := by
  rcases standard_cases l asked with h | h | ⟨h, hs, -⟩
  · rw [h]
    cases l <;> decide
  · rw [h]
    decide
  · rwa [h]

theorem trimmed_standard (l : Language) (asked : String) :
    Text.Trimmed (l.standard asked).toList := by
  rcases standard_cases l asked with h | h | ⟨h, -, -⟩
  · apply Text.trimmed_of_trimChars
    rw [h]
    cases l <;> decide
  · apply Text.trimmed_of_trimChars
    rw [h]
    decide
  · rw [h, Text.toList_trim]
    exact Text.trimmed_trimChars _

theorem not_plusPlus_standard {l : Language} (hl : l.isCxx = false) (asked : String) :
    ¬plusPlus <:+: (l.standard asked).toList := by
  rw [← Text.holds_iff, Bool.not_eq_true]
  rcases standard_cases l asked with h | h | ⟨h, -, hp⟩
  · rw [h, defaultStandard, hl]
    decide
  · rw [h]
    decide
  · rw [hl] at hp
    rw [h]
    exact hp.resolve_left Bool.false_ne_true

end Language

namespace Options

structure Settled (o : Options) : Prop where
  encoding : o.emitIr = true → o.showEncoding = false
  standard_ne : o.standard ≠ ""
  standard_trimmed : Text.Trimmed o.standard.toList
  standard_plain : o.language = .c ∨ o.language = .objC → ¬Language.plusPlus <:+: o.standard.toList
  warnings : (o.warnings.map Flag.warningStem).Nodup

theorem keepFirst_stems (seen : List (List Char)) (ws : List String) :
    ((keepFirst seen ws).map Flag.warningStem).Nodup ∧
      ∀ w ∈ keepFirst seen ws, Flag.warningStem w ∉ seen := by
  induction ws generalizing seen with
  | nil => simp [keepFirst]
  | cons w ws ih =>
    unfold keepFirst
    split
    · exact ih seen
    · rename_i hw
      rw [List.contains_iff_mem] at hw
      obtain ⟨hnodup, hseen⟩ := ih (Flag.warningStem w :: seen)
      constructor
      · rw [List.map_cons, List.nodup_cons]
        refine ⟨?_, hnodup⟩
        intro hmem
        obtain ⟨v, hv, he⟩ := List.mem_map.mp hmem
        exact hseen v hv (by rw [he]; exact List.mem_cons_self)
      · intro v hv
        rcases List.mem_cons.mp hv with rfl | hv
        · exact hw
        · exact fun hmem => hseen v hv (List.mem_cons_of_mem _ hmem)

theorem nodup_uniqueWarnings (ws : List String) :
    ((uniqueWarnings ws).map Flag.warningStem).Nodup :=
  (keepFirst_stems [] ws).1

end Options

namespace Binary64

theorem twoTo_pos (n : Nat) : 0 < twoTo n := Nat.pow_pos (by decide)

theorem not_isZero_of_isNat_one {x : Binary64} (h : x.isNat 1 = true) : x.isZero = false := by
  cases x with
  | finite negative m q =>
    cases m with
    | zero =>
      have hpos := twoTo_pos (-q).toNat
      simp only [isNat, Nat.zero_mul, Nat.one_mul, Bool.and_eq_true, beq_iff_eq] at h
      omega
    | succ m => rfl
  | infinite negative => rfl
  | nan => rfl

end Binary64

theorem Value.isGiven_of_readBool {v : Value} (h : v.readBool = .ok true) : v.isGiven = true := by
  cases v with
  | bool b =>
    cases h
    rfl
  | int n =>
    simp only [isGiven, bne_iff_ne]
    rintro rfl
    cases h
  | float x =>
    simp only [readBool] at h
    split at h
    · cases h
    · split at h
      · rename_i hx
        rw [isGiven, Binary64.not_isZero_of_isNat_one hx]
        rfl
      · split at h <;> contradiction
  | text s =>
    simp only [isGiven, bne_iff_ne]
    rintro rfl
    contradiction
  | null => contradiction
  | moment m => contradiction
  | array items => contradiction
  | table entries => contradiction

namespace Entries

theorem readBool_eq_true {es : Entries} {name : String}
    (h : (es.readBool name false).value = true) :
    ∃ v, Assoc.get? es name = some v ∧ v.readBool = .ok true := by
  unfold readBool read at h
  cases hv : Assoc.get? es name with
  | none =>
    rw [hv] at h
    contradiction
  | some v =>
    rw [hv] at h
    cases hb : v.readBool with
    | ok b =>
      simp only [hb] at h
      exact ⟨v, rfl, by rw [hb, h]⟩
    | error c =>
      simp only [hb] at h
      contradiction

end Entries

namespace Options

theorem get?_reconcile_of_ne {es : Entries} {name : String} (h : name ≠ "show_encoding") :
    Assoc.get? (reconcile es) name = Assoc.get? es name := by
  unfold reconcile
  split
  · rw [Assoc.get?_put, if_neg (Ne.symm h)]
  · rfl

theorem showEncoding_of_emitIr {es : Entries}
    (h : ((reconcile es).readBool "emit_ir" false).value = true) :
    ((reconcile es).readBool "show_encoding" false).value = false := by
  obtain ⟨v, hv, hb⟩ := Entries.readBool_eq_true h
  have hemit : Assoc.get? es "emit_ir" = some v := by
    rw [← hv, get?_reconcile_of_ne (by decide)]
  have hgiven : (given? es "emit_ir").isSome = true := by
    simp [given?, hemit, Option.filter, Value.isGiven_of_readBool hb]
  simp only [reconcile, hgiven, if_true, Entries.readBool, Entries.read, Assoc.get?_put]
  rfl

theorem mapError_toExcept_eq_ok_iff {α ε : Type} {r : Reading α} {f : List Problem → ε} {a : α} :
    r.toExcept.mapError f = .ok a ↔ r.isClean = true ∧ a = r.value := by
  unfold Reading.toExcept
  split
  · rename_i hc
    constructor
    · intro h
      exact ⟨hc, (Except.ok.inj h).symm⟩
    · rintro ⟨-, rfl⟩
      rfl
  · rename_i hc
    constructor
    · intro h
      contradiction
    · intro h
      exact absurd h.1 hc

theorem ofEntries_eq_ok_iff {dir : String} {es : Entries} {o : Options} :
    ofEntries dir es = .ok o ↔ ∃ language asked, askedLanguage es = .ok language ∧
      askedStandard es = .ok asked ∧
      (readFields dir language (language.standard asked) (reconcile es)).isClean = true ∧
      o = (readFields dir language (language.standard asked) (reconcile es)).value := by
  unfold ofEntries
  constructor
  · intro h
    cases hl : askedLanguage es with
    | error e =>
      rw [hl] at h
      contradiction
    | ok language =>
      cases hs : askedStandard es with
      | error e =>
        rw [hl, hs] at h
        contradiction
      | ok asked =>
        simp only [hl, hs, bind, Except.bind] at h
        exact ⟨language, asked, rfl, rfl, mapError_toExcept_eq_ok_iff.mp h⟩
  · rintro ⟨language, asked, hl, hs, h⟩
    simp only [hl, hs, bind, Except.bind]
    exact mapError_toExcept_eq_ok_iff.mpr h

section

variable (dir : String) (l : Language) (standard : String) (es : Entries)

@[simp] theorem readFields_language : (readFields dir l standard es).value.language = l := rfl

@[simp] theorem readFields_standard : (readFields dir l standard es).value.standard = standard := rfl

@[simp] theorem readFields_emitIr :
    (readFields dir l standard es).value.emitIr = (es.readBool "emit_ir" false).value := rfl

@[simp] theorem readFields_showEncoding :
    (readFields dir l standard es).value.showEncoding =
      (es.readBool "show_encoding" false).value := rfl

@[simp] theorem readFields_warnings :
    (readFields dir l standard es).value.warnings =
      uniqueWarnings (es.readTexts "warnings" defaultWarnings .notSequence).value := rfl

theorem settled_readFields (asked : String) :
    Settled (readFields dir l (l.standard asked) (reconcile es)).value where
  encoding := by
    rw [readFields_emitIr, readFields_showEncoding]
    exact showEncoding_of_emitIr
  standard_ne := by
    rw [readFields_standard]
    exact Language.standard_ne l asked
  standard_trimmed := by
    rw [readFields_standard]
    exact Language.trimmed_standard l asked
  standard_plain := by
    rw [readFields_language, readFields_standard]
    rintro (rfl | rfl)
    · exact Language.not_plusPlus_standard rfl asked
    · exact Language.not_plusPlus_standard rfl asked
  warnings := by
    rw [readFields_warnings]
    exact nodup_uniqueWarnings _

end

theorem settled_of_ofEntries {dir : String} {es : Entries} {o : Options}
    (h : ofEntries dir es = .ok o) : Settled o := by
  obtain ⟨language, asked, -, -, -, rfl⟩ := ofEntries_eq_ok_iff.mp h
  exact settled_readFields dir language es asked

def Resolved (o : Options) : Prop := ∃ dir data, resolve dir data = .ok o

theorem resolved_of_ofEntries {dir : String} {es : Entries} {o : Options}
    (h : ofEntries dir es = .ok o) : Resolved o :=
  ⟨dir, .table es, h⟩

theorem resolved_of_update {dir : String} {o o' : Options} {changes : Entries}
    (h : o.update dir changes = .ok o') : Resolved o' :=
  resolved_of_ofEntries h

def unasked (dir : String) : Options :=
  { language := .cxx
    standard := "c++1y"
    optimization := .o3
    architecture := "native"
    wordSize := none
    exceptions := false
    rtti := false
    fastMath := false
    emitIr := false
    verboseAssembly := true
    showEncoding := false
    debugInfo := false
    demangle := true
    combinedOutput := false
    defines := []
    undefs := []
    warnings := defaultWarnings
    includes := defaultIncludes dir
    extraFlags := [] }

theorem Resolved.settled {o : Options} (h : Resolved o) : Settled o := by
  obtain ⟨dir, data, hr⟩ := h
  cases data with
  | table es => exact settled_of_ofEntries hr
  | null => contradiction
  | bool b => contradiction
  | int n => contradiction
  | float x => contradiction
  | text s => contradiction
  | moment m => contradiction
  | array items => contradiction

end Options

end AsmLens
