import AsmLens.Proofs.OptionsResolution

namespace AsmLens

namespace Binary64

theorem isNat_inj {x : Binary64} {m n : Nat} (hm : x.isNat m = true) (hn : x.isNat n = true) :
    m = n := by
  cases x with
  | finite negative k q =>
    simp only [isNat, Bool.and_eq_true, beq_iff_eq] at hm hn
    exact Nat.eq_of_mul_eq_mul_right (twoTo_pos _) (hm.1.symm.trans hn.1)
  | infinite negative => contradiction
  | nan => contradiction

theorem isZero_of_isNat {x : Binary64} (h : x.isNat 0 = true) : x.isZero = true := by
  cases x with
  | finite negative k q =>
    simp only [isNat, Nat.zero_mul, Bool.and_eq_true, beq_iff_eq] at h
    have hk := (Nat.mul_eq_zero.mp h.1).resolve_right (Nat.ne_of_gt (twoTo_pos _))
    rw [isZero, hk, beq_self_eq_true]
  | infinite negative => contradiction
  | nan => contradiction

end Binary64

namespace Value

def words (b : Bool) : List String := if b then trueWords else falseWords

/-- The ways to write a yes or a no. -/
inductive Spells (b : Bool) : Value → Prop where
  | bool : Spells b (.bool b)
  | int : Spells b (.int b.toNat)
  | float {x : Binary64} (h : x.isNat b.toNat = true) : Spells b (.float x)
  | text {s : String} (h : String.ofList (s.toList.map Char.toLower) ∈ words b) : Spells b (.text s)

theorem spells_of_readBool {v : Value} {b : Bool} (h : v.readBool = .ok b) : Spells b v := by
  cases v with
  | bool c =>
    obtain rfl := Except.ok.inj h
    exact .bool
  | int n =>
    simp only [readBool] at h
    split at h
    · rename_i hn
      obtain rfl := Except.ok.inj h
      rw [hn]
      exact .int
    · split at h
      · rename_i hn
        obtain rfl := Except.ok.inj h
        rw [hn]
        exact .int
      · split at h <;> contradiction
  | float x =>
    simp only [readBool] at h
    split at h
    · rename_i hx
      obtain rfl := Except.ok.inj h
      exact .float hx
    · split at h
      · rename_i hx
        obtain rfl := Except.ok.inj h
        exact .float hx
      · split at h <;> contradiction
  | text s =>
    simp only [readBool] at h
    split at h
    · rename_i hs
      obtain rfl := Except.ok.inj h
      exact .text (List.contains_iff_mem.mp hs)
    · split at h
      · rename_i hs
        obtain rfl := Except.ok.inj h
        exact .text (List.contains_iff_mem.mp hs)
      · contradiction
  | _ => contradiction

theorem Spells.readBool {v : Value} {b : Bool} (h : Spells b v) : v.readBool = .ok b := by
  cases h with
  | bool => rfl
  | int => cases b <;> rfl
  | @float x h =>
    cases b with
    | false => simp [Value.readBool, show x.isNat 0 = true from h]
    | true =>
      have hzero : x.isNat 0 = false := by
        rw [Bool.eq_false_iff]
        intro hx
        exact absurd (Binary64.isNat_inj hx h) (by decide)
      simp [Value.readBool, hzero, show x.isNat 1 = true from h]
  | @text s h =>
    cases b with
    | true => simp [Value.readBool, show _ ∈ trueWords from h]
    | false =>
      have hdisjoint : ∀ w ∈ falseWords, w ∉ trueWords := by decide
      simp [Value.readBool, hdisjoint _ h, show _ ∈ falseWords from h]

theorem readBool_eq_ok_iff {v : Value} {b : Bool} : v.readBool = .ok b ↔ Spells b v :=
  ⟨spells_of_readBool, Spells.readBool⟩

theorem Spells.eq_true_iff {v : Value} {b : Bool} (h : Spells b v) : b = true ↔ Spells true v := by
  constructor
  · rintro rfl
    exact h
  · intro htrue
    exact Except.ok.inj (h.readBool.symm.trans htrue.readBool)

theorem isGiven_iff_of_spells_false {v : Value} (h : Spells false v) :
    v.isGiven = true ↔ ∃ s, v = .text s := by
  cases h with
  | bool => simp [isGiven]
  | int => simp [isGiven]
  | @float x h =>
    simp [isGiven, Binary64.isZero_of_isNat h]
  | @text s h =>
    have hs : s ≠ "" := by
      rintro rfl
      exact absurd h (by decide)
    simp [isGiven, hs]

end Value

namespace Entries

open Value (Spells)

theorem readBool_iff {es : Entries} {name : String} {fallback b : Bool} :
    (es.readBool name fallback).problems = [] ∧ (es.readBool name fallback).value = b ↔
      Spells b ((Assoc.get? es name).getD (.bool fallback)) := by
  unfold readBool read
  cases Assoc.get? es name with
  | none =>
    rw [Option.getD_none, ← Value.readBool_eq_ok_iff]
    simp [Value.readBool]
  | some v =>
    rw [Option.getD_some, ← Value.readBool_eq_ok_iff]
    cases hv : v.readBool <;> simp [hv]

def Says (es : Entries) (name : String) (b : Bool) : Prop :=
  ∃ v, Assoc.get? es name = some v ∧ Spells b v

theorem says_true_iff {es : Entries} {name : String} :
    es.Says name true ↔ Spells true ((Assoc.get? es name).getD (.bool false)) := by
  unfold Says
  cases Assoc.get? es name with
  | none =>
    simp only [Option.getD_none, reduceCtorEq, false_and, exists_false, false_iff]
    rintro ⟨⟩
  | some v => simp

end Entries

namespace Options

open Value (Spells)

theorem switches_clean {dir : String} {l : Language} {standard : String} {es : Entries}
    (h : (readFields dir l standard es).isClean = true) :
    (es.readBool "emit_ir" false).problems = [] ∧ (es.readBool "show_encoding" false).problems = [] := by
  simp only [Reading.isClean, readFields, List.isEmpty_iff, List.append_eq_nil_iff] at h
  simp only [h, and_self]

theorem switches_of_ofEntries {dir : String} {es : Entries} {o : Options} (h : ofEntries dir es = .ok o) :
    Spells o.emitIr ((Assoc.get? es "emit_ir").getD (.bool false)) ∧
      Spells o.showEncoding ((Assoc.get? (reconcile es) "show_encoding").getD (.bool false)) := by
  obtain ⟨language, asked, -, -, hclean, rfl⟩ := ofEntries_eq_ok_iff.mp h
  obtain ⟨hemit, hencoding⟩ := switches_clean hclean
  have hspelled := Entries.readBool_iff.mp ⟨hemit, rfl⟩
  rw [get?_reconcile_of_ne (by decide)] at hspelled
  exact ⟨hspelled, Entries.readBool_iff.mp ⟨hencoding, rfl⟩⟩

section

variable {dir : String} {es : Entries} {o : Options}

theorem emitIr_iff (h : ofEntries dir es = .ok o) : o.emitIr = true ↔ es.Says "emit_ir" true := by
  rw [Entries.says_true_iff]
  exact (switches_of_ofEntries h).1.eq_true_iff

theorem given_emitIr_iff (h : ofEntries dir es = .ok o) (ho : o.emitIr = false) :
    (given? es "emit_ir").isSome = true ↔ ∃ s, Assoc.get? es "emit_ir" = some (.text s) := by
  have hspelled := (switches_of_ofEntries h).1
  rw [ho] at hspelled
  cases hv : Assoc.get? es "emit_ir" with
  | none => simp [given?, hv]
  | some v =>
    rw [hv, Option.getD_some] at hspelled
    have hgiven := Value.isGiven_iff_of_spells_false hspelled
    simp only [given?, hv, Option.isSome_filter, Option.any_some, hgiven, Option.some.injEq]

theorem showEncoding_iff (h : ofEntries dir es = .ok o) :
    o.showEncoding = true ↔ es.Says "show_encoding" true ∧ o.emitIr = false ∧
      ¬∃ s, Assoc.get? es "emit_ir" = some (.text s) := by
  have hspelled := (switches_of_ofEntries h).2
  cases ho : o.emitIr with
  | true => simp [(settled_of_ofEntries h).encoding ho]
  | false =>
    rw [← given_emitIr_iff h ho, Entries.says_true_iff]
    cases hgiven : (given? es "emit_ir").isSome with
    | true =>
      simp only [reconcile, hgiven, if_true, Assoc.get?_put, Option.getD_some] at hspelled
      have hshown : false = o.showEncoding := Except.ok.inj hspelled.readBool
      simp [← hshown]
    | false =>
      simp only [reconcile, hgiven, Bool.false_eq_true, if_false] at hspelled
      simp only [Bool.false_eq_true, not_false_eq_true, and_true]
      exact hspelled.eq_true_iff

end

theorem isClean_of_switches {es : Entries} {b c : Bool}
    (hemit : Spells b ((Assoc.get? es "emit_ir").getD (.bool false)))
    (hencoding : Spells c ((Assoc.get? es "show_encoding").getD (.bool false)))
    (habsent : ∀ name, name ≠ "emit_ir" → name ≠ "show_encoding" → Assoc.get? es name = none)
    (dir : String) (l : Language) (standard : String) :
    (readFields dir l standard es).isClean = true := by
  have hemit' := (Entries.readBool_iff.mpr hemit).1
  have hencoding' := (Entries.readBool_iff.mpr hencoding).1
  simp only [Reading.isClean, readFields, hemit', hencoding']
  simp [Entries.readTexts, Entries.readBool, Entries.readText, Entries.read, habsent]

theorem exists_resolve_switches (dir : String) {b c : Bool} {v w : Value} (hv : Spells b v)
    (hw : Spells c w) :
    ∃ o, resolve dir (.table [("show_encoding", v), ("emit_ir", w)]) = .ok o := by
  refine ⟨_, ofEntries_eq_ok_iff.mpr ⟨.cxx, "", rfl, rfl, ?_, rfl⟩⟩
  have hencoding : ∃ d, Spells d ((Assoc.get? (reconcile [("show_encoding", v), ("emit_ir", w)])
      "show_encoding").getD (.bool false)) := by
    unfold reconcile
    split
    · rw [Assoc.get?_put, if_pos rfl]
      exact ⟨false, .bool⟩
    · exact ⟨b, hv⟩
  obtain ⟨d, hencoding⟩ := hencoding
  apply isClean_of_switches (b := c) _ hencoding
  · intro name hemit hne
    rw [get?_reconcile_of_ne hne]
    simp [Assoc.get?, Ne.symm hne, Ne.symm hemit]
  · rwa [get?_reconcile_of_ne (by decide)]

theorem encoding_switch (dir : String) :
    (∀ b c v w, Spells b v → Spells c w →
      ∃ o, resolve dir (.table [("show_encoding", v), ("emit_ir", w)]) = .ok o) ∧
    ∀ (es : Entries) o, resolve dir (.table es) = .ok o →
      (o.emitIr = true ↔ es.Says "emit_ir" true) ∧
      (o.showEncoding = true ↔ es.Says "show_encoding" true ∧ o.emitIr = false ∧
        ¬∃ s, Assoc.get? es "emit_ir" = some (.text s)) ∧
      ((o.showEncoding = true ↔ es.Says "show_encoding" true ∧ o.emitIr = false) ↔
        ¬(es.Says "show_encoding" true ∧ o.emitIr = false ∧
          ∃ s, Assoc.get? es "emit_ir" = some (.text s))) := by
  refine ⟨fun b c v w hv hw => exists_resolve_switches dir hv hw, fun es o h => ?_⟩
  have hshown := showEncoding_iff h
  refine ⟨emitIr_iff h, hshown, ?_⟩
  rw [hshown]
  constructor
  · rintro hboth ⟨hencoding, hemit, hword⟩
    exact (hboth.mpr ⟨hencoding, hemit⟩).2.2 hword
  · intro hfree
    constructor
    · rintro ⟨hencoding, hemit, -⟩
      exact ⟨hencoding, hemit⟩
    · rintro ⟨hencoding, hemit⟩
      exact ⟨hencoding, hemit, fun hword => hfree ⟨hencoding, hemit, hword⟩⟩

theorem encoding_switch_yes :
    Spells true (.text "Yes") ∧ Spells false (.int 0) ∧
      ∃ o, resolve "/src" (.table [("show_encoding", .text "Yes"), ("emit_ir", .int 0)]) = .ok o ∧
        o.emitIr = false ∧ o.showEncoding = true := by
  have hyes : Spells true (.text "Yes") := .text (by decide)
  have hzero : Spells false (.int 0) := .int
  obtain ⟨haccepted, hread⟩ := encoding_switch "/src"
  obtain ⟨o, ho⟩ := haccepted _ _ _ _ hyes hzero
  obtain ⟨hemit, hshown, -⟩ := hread _ o ho
  have hoff : o.emitIr = false := by
    rw [Bool.eq_false_iff]
    intro hon
    obtain ⟨v, hv, hspelled⟩ := hemit.mp hon
    cases hv
    cases hspelled
  have hplain : ¬∃ s, Assoc.get? [("show_encoding", Value.text "Yes"), ("emit_ir", .int 0)] "emit_ir" =
      some (.text s) := by
    rintro ⟨s, hs⟩
    cases hs
  exact ⟨hyes, hzero, o, ho, hoff, hshown.mpr ⟨⟨_, rfl, hyes⟩, hoff, hplain⟩⟩

theorem word_hides_encoding :
    Spells false (.text "no") ∧
      ∃ o, resolve "/src" (.table [("show_encoding", .bool true), ("emit_ir", .text "no")]) = .ok o ∧
        o.emitIr = false ∧ o.showEncoding = false :=
  ⟨.text (by decide), _, rfl, rfl, rfl⟩

end Options

end AsmLens
