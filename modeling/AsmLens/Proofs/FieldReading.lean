import AsmLens.Options.Basic
import AsmLens.Validation
import Mathlib.Logic.Function.Basic

namespace AsmLens

theorem Reading.eq_clean {α : Type} {r : Reading α} {a : α} (h : r.problems = [] ∧ r.value = a) :
    r = { value := a, problems := [] } := by
  rw [← h.1, ← h.2]

namespace Value

theorem readText_eq_ok_iff {v : Value} {s : String} : v.readText = .ok s ↔ v = .text s := by
  cases v <;> simp [readText]

theorem readItems_iff {path : List Step} (index : Nat) {items : List Value} {xs : List String} :
    (readItems path index items).problems = [] ∧ (readItems path index items).value = xs ↔
      items = xs.map .text := by
  induction items generalizing index xs with
  | nil =>
    cases xs with
    | nil => simp [readItems]
    | cons x xs => simp [readItems]
  | cons v items ih =>
    rw [readItems]
    cases hv : v.readText with
    | error c =>
      have hne : ∀ s, v ≠ .text s := by
        intro s hs
        rw [readText_eq_ok_iff.mpr hs] at hv
        contradiction
      cases xs with
      | nil => simp
      | cons x xs => simp [hne]
    | ok s =>
      rw [readText_eq_ok_iff.mp hv]
      cases xs with
      | nil => simp
      | cons x xs =>
        simp only [List.cons.injEq, List.map_cons, text.injEq, ← ih (index + 1)]
        exact ⟨fun h => ⟨h.2.1, h.1, h.2.2⟩, fun h => ⟨h.2.1, h.1, h.2.2⟩⟩

theorem readTexts_texts (path : List Step) (otherwise : Cause) (xs : List String) :
    readTexts path otherwise (Options.texts xs) = { value := xs, problems := [] } :=
  Reading.eq_clean ((readItems_iff 0).mpr rfl)

end Value

namespace Entries

theorem readText_iff {es : Entries} {name fallback s : String} :
    (es.readText name fallback).problems = [] ∧ (es.readText name fallback).value = s ↔
      (Assoc.get? es name).getD (.text fallback) = .text s := by
  unfold readText read
  cases Assoc.get? es name with
  | none => simp
  | some v =>
    rw [Option.getD_some, ← Value.readText_eq_ok_iff]
    cases hv : v.readText <;> simp [hv]

theorem readTexts_iff {es : Entries} {name : String} {fallback xs : List String} (otherwise : Cause) :
    (es.readTexts name fallback otherwise).problems = [] ∧
        (es.readTexts name fallback otherwise).value = xs ↔
      (Assoc.get? es name).getD (Options.texts fallback) = Options.texts xs := by
  unfold readTexts
  cases Assoc.get? es name with
  | none =>
    have hinj : Function.Injective Value.text := fun a b h => Value.text.inj h
    simp [Options.texts, List.map_inj_right hinj]
  | some v =>
    cases v with
    | array items => simp [Value.readTexts, Value.readItems_iff, Options.texts]
    | _ => simp [Value.readTexts, Options.texts]

theorem read_of_get? {α : Type} {es : Entries} {name : String} {reader : Value → Except Cause α}
    {v : Value} {a : α} (h : Assoc.get? es name = some v) (hv : reader v = .ok a) (fallback : α) :
    es.read name fallback reader = { value := a, problems := [] } := by
  simp only [read, h, hv]

theorem readBool_of_get? {es : Entries} {name : String} {b : Bool}
    (h : Assoc.get? es name = some (.bool b)) (fallback : Bool) :
    es.readBool name fallback = { value := b, problems := [] } := by
  have hv : Value.readBool (.bool b) = .ok b := rfl
  exact read_of_get? h hv fallback

theorem readText_of_get? {es : Entries} {name s : String}
    (h : Assoc.get? es name = some (.text s)) (fallback : String) :
    es.readText name fallback = { value := s, problems := [] } :=
  read_of_get? h (Value.readText_eq_ok_iff.mpr rfl) fallback

theorem readTexts_of_get? {es : Entries} {name : String} {xs : List String}
    (h : Assoc.get? es name = some (Options.texts xs)) (fallback : List String) (otherwise : Cause) :
    es.readTexts name fallback otherwise = { value := xs, problems := [] } := by
  simp only [readTexts, h, Value.readTexts_texts]

end Entries

end AsmLens
