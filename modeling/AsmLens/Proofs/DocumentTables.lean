import AsmLens.Proofs.DistinctKeys
import AsmLens.Toml.Document

namespace AsmLens.Toml

theorem bind_eq_ok_iff {ε α β : Type} {x : Except ε α} {f : α → Except ε β} {b : β} :
    (x >>= f) = .ok b ↔ ∃ a, x = .ok a ∧ f a = .ok b := by
  cases x with
  | ok a => simp [bind, Except.bind]
  | error e => simp [bind, Except.bind]

theorem orMalformed_eq_ok_iff {α : Type} {a? : Option α} {a : α} :
    orMalformed a? = .ok a ↔ a? = some a := by
  cases a? <;> simp [orMalformed]

theorem distinct_within? {lists : Bool} {path : Key} {change : Entries → Option Entries}
    (hchange : ∀ es es', es.Distinct → change es = some es' → es'.Distinct)
    {es es' : Entries} (h : es.Distinct) (hes : within? lists path change es = some es') :
    es'.Distinct := by
  induction path generalizing es es' with
  | nil => exact hchange es es' h hes
  | cons k rest ih =>
    rw [within?] at hes
    split at hes
    · obtain ⟨sub, hsub, rfl⟩ := Option.map_eq_some_iff.mp hes
      exact h.put k (Entries.distinct_iff.mpr (ih Entries.distinct_nil hsub))
    · rename_i sub hk
      obtain ⟨sub', hsub, rfl⟩ := Option.map_eq_some_iff.mp hes
      exact h.put k (Entries.distinct_iff.mpr (ih (Entries.distinct_iff.mp (h.get? hk)) hsub))
    · rename_i items hk
      split at hes
      · rename_i sub hlast
        obtain ⟨sub', hsub, rfl⟩ := Option.map_eq_some_iff.mp hes
        have hitems : ∀ v ∈ items, Value.Distinct v := by
          cases h.get? hk with
          | array hitems => exact hitems
        have hmem : Value.table sub ∈ items := List.mem_of_getLast? hlast
        apply h.put k
        apply Value.Distinct.array
        intro v hv
        rcases List.mem_append.mp hv with hv | hv
        · exact hitems v (List.dropLast_subset items hv)
        · rw [List.mem_singleton.mp hv]
          exact Entries.distinct_iff.mpr (ih (Entries.distinct_iff.mp (hitems _ hmem)) hsub)
      · contradiction
    · contradiction

theorem distinct_insert? {k : String} {v : Value} (hv : v.Distinct) (es es' : Entries)
    (h : es.Distinct) (hes : insert? k v es = some es') : es'.Distinct := by
  unfold insert? at hes
  split at hes
  · contradiction
  · cases hes
    exact h.put k hv

theorem distinct_append? {k : String} (es es' : Entries) (h : es.Distinct)
    (hes : append? k es = some es') : es'.Distinct := by
  have hempty : Value.Distinct (.table []) := Entries.distinct_iff.mpr Entries.distinct_nil
  unfold append? at hes
  split at hes
  · cases hes
    apply h.put k
    apply Value.Distinct.array
    intro v hv
    rw [List.mem_singleton.mp hv]
    exact hempty
  · rename_i items hk
    cases hes
    have hitems : ∀ v ∈ items, Value.Distinct v := by
      cases h.get? hk with
      | array hitems => exact hitems
    apply h.put k
    apply Value.Distinct.array
    intro v hv
    rcases List.mem_append.mp hv with hv | hv
    · exact hitems v hv
    · rw [List.mem_singleton.mp hv]
      exact hempty
  · contradiction

theorem distinct_readDecimal? {s rest : List Char} {v : Value}
    (h : readDecimal? s = some (.ok (v, rest))) : v.Distinct := by
  unfold readDecimal? at h
  split at h
  split at h
  · contradiction
  · split at h
    split at h
    · cases h
      exact .float _
    · split at h
      · cases h
        exact .float _
      · split at h
        · cases h
        · cases h
          exact .int _

theorem distinct_readScalar {s rest : List Char} {v : Value} (h : readScalar s = .ok (v, rest)) :
    v.Distinct := by
  unfold readScalar at h
  split at h
  · rename_i r hr
    cases r with
    | error e => contradiction
    | ok m =>
      cases h
      exact .moment _
  · split at h
    · cases h
      exact .moment _
    · split at h
      · cases h
        exact .int _
      · split at h
        · rename_i r hr
          rw [h] at hr
          exact distinct_readDecimal? hr
        · split at h
          · cases h
            exact .float _
          · contradiction

structure ReadsDistinct (n : Nat) : Prop where
  value {s rest v} (h : readValue n s = .ok (v, rest)) : Value.Distinct v
  items {s rest vs} (h : readItems n s = .ok (vs, rest)) : ∀ v ∈ vs, Value.Distinct v
  entries {closed es s rest es'} (hes : Entries.Distinct es)
    (h : readInline n closed es s = .ok (es', rest)) : Entries.Distinct es'

section

variable {n : Nat} (ih : ReadsDistinct n) {s rest : List Char}

include ih

theorem distinct_readValue_succ {v : Value} (h : readValue (n + 1) s = .ok (v, rest)) :
    v.Distinct := by
  unfold readValue at h
  split at h
  · contradiction
  · obtain ⟨filled, -, h⟩ := bind_eq_ok_iff.mp h
    split at h
    · cases h
      exact .array (fun _ hv => nomatch hv)
    · obtain ⟨⟨vs, after⟩, hvs, h⟩ := bind_eq_ok_iff.mp h
      cases h
      exact .array (ih.items hvs)
  · split at h
    · cases h
      exact Entries.distinct_iff.mpr Entries.distinct_nil
    · obtain ⟨⟨es, after⟩, hes, h⟩ := bind_eq_ok_iff.mp h
      cases h
      exact Entries.distinct_iff.mpr (ih.entries Entries.distinct_nil hes)
  · split at h
    · obtain ⟨⟨t, after⟩, -, h⟩ := bind_eq_ok_iff.mp h
      cases h
      exact .text t
    · split at h
      · obtain ⟨after, -, h⟩ := bind_eq_ok_iff.mp h
        cases h
        exact .bool true
      · split at h
        · obtain ⟨after, -, h⟩ := bind_eq_ok_iff.mp h
          cases h
          exact .bool false
        · exact distinct_readScalar h

theorem distinct_readItems_succ {vs : List Value} (h : readItems (n + 1) s = .ok (vs, rest)) :
    ∀ v ∈ vs, Value.Distinct v := by
  rw [readItems] at h
  obtain ⟨⟨v, after⟩, hv, h⟩ := bind_eq_ok_iff.mp h
  have hfirst : v.Distinct := ih.value hv
  have hsingle : ∀ w ∈ [v], Value.Distinct w := by
    intro w hw
    rwa [List.mem_singleton.mp hw]
  obtain ⟨filled, -, h⟩ := bind_eq_ok_iff.mp h
  split at h
  · cases h
    exact hsingle
  · obtain ⟨more, -, h⟩ := bind_eq_ok_iff.mp h
    split at h
    · cases h
      exact hsingle
    · obtain ⟨⟨ws, last⟩, hws, h⟩ := bind_eq_ok_iff.mp h
      cases h
      intro w hw
      rcases List.mem_cons.mp hw with rfl | hw
      · exact hfirst
      · exact ih.items hws w hw
  · contradiction

theorem distinct_readInline_succ {closed : List Key} {es es' : Entries} (hes : es.Distinct)
    (h : readInline (n + 1) closed es s = .ok (es', rest)) : es'.Distinct := by
  rw [readInline] at h
  obtain ⟨⟨key, afterKey⟩, -, h⟩ := bind_eq_ok_iff.mp h
  obtain ⟨⟨v, after⟩, hv, h⟩ := bind_eq_ok_iff.mp h
  dsimp only at h
  split at h
  · contradiction
  · obtain ⟨more, hmore, h⟩ := bind_eq_ok_iff.mp h
    have hdistinct : more.Distinct :=
      distinct_within? (distinct_insert? (ih.value hv)) hes (orMalformed_eq_ok_iff.mp hmore)
    split at h
    · cases h
      exact hdistinct
    · exact ih.entries hdistinct h
    · contradiction

end

theorem readsDistinct (n : Nat) : ReadsDistinct n := by
  induction n with
  | zero =>
    constructor
    · intro s rest v h
      contradiction
    · intro s rest vs h
      contradiction
    · intro closed es s rest es' _ h
      contradiction
  | succ n ih =>
    constructor
    · exact distinct_readValue_succ ih
    · exact distinct_readItems_succ ih
    · exact distinct_readInline_succ ih

namespace Draft

theorem distinct_openTable {d d' : Draft} {key : Key} (hd : d.entries.Distinct)
    (h : d.openTable key = .ok d') : d'.entries.Distinct := by
  unfold openTable at h
  split at h
  · contradiction
  · obtain ⟨es, hes, h⟩ := bind_eq_ok_iff.mp h
    cases h
    refine distinct_within? ?_ hd (orMalformed_eq_ok_iff.mp hes)
    intro sub sub' hsub hsome
    cases hsome
    exact hsub

theorem distinct_openItem {d d' : Draft} {key : Key} (hd : d.entries.Distinct)
    (h : d.openItem key = .ok d') : d'.entries.Distinct := by
  unfold openItem at h
  split at h
  · contradiction
  · obtain ⟨es, hes, h⟩ := bind_eq_ok_iff.mp h
    cases h
    exact distinct_within? distinct_append? hd (orMalformed_eq_ok_iff.mp hes)

theorem distinct_addEntry {d d' : Draft} {key : Key} {v : Value} (hd : d.entries.Distinct)
    (hv : v.Distinct) (h : d.addEntry key v = .ok d') : d'.entries.Distinct := by
  unfold addEntry at h
  dsimp only at h
  split at h
  · contradiction
  · split at h
    · contradiction
    · obtain ⟨es, hes, h⟩ := bind_eq_ok_iff.mp h
      cases h
      exact distinct_within? (distinct_insert? hv) hd (orMalformed_eq_ok_iff.mp hes)

theorem distinct_readStatement {d d' : Draft} {s rest : List Char} (hd : d.entries.Distinct)
    (h : d.readStatement s = .ok (d', rest)) : d'.entries.Distinct := by
  unfold readStatement at h
  split at h
  · obtain ⟨⟨key, after⟩, -, h⟩ := bind_eq_ok_iff.mp h
    obtain ⟨e, he, h⟩ := bind_eq_ok_iff.mp h
    cases h
    exact distinct_openItem (d := d.settle) hd he
  · obtain ⟨⟨key, after⟩, -, h⟩ := bind_eq_ok_iff.mp h
    obtain ⟨e, he, h⟩ := bind_eq_ok_iff.mp h
    cases h
    exact distinct_openTable (d := d.settle) hd he
  · cases h
    exact hd
  · obtain ⟨⟨key, afterKey⟩, -, h⟩ := bind_eq_ok_iff.mp h
    obtain ⟨⟨v, after⟩, hv, h⟩ := bind_eq_ok_iff.mp h
    obtain ⟨e, he, h⟩ := bind_eq_ok_iff.mp h
    cases h
    exact distinct_addEntry hd ((readsDistinct _).value hv) he

theorem distinct_readAll {n : Nat} {d d' : Draft} {s : List Char} (hd : d.entries.Distinct)
    (h : readAll n d s = .ok d') : d'.entries.Distinct := by
  induction n generalizing d s with
  | zero => contradiction
  | succ n ih =>
    rw [readAll] at h
    split at h
    · cases h
      exact hd
    · exact ih hd h
    · obtain ⟨⟨e, after⟩, he, h⟩ := bind_eq_ok_iff.mp h
      have hdistinct : e.entries.Distinct := distinct_readStatement hd he
      obtain ⟨left, -, h⟩ := bind_eq_ok_iff.mp h
      split at h
      · cases h
        exact hdistinct
      · exact ih hdistinct h
      · contradiction

end Draft

theorem distinct_of_parse {s : List Char} {es : Entries} (h : parse s = .ok es) : es.Distinct := by
  obtain ⟨d, hd, h⟩ := bind_eq_ok_iff.mp h
  cases h
  exact Draft.distinct_readAll (d := .empty) Entries.distinct_nil hd

end AsmLens.Toml
