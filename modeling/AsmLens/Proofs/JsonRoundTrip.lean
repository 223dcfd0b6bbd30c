import AsmLens.Json.Printer
import AsmLens.Json.Reader
import AsmLens.Proofs.DistinctKeys
import AsmLens.Proofs.EncodedText
import Mathlib.Tactic.SplitIfs

namespace AsmLens

inductive Value.Textual : Value → Prop where
  | null : Textual .null
  | bool (b : Bool) : Textual (.bool b)
  | text (s : String) : Textual (.text s)
  | array {items : List Value} (h : ∀ v ∈ items, Textual v) : Textual (.array items)
  | table {es : List (String × Value)} (hkeys : (es.map (·.1)).Nodup)
      (h : ∀ e ∈ es, Textual e.2) : Textual (.table es)

namespace Json

theorem readUnits?_unit {c : Char} (h : c.toNat < 0x10000) (rest : List Char) :
    readUnits? (Text.hexDigits 4 c.toNat ++ rest) = some (c, rest) := by
  have hhex : Text.readHex? 4 (Text.hexDigits 4 c.toNat ++ rest) = some (c.toNat, rest) :=
    Text.readHex?_hexDigits h rest
  have hvalid := Text.toNat_cases c
  have hhigh : ¬(0xd800 ≤ c.toNat ∧ c.toNat < 0xdc00) := by omega
  have hlow : ¬(0xdc00 ≤ c.toNat ∧ c.toNat < 0xe000) := by omega
  simp [readUnits?, hhex, hhigh, hlow, Char.ofNat_toNat]

theorem readUnits?_pair {n m : Nat} (hn : 0xd800 ≤ n ∧ n < 0xdc00) (hm : 0xdc00 ≤ m ∧ m < 0xe000)
    (rest : List Char) :
    readUnits? (Text.hexDigits 4 n ++ ('\\' :: 'u' :: (Text.hexDigits 4 m ++ rest))) =
      some (Char.ofNat (0x10000 + (n - 0xd800) * 0x400 + (m - 0xdc00)), rest) := by
  have hpow : Nat.pow 16 4 = 0x10000 := rfl
  have hhex {k : Nat} (hk : k < 0x10000) (s : List Char) :
      Text.readHex? 4 (Text.hexDigits 4 k ++ s) = some (k, s) :=
    Text.readHex?_hexDigits (hpow ▸ hk) s
  have hhigh := hhex (k := n) (by omega) ('\\' :: 'u' :: (Text.hexDigits 4 m ++ rest))
  have hlow := hhex (k := m) (by omega) rest
  simp [readUnits?, hhigh, hlow, hn, hm]

theorem readUnits?_surrogates {c : Char} (h : 0x10000 ≤ c.toNat) (rest : List Char) :
    readUnits? (Text.hexDigits 4 (0xd800 + (c.toNat - 0x10000) / 0x400) ++
      ('\\' :: 'u' :: (Text.hexDigits 4 (0xdc00 + (c.toNat - 0x10000) % 0x400) ++ rest))) =
      some (c, rest) := by
  have hvalid := Text.toNat_cases c
  rw [readUnits?_pair (by omega) (by omega)]
  have hsum : 0x10000 + (0xd800 + (c.toNat - 0x10000) / 0x400 - 0xd800) * 0x400 +
      (0xdc00 + (c.toNat - 0x10000) % 0x400 - 0xdc00) = c.toNat := by omega
  rw [hsum, Char.ofNat_toNat]

theorem readUnits?_unitEscapes (c : Char) (rest : List Char) :
    ∃ s, unitEscapes c ++ rest = '\\' :: 'u' :: s ∧ readUnits? s = some (c, rest) := by
  unfold unitEscapes
  simp only
  split
  · rename_i hlow
    exact ⟨_, rfl, readUnits?_unit hlow rest⟩
  · rename_i hhigh
    refine ⟨_, ?_, readUnits?_surrogates (by omega) rest⟩
    simp only [unitEscape, List.append_assoc, List.cons_append]

theorem readQuoted?_escaped {n : Nat} {e c : Char} {s rest : List Char}
    (h : (if e = 'u' then readUnits? s else (shortEscape? e).map (·, s)) = some (c, rest)) :
    readQuoted? (n + 1) ('\\' :: e :: s) = (readQuoted? n rest).map fun p => (c :: p.1, p.2) := by
  rw [readQuoted?]
  split at h
  · rename_i he
    simp only [he, if_true, h, bind, Option.bind, pure]
    cases readQuoted? n rest <;> rfl
  · rename_i he
    simp only [he, if_false, h, bind, Option.bind, pure]
    cases readQuoted? n rest <;> rfl

theorem readQuoted?_plain {n : Nat} {c : Char} {rest : List Char} (hquote : c ≠ '"')
    (hslash : c ≠ '\\') (h : ¬c.toNat < 0x20) :
    readQuoted? (n + 1) (c :: rest) = (readQuoted? n rest).map fun p => (c :: p.1, p.2) := by
  rw [readQuoted?]
  · simp only [hquote, hslash, h, if_false, decide_false, Bool.or_self, bind, Option.bind, pure]
    cases readQuoted? n rest <;> rfl
  · rintro d s hd -
    exact hslash hd

theorem readQuoted?_escapeChar (ascii : Bool) (n : Nat) (c : Char) (rest : List Char) :
    readQuoted? (n + 1) (escapeChar ascii c ++ rest) =
      (readQuoted? n rest).map fun p => (c :: p.1, p.2) := by
  unfold escapeChar
  split_ifs with hquote hslash hn hr ht hf hb hunits
  · exact readQuoted?_escaped (by rw [hquote]; rfl)
  · exact readQuoted?_escaped (by rw [hslash]; rfl)
  · exact readQuoted?_escaped (by rw [hn]; rfl)
  · exact readQuoted?_escaped (by rw [hr]; rfl)
  · exact readQuoted?_escaped (by rw [ht]; rfl)
  · have hc : c = '\x0c' := Char.ext (UInt32.toNat_inj.mp hf)
    exact readQuoted?_escaped (by rw [hc]; rfl)
  · have hc : c = '\x08' := Char.ext (UInt32.toNat_inj.mp hb)
    exact readQuoted?_escaped (by rw [hc]; rfl)
  · obtain ⟨s, hs, hread⟩ := readUnits?_unitEscapes c rest
    rw [hs]
    exact readQuoted?_escaped hread
  · simp only [Bool.or_eq_true, decide_eq_true_eq, not_or] at hunits
    exact readQuoted?_plain hquote hslash hunits.1

theorem readQuoted?_flatMap (ascii : Bool) {n : Nat} {cs : List Char} (h : cs.length < n)
    (rest : List Char) :
    readQuoted? n (cs.flatMap (escapeChar ascii) ++ '"' :: rest) = some (cs, rest) := by
  induction cs generalizing n with
  | nil =>
    obtain ⟨n, rfl⟩ := Nat.exists_eq_add_of_lt h
    rfl
  | cons c cs ih =>
    cases n with
    | zero => contradiction
    | succ n =>
      rw [List.flatMap_cons, List.append_assoc, readQuoted?_escapeChar]
      rw [ih (by simpa using h)]
      rfl

theorem escapeChar_ne_nil (ascii : Bool) (c : Char) : escapeChar ascii c ≠ [] := by
  -- It is read as a character, which nothing is not.
  intro hnil
  have hread := readQuoted?_escapeChar ascii 0 c ['"']
  rw [hnil] at hread
  contradiction

theorem length_le_flatMap (ascii : Bool) (cs : List Char) :
    cs.length ≤ (cs.flatMap (escapeChar ascii)).length := by
  induction cs with
  | nil => simp
  | cons c cs ih =>
    have hpos := List.length_pos_iff.mpr (escapeChar_ne_nil ascii c)
    simp only [List.flatMap_cons, List.length_append, List.length_cons]
    omega

theorem readText?_quoted (ascii : Bool) (s : String) (rest : List Char) :
    readText? (quoted ascii s ++ rest) = some (s, rest) := by
  have hlength := length_le_flatMap ascii s.toList
  simp only [quoted, readText?, List.cons_append, List.append_assoc, List.nil_append]
  rw [readQuoted?_flatMap ascii]
  · simp
  · simp only [List.length_append, List.length_cons]
    omega

def isOpening (c : Char) : Bool := ['n', 't', 'f', '"', '[', '\x7b'].contains c

theorem of_isOpening {c : Char} (h : isOpening c = true) :
    isSpace c = false ∧ c ≠ ']' ∧ c ≠ '\x7d' := by
  simp only [isOpening, List.contains_iff_mem, List.mem_cons, List.not_mem_nil, or_false] at h
  rcases h with rfl | rfl | rfl | rfl | rfl | rfl <;> decide

theorem exists_write_eq_cons {v : Value} (h : v.Textual) (l : Layout) (d : Nat) :
    ∃ c s, write l d v = c :: s ∧ isOpening c = true := by
  cases h with
  | null => exact ⟨_, _, rfl, rfl⟩
  | bool b => cases b <;> exact ⟨_, _, rfl, rfl⟩
  | text s => exact ⟨_, _, rfl, rfl⟩
  | @array items h => cases items <;> exact ⟨_, _, rfl, rfl⟩
  | @table es hkeys h => cases es <;> exact ⟨_, _, rfl, rfl⟩

theorem skipSpace_cons {c : Char} (h : isSpace c = false) (s : List Char) :
    skipSpace (c :: s) = c :: s := by
  simp [skipSpace, h]

structure IsGap (g : List Char) : Prop where
  chars : ∀ c ∈ g, c = '\n' ∨ c = ' '
  tail : ∀ c ∈ g.tail, c = ' '

theorem IsGap.isSpace {g : List Char} (h : IsGap g) : ∀ c ∈ g, isSpace c = true := by
  intro c hc
  rcases h.chars c hc with rfl | rfl <;> rfl

theorem isGap_lineBreak (l : Layout) (d : Nat) : IsGap (l.lineBreak d) := by
  unfold Layout.lineBreak
  cases l.indent with
  | none => exact ⟨by simp, by simp⟩
  | some n =>
    refine ⟨fun c hc => ?_, fun c hc => List.eq_of_mem_replicate hc⟩
    exact (List.mem_cons.mp hc).imp id List.eq_of_mem_replicate

theorem exists_comma_eq (l : Layout) (d : Nat) : ∃ g, l.comma d = ',' :: g ∧ IsGap g := by
  unfold Layout.comma
  cases l.indent with
  | none => exact ⟨[' '], rfl, by simp, by simp⟩
  | some n => exact ⟨l.lineBreak d, rfl, isGap_lineBreak l d⟩

theorem skipSpace_append {g : List Char} (hg : ∀ c ∈ g, isSpace c = true) (s : List Char) :
    skipSpace (g ++ s) = skipSpace s := by
  induction g with
  | nil => rfl
  | cons c g ih =>
    have hc := hg c (by simp)
    simp only [skipSpace, List.cons_append, List.dropWhile_cons, hc, if_true]
    exact ih fun d hd => hg d (List.mem_cons_of_mem c hd)

theorem skipSpace_lineBreak {c : Char} (h : isSpace c = false) (l : Layout) (d : Nat) (s : List Char) :
    skipSpace (l.lineBreak d ++ c :: s) = c :: s := by
  rw [skipSpace_append (isGap_lineBreak l d).isSpace, skipSpace_cons h]

def ReadsBack (l : Layout) (d : Nat) (v : Value) : Prop :=
  ∀ n rest, (write l d v).length ≤ n → readValue? n (write l d v ++ rest) = some (v, rest)

theorem skipSpace_write {v : Value} (h : v.Textual) (l : Layout) (d : Nat) (s : List Char) :
    skipSpace (write l d v ++ s) = write l d v ++ s := by
  obtain ⟨c, t, hwrite, hc⟩ := exists_write_eq_cons h l d
  rw [hwrite, List.cons_append, skipSpace_cons (of_isOpening hc).1]

section

variable {l : Layout} {d n : Nat} {v : Value} {g : List Char}

theorem readItems?_first (hv : v.Textual) (hback : ReadsBack l d v) (hn : (write l d v).length ≤ n)
    (hg : ∀ c ∈ g, isSpace c = true) (more : List Char) :
    readItems? (n + 1) (g ++ (write l d v ++ more)) =
      match skipSpace more with
      | ']' :: rest => some ([v], rest)
      | ',' :: rest => do
        let (vs, rest) ← readItems? n rest
        return (v :: vs, rest)
      | _ => none := by
  rw [readItems?, skipSpace_append hg, skipSpace_write hv, hback n _ hn]
  rfl

theorem readItems?_write {vs : List Value} (htext : ∀ w ∈ v :: vs, w.Textual)
    (hback : ∀ w ∈ v :: vs, ReadsBack l d w)
    (hn : (write l d v ++ writeItems l d vs).length ≤ n) (hg : ∀ c ∈ g, isSpace c = true)
    (depth : Nat) (rest : List Char) :
    readItems? (n + 1)
        (g ++ (write l d v ++ (writeItems l d vs ++ (l.lineBreak depth ++ ']' :: rest)))) =
      some (v :: vs, rest) := by
  rw [List.length_append] at hn
  rw [readItems?_first (htext v (by simp)) (hback v (by simp)) (by omega) hg]
  induction vs generalizing v n g with
  | nil =>
    rw [writeItems, List.nil_append, skipSpace_lineBreak (by decide)]
    rfl
  | cons w vs ih =>
    obtain ⟨g', hcomma, hgap⟩ := exists_comma_eq l d
    simp only [writeItems, hcomma, List.length_append, List.length_cons] at hn
    simp only [writeItems, hcomma, List.cons_append, List.append_assoc]
    rw [skipSpace_cons (by decide)]
    have htext' : ∀ u ∈ w :: vs, u.Textual := fun u hu => htext u (List.mem_cons_of_mem v hu)
    have hback' : ∀ u ∈ w :: vs, ReadsBack l d u := fun u hu => hback u (List.mem_cons_of_mem v hu)
    obtain ⟨m, rfl⟩ : ∃ m, n = m + 1 := ⟨n - 1, by omega⟩
    simp only
    rw [readItems?_first (htext' w (by simp)) (hback' w (by simp)) (by omega) hgap.isSpace,
      ih htext' hback' (by omega) hgap.isSpace]
    rfl

theorem skipSpace_quoted (ascii : Bool) (s : String) (rest : List Char) :
    skipSpace (quoted ascii s ++ rest) = quoted ascii s ++ rest :=
  skipSpace_cons (by decide) _

theorem readEntries?_first {k : String} (hv : v.Textual) (hback : ReadsBack l d v)
    (hn : (write l d v).length ≤ n) (hg : ∀ c ∈ g, isSpace c = true) (before : Entries)
    (more : List Char) :
    readEntries? (n + 1) before
        (g ++ (quoted l.asciiOnly k ++ (':' :: ' ' :: (write l d v ++ more)))) =
      match skipSpace more with
      | '\x7d' :: rest => some (Assoc.put before k v, rest)
      | ',' :: rest => readEntries? n (Assoc.put before k v) rest
      | _ => none := by
  rw [readEntries?, skipSpace_append hg, skipSpace_quoted, readText?_quoted]
  simp only [bind, Option.bind]
  rw [skipSpace_cons (by decide)]
  simp only
  have hspace : skipSpace (' ' :: (write l d v ++ more)) = write l d v ++ more :=
    (skipSpace_append (g := [' ']) (by simp [isSpace]) _).trans (skipSpace_write hv l d more)
  rw [hspace, hback n _ hn]
  rfl

theorem put_of_nodup {before es : Entries} {k : String}
    (h : ((before ++ (k, v) :: es).map (·.1)).Nodup) :
    Assoc.put before k v = before ++ [(k, v)] := by
  refine Assoc.put_of_notMem (fun hk => ?_) v
  rw [List.map_append, List.nodup_append] at h
  exact h.2.2 k hk k (by simp) rfl

theorem readEntries?_write {k : String} {es : List (String × Value)}
    (htext : ∀ e ∈ (k, v) :: es, e.2.Textual) (hback : ∀ e ∈ (k, v) :: es, ReadsBack l d e.2)
    {before : Entries} (hkeys : ((before ++ (k, v) :: es).map (·.1)).Nodup)
    (hn : (write l d v ++ writeEntries l d es).length ≤ n) (hg : ∀ c ∈ g, isSpace c = true)
    (depth : Nat) (rest : List Char) :
    readEntries? (n + 1) before (g ++ (quoted l.asciiOnly k ++ (':' :: ' ' :: (write l d v ++
      (writeEntries l d es ++ (l.lineBreak depth ++ '\x7d' :: rest)))))) =
      some (before ++ (k, v) :: es, rest) := by
  rw [List.length_append] at hn
  rw [readEntries?_first (v := v) (htext (k, v) (by simp)) (hback (k, v) (by simp)) (by omega) hg,
    put_of_nodup hkeys]
  induction es generalizing k v n g before with
  | nil =>
    rw [writeEntries, List.nil_append, skipSpace_lineBreak (by decide)]
    rfl
  | cons e es ih =>
    obtain ⟨k', w⟩ := e
    obtain ⟨g', hcomma, hgap⟩ := exists_comma_eq l d
    simp only [writeEntries, hcomma, List.length_append, List.length_cons] at hn
    simp only [writeEntries, hcomma, List.cons_append, List.nil_append, List.append_assoc]
    rw [skipSpace_cons (by decide)]
    have htext' : ∀ e ∈ (k', w) :: es, e.2.Textual :=
      fun e he => htext e (List.mem_cons_of_mem _ he)
    have hback' : ∀ e ∈ (k', w) :: es, ReadsBack l d e.2 :=
      fun e he => hback e (List.mem_cons_of_mem _ he)
    have hkeys' : ((before ++ [(k, v)] ++ (k', w) :: es).map (·.1)).Nodup := by
      simpa using hkeys
    obtain ⟨m, rfl⟩ : ∃ m, n = m + 1 := ⟨n - 1, by omega⟩
    simp only
    rw [readEntries?_first (v := w) (htext' (k', w) (by simp)) (hback' (k', w) (by simp)) (by omega)
        hgap.isSpace,
      put_of_nodup hkeys', ih htext' hback' hkeys' (by omega) hgap.isSpace]
    simp

end

theorem readsBack_array {l : Layout} {d : Nat} {items : List Value} (h : ∀ v ∈ items, v.Textual)
    (hback : ∀ v ∈ items, ReadsBack l (d + 1) v) : ReadsBack l d (.array items) := by
  intro n rest hn
  cases items with
  | nil =>
    obtain ⟨m, rfl⟩ : ∃ m, n = m + 1 := ⟨n - 1, by simp [write] at hn; omega⟩
    rfl
  | cons v vs =>
    simp only [write, List.length_cons, List.length_append] at hn
    obtain ⟨m, rfl⟩ : ∃ m, n = m + 1 + 1 := ⟨n - 2, by omega⟩
    have hv := h v (by simp)
    obtain ⟨c, t, hwrite, hc⟩ := exists_write_eq_cons hv l (d + 1)
    simp only [write, List.cons_append, List.append_assoc, List.nil_append, readValue?]
    rw [skipSpace_append (isGap_lineBreak l (d + 1)).isSpace, skipSpace_write hv]
    split
    · rename_i heq
      rw [hwrite] at heq
      exact absurd (List.cons.inj heq).1 (of_isOpening hc).2.1
    · have hitems := readItems?_write h hback (n := m) (g := []) (by rw [List.length_append]; omega)
        (by simp) d rest
      rw [List.nil_append] at hitems
      rw [hitems]
      rfl

theorem readsBack_table {l : Layout} {d : Nat} {es : List (String × Value)}
    (hkeys : (es.map (·.1)).Nodup) (h : ∀ e ∈ es, e.2.Textual)
    (hback : ∀ e ∈ es, ReadsBack l (d + 1) e.2) : ReadsBack l d (.table es) := by
  intro n rest hn
  cases es with
  | nil =>
    obtain ⟨m, rfl⟩ : ∃ m, n = m + 1 := ⟨n - 1, by simp [write] at hn; omega⟩
    rfl
  | cons e es =>
    obtain ⟨k, v⟩ := e
    simp only [write, List.length_cons, List.length_append] at hn
    obtain ⟨m, rfl⟩ : ∃ m, n = m + 1 + 1 := ⟨n - 2, by omega⟩
    simp only [write, List.cons_append, List.append_assoc, List.nil_append, readValue?]
    rw [skipSpace_append (isGap_lineBreak l (d + 1)).isSpace, skipSpace_quoted]
    split
    · rename_i heq
      exact absurd (List.cons.inj heq).1 (by decide)
    · have hnew : ((([] : Entries) ++ (k, v) :: es).map (·.1)).Nodup := hkeys
      have hentries := readEntries?_write h hback hnew (n := m) (g := [])
        (by rw [List.length_append]; omega) (by simp) d rest
      rw [List.nil_append] at hentries
      rw [hentries]
      rfl

theorem readsBack {v : Value} (h : v.Textual) (l : Layout) (d : Nat) : ReadsBack l d v := by
  induction h generalizing d with
  | null =>
    intro n rest hn
    obtain ⟨m, rfl⟩ : ∃ m, n = m + 1 := ⟨n - 1, by simp [write] at hn; omega⟩
    rfl
  | bool b =>
    intro n rest hn
    obtain ⟨m, rfl⟩ : ∃ m, n = m + 1 := ⟨n - 1, by cases b <;> simp [write] at hn <;> omega⟩
    cases b <;> rfl
  | text s =>
    intro n rest hn
    obtain ⟨m, rfl⟩ : ∃ m, n = m + 1 := ⟨n - 1, by simp [write, quoted] at hn; omega⟩
    have hread := readText?_quoted l.asciiOnly s rest
    simp only [write, quoted, List.cons_append] at hread ⊢
    rw [readValue?, hread]
    rfl
  | array h ih => exact readsBack_array h fun v hv => ih v hv (d + 1)
  | table hkeys h ih => exact readsBack_table hkeys h fun e he => ih e he (d + 1)

theorem parse?_toText {v : Value} (h : v.Textual) (l : Layout) {g : List Char}
    (hg : ∀ c ∈ g, isSpace c = true) : parse? (toText l v ++ String.ofList g) = some v := by
  have hend : skipSpace g = [] := by
    have hskip := skipSpace_append hg []
    rwa [List.append_nil] at hskip
  simp only [parse?, toText, String.toList_append, String.toList_ofList]
  rw [skipSpace_write h, readsBack h l 0 _ _ (by rw [List.length_append]; omega)]
  simp [hend]

end Json

end AsmLens
