import AsmLens.Proofs.FittingLines
import AsmLens.Proofs.JsonRoundTrip
import Mathlib.Data.List.Chain

namespace AsmLens

structure Solid (s : List Char) : Prop where
  chars : ∀ c ∈ s, c = '\n' ∨ 0x20 ≤ c.toNat
  first : ∀ c ∈ s.head?, c ≠ '\n'
  last : ∃ c, s.getLast? = some c ∧ Text.isBlank c = false
  tight : s.IsChain fun a b => b = '\n' → Text.isBlank a = false

namespace Solid

variable {s t g : List Char}

theorem isChain_of_tail {r : Char → Char → Prop} (h : ∀ c ∈ s.tail, ∀ a, r a c) : s.IsChain r := by
  cases s with
  | nil => exact .nil
  | cons c s =>
    induction s generalizing c with
    | nil => exact .singleton c
    | cons d s ih => exact .cons_cons (h d (by simp) c) (ih d fun e he => h e (by simpa using .inr he))

theorem of_line (h : ∀ c ∈ s, 0x20 ≤ c.toNat)
    (hlast : ∃ c, s.getLast? = some c ∧ Text.isBlank c = false) : Solid s := by
  have hne : ∀ c ∈ s, c ≠ '\n' := by
    rintro c hc rfl
    exact absurd (h _ hc) (by decide)
  refine ⟨fun c hc => .inr (h c hc), fun c hc => hne c (List.mem_of_head? hc), hlast, ?_⟩
  exact isChain_of_tail fun c hc a heq => absurd heq (hne c (List.mem_of_mem_tail hc))

theorem join (hs : Solid s) (hg : Json.IsGap g) (ht : Solid t) : Solid (s ++ (g ++ t)) := by
  obtain ⟨c, hc, hink⟩ := hs.last
  obtain ⟨d, hd, hlast⟩ := ht.last
  refine ⟨?_, ?_, ⟨d, ?_, hlast⟩, ?_⟩
  · intro e he
    rcases List.mem_append.mp he with he | he
    · exact hs.chars e he
    · rcases List.mem_append.mp he with he | he
      · rcases hg.chars e he with rfl | rfl
        · exact .inl rfl
        · exact .inr (by decide)
      · exact ht.chars e he
  · intro e he
    cases s with
    | nil => contradiction
    | cons a s => exact hs.first e he
  · rw [List.getLast?_append, List.getLast?_append, hd]
    rfl
  · refine List.isChain_append.mpr ⟨hs.tight, List.isChain_append.mpr ⟨?_, ht.tight, ?_⟩, ?_⟩
    · refine isChain_of_tail fun e he a heq => ?_
      rw [hg.tail e he] at heq
      contradiction
    · intro a _ b hb heq
      exact absurd heq (ht.first b hb)
    · intro a ha b _ _
      obtain rfl : c = a := Option.some.inj (hc.symm.trans ha)
      exact hink

theorem append (hs : Solid s) (ht : Solid t) : Solid (s ++ t) :=
  hs.join (g := []) ⟨nofun, nofun⟩ ht

theorem last_of_mem_pieces (hlast : ∀ c ∈ s.getLast?, Text.isBlank c = false)
    (htight : s.IsChain fun a b => b = '\n' → Text.isBlank a = false) {line : List Char}
    (hline : line ∈ Text.pieces '\n' s) : ∀ c ∈ line.getLast?, Text.isBlank c = false := by
  induction s generalizing line with
  | nil =>
    obtain rfl : line = [] := by simpa [Text.pieces] using hline
    simp
  | cons c s ih =>
    have hrest {line : List Char} (hline : line ∈ Text.pieces '\n' s) :
        ∀ d ∈ line.getLast?, Text.isBlank d = false :=
      ih (fun d hd => hlast d (Text.getLast?_of_cons hd)) htight.tail hline
    by_cases hc : c = '\n'
    · rw [Text.pieces, if_pos hc] at hline
      rcases List.mem_cons.mp hline with rfl | hline
      · simp
      · exact hrest hline
    · obtain ⟨p, ps, hps⟩ := List.exists_cons_of_ne_nil (Text.pieces_ne_nil '\n' s)
      rw [Text.pieces, if_neg hc, hps] at hline
      rw [hps] at hrest
      rcases List.mem_cons.mp hline with rfl | hline
      · cases p with
        | cons d p =>
          rw [List.getLast?_cons_cons]
          exact hrest List.mem_cons_self
        | nil =>
          -- The line is over, and so either is the text or a line end follows.
          rintro d hd
          obtain rfl : c = d := by simpa using hd
          cases s with
          | nil => exact hlast c (by simp)
          | cons e s =>
            by_cases he : e = '\n'
            · exact (List.isChain_cons_cons.mp htight).1 he
            · rw [Text.pieces, if_neg he] at hps
              split at hps <;> cases hps
      · exact hrest (List.mem_cons_of_mem p hline)

theorem fits_of_mem_pieces (h : Solid s) {line : List Char} (hline : line ∈ Text.pieces '\n' s)
    {width : Nat} (hroom : Text.room line ≤ width) : Text.Fits width line where
  room := hroom
  untabbed := by
    intro htab
    have hmem : '\t' ∈ (Text.pieces '\n' s).flatMap (· ++ ['\n']) :=
      List.mem_flatMap.mpr ⟨line, hline, List.mem_append_left _ htab⟩
    rw [Text.flatMap_pieces, List.mem_append] at hmem
    rcases hmem with htab | htab
    · exact absurd (h.chars _ htab) (by decide)
    · exact absurd htab (by decide)
  last := by
    obtain ⟨c, hc, hink⟩ := h.last
    refine last_of_mem_pieces (fun d hd => ?_) h.tight hline
    obtain rfl : c = d := Option.some.inj (hc.symm.trans hd)
    exact hink

end Solid

namespace Json

theorem hexDigit_shown {n : Nat} (h : n < 16) : 0x20 ≤ (Text.hexDigit n).toNat := by
  revert n
  decide

theorem hexDigits_shown (width n : Nat) : ∀ c ∈ Text.hexDigits width n, 0x20 ≤ c.toNat := by
  induction width generalizing n with
  | zero => exact nofun
  | succ w ih =>
    intro c hc
    rcases List.mem_append.mp hc with hc | hc
    · exact ih _ c hc
    · rw [List.mem_singleton.mp hc]
      exact hexDigit_shown (Nat.mod_lt n (by decide))

theorem unitEscapes_shown (c : Char) : ∀ d ∈ unitEscapes c, 0x20 ≤ d.toNat := by
  have hunit (n : Nat) : ∀ d ∈ unitEscape n, 0x20 ≤ d.toNat := by
    simp only [unitEscape, List.forall_mem_cons]
    exact ⟨by decide, by decide, hexDigits_shown 4 n⟩
  unfold unitEscapes
  simp only
  split
  · exact hunit _
  · exact List.forall_mem_append.mpr ⟨hunit _, hunit _⟩

theorem escapeChar_shown (ascii : Bool) (c : Char) : ∀ d ∈ escapeChar ascii c, 0x20 ≤ d.toNat := by
  unfold escapeChar
  split_ifs with hquote hslash hn hr ht hf hb hunits
  · simp
  · simp
  · simp
  · simp
  · simp
  · simp
  · simp
  · exact unitEscapes_shown c
  · simp only [Bool.or_eq_true, decide_eq_true_eq, not_or] at hunits
    simpa using hunits.1

theorem quoted_shown (ascii : Bool) (s : String) : ∀ c ∈ quoted ascii s, 0x20 ≤ c.toNat := by
  simp only [quoted, List.forall_mem_cons, List.forall_mem_append, List.forall_mem_flatMap]
  exact ⟨by decide, fun c _ => escapeChar_shown ascii c, by decide, List.forall_mem_nil _⟩

theorem solid_quoted (ascii : Bool) (s : String) : Solid (quoted ascii s) := by
  refine .of_line (quoted_shown ascii s) ⟨'"', ?_, by decide⟩
  rw [quoted, List.getLast?_cons, List.getLast?_append]
  rfl

theorem solid_sign (c : Char) (h : 0x20 ≤ c.toNat) (hink : Text.isBlank c = false) : Solid [c] :=
  .of_line (by simpa using h) ⟨c, rfl, hink⟩

section

variable {l : Layout} {d : Nat} {s : List Char}

theorem solid_writeItems {vs : List Value} (h : ∀ v ∈ vs, Solid (write l d v)) (hs : Solid s) :
    Solid (s ++ writeItems l d vs) := by
  induction vs generalizing s with
  | nil => simpa [writeItems] using hs
  | cons v vs ih =>
    obtain ⟨g, hcomma, hg⟩ := exists_comma_eq l d
    have hsep : Solid (s ++ [',']) := hs.append (solid_sign ',' (by decide) rfl)
    have hnext := hsep.join hg (h v (by simp))
    have hall := ih (fun w hw => h w (List.mem_cons_of_mem v hw)) hnext
    simpa [writeItems, hcomma] using hall

theorem solid_entry {k : String} {v : Value} (h : Solid (write l d v)) :
    Solid (quoted l.asciiOnly k ++ [':', ' '] ++ write l d v) := by
  have hcolon := (solid_quoted l.asciiOnly k).append (solid_sign ':' (by decide) rfl)
  have hall := hcolon.join (g := [' ']) ⟨by simp, nofun⟩ h
  simpa using hall

theorem solid_writeEntries {es : List (String × Value)} (h : ∀ e ∈ es, Solid (write l d e.2))
    (hs : Solid s) : Solid (s ++ writeEntries l d es) := by
  induction es generalizing s with
  | nil => simpa [writeEntries] using hs
  | cons e es ih =>
    obtain ⟨g, hcomma, hg⟩ := exists_comma_eq l d
    have hsep : Solid (s ++ [',']) := hs.append (solid_sign ',' (by decide) rfl)
    have hnext := hsep.join hg (solid_entry (k := e.1) (h e (by simp)))
    have hall := ih (fun f hf => h f (List.mem_cons_of_mem e hf)) hnext
    simpa [writeEntries, hcomma] using hall

theorem solid_bracketed {first last : Char} (hfirst : Solid [first]) (hlast : Solid [last])
    (hs : Solid s) : Solid (first :: (l.lineBreak (d + 1) ++ s ++ l.lineBreak d ++ [last])) := by
  have hall := (hfirst.join (isGap_lineBreak l (d + 1)) hs).join (isGap_lineBreak l d) hlast
  simpa using hall

end

theorem solid_write {v : Value} (h : v.Textual) (l : Layout) (d : Nat) : Solid (write l d v) := by
  induction h generalizing d with
  | null => exact .of_line (s := "null".toList) (by simp) ⟨'l', rfl, by decide⟩
  | bool b =>
    cases b with
    | false => exact .of_line (s := "false".toList) (by simp) ⟨'e', rfl, by decide⟩
    | true => exact .of_line (s := "true".toList) (by simp) ⟨'e', rfl, by decide⟩
  | text s => exact solid_quoted l.asciiOnly s
  | @array items h ih =>
    cases items with
    | nil => exact .of_line (s := ['[', ']']) (by simp) ⟨']', rfl, by decide⟩
    | cons v vs =>
      have hitems := solid_writeItems (fun w hw => ih w (List.mem_cons_of_mem v hw) (d + 1))
        (ih v (by simp) (d + 1))
      have hall := solid_bracketed (l := l) (d := d) (solid_sign '[' (by decide) rfl)
        (solid_sign ']' (by decide) rfl) hitems
      simpa [write] using hall
  | @table es hkeys h ih =>
    cases es with
    | nil => exact .of_line (s := ['\x7b', '\x7d']) (by simp) ⟨'\x7d', rfl, by decide⟩
    | cons e es =>
      have hentries := solid_writeEntries (fun f hf => ih f (List.mem_cons_of_mem e hf) (d + 1))
        (solid_entry (k := e.1) (ih e (by simp) (d + 1)))
      have hall := solid_bracketed (l := l) (d := d) (solid_sign '\x7b' (by decide) rfl)
        (solid_sign '\x7d' (by decide) rfl) hentries
      simpa [write] using hall

theorem solid_toText {v : Value} (h : v.Textual) (l : Layout) : Solid (toText l v).toList := by
  rw [toText, String.toList_ofList]
  exact solid_write h l 0

theorem shown_toText {v : Value} (h : v.Textual) (l : Layout) :
    ∀ c ∈ (toText l v).toList, Text.isShown c = true := by
  intro c hc
  rcases (solid_toText h l).chars c hc with rfl | hc
  · rfl
  · simp only [Text.isShown, Bool.not_eq_true', Bool.or_eq_false_iff, beq_eq_false_iff_ne]
    omega

theorem wrap_toText {v : Value} (h : v.Textual) (l : Layout) {width : Nat}
    (hroom : ∀ line ∈ Text.pieces '\n' (toText l v).toList, Text.room line ≤ width) :
    Text.wrap width (toText l v) = toText l v ++ "\n" :=
  Text.wrap_of_fits (shown_toText h l) fun line hline =>
    (solid_toText h l).fits_of_mem_pieces hline (hroom line hline)

end Json

end AsmLens
