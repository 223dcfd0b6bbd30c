import AsmLens.Proofs.EncodedText

namespace AsmLens.Text

inductive WellFormed : Bytes → Prop where
  | one {a : UInt8} : a.toNat < 0x80 → WellFormed [a]
  | two {a b : UInt8} : 0xc2 ≤ a.toNat ∧ a.toNat ≤ 0xdf → isTail b = true → WellFormed [a, b]
  | three {a b c : UInt8} : 0xe0 ≤ a.toNat ∧ a.toNat ≤ 0xef → isSecondOfThree a b = true →
      isTail c = true → WellFormed [a, b, c]
  | four {a b c d : UInt8} : 0xf0 ≤ a.toNat ∧ a.toNat ≤ 0xf4 → isSecondOfFour a b = true →
      isTail c = true → isTail d = true → WellFormed [a, b, c, d]

theorem toNat_tailByte (n : Nat) : (tailByte n).toNat = 0x80 + n % 0x40 := by
  rw [tailByte, UInt8.toNat_ofNat']
  omega

theorem isTail_tailByte (n : Nat) : isTail (tailByte n) = true := by
  rw [isTail_iff, toNat_tailByte]
  omega

theorem wellFormed_encodeChar (c : Char) : WellFormed (encodeChar c) := by
  have hvalid := toNat_cases c
  by_cases hone : c.toNat < 0x80
  · rw [encodeChar_of_lt_80 hone]
    refine .one ?_
    rw [UInt8.toNat_ofNat']
    omega
  · by_cases htwo : c.toNat < 0x800
    · rw [encodeChar_of_lt_800 (by omega) htwo]
      refine .two ?_ (isTail_tailByte _)
      rw [UInt8.toNat_ofNat']
      omega
    · by_cases hthree : c.toNat < 0x10000
      · rw [encodeChar_of_lt_10000 (by omega) hthree]
        have hlead : (UInt8.ofNat (0xe0 + c.toNat / 0x1000)).toNat = 0xe0 + c.toNat / 0x1000 := by
          rw [UInt8.toNat_ofNat']
          omega
        refine .three (by omega) (isSecondOfThree_iff.mpr ?_) (isTail_tailByte _)
        rw [hlead, toNat_tailByte]
        omega
      · rw [encodeChar_of_ge_10000 (by omega)]
        have hlead : (UInt8.ofNat (0xf0 + c.toNat / 0x40000)).toNat = 0xf0 + c.toNat / 0x40000 := by
          rw [UInt8.toNat_ofNat']
          omega
        refine .four (by omega) (isSecondOfFour_iff.mpr ?_) (isTail_tailByte _) (isTail_tailByte _)
        rw [hlead, toNat_tailByte]
        omega

theorem encodeChar_ne_nil (c : Char) : encodeChar c ≠ [] := by
  have hform := wellFormed_encodeChar c
  intro h
  rw [h] at hform
  contradiction

def Follows (a b : UInt8) : Prop :=
  (0xc2 ≤ a.toNat ∧ a.toNat ≤ 0xdf) ∧ isTail b = true ∨
    (0xe0 ≤ a.toNat ∧ a.toNat ≤ 0xef) ∧ isSecondOfThree a b = true ∨
    (0xf0 ≤ a.toNat ∧ a.toNat ≤ 0xf4) ∧ isSecondOfFour a b = true

def furtherBytes (a : UInt8) : Nat :=
  if a.toNat < 0x80 then 0
  else if a.toNat ≤ 0xdf then 1
  else if a.toNat ≤ 0xef then 2
  else 3

theorem furtherBytes_pos {a : UInt8} (h : ¬a.toNat < 0x80) : 0 < furtherBytes a := by
  rw [furtherBytes, if_neg h]
  split_ifs <;> omega

theorem furtherBytes_of_three {a : UInt8} (h : 0xe0 ≤ a.toNat ∧ a.toNat ≤ 0xef) :
    furtherBytes a = 2 := by
  rw [furtherBytes, if_neg (by omega), if_neg (by omega), if_pos h.2]

theorem furtherBytes_of_four {a : UInt8} (h : 0xf0 ≤ a.toNat ∧ a.toNat ≤ 0xf4) :
    furtherBytes a = 3 := by
  rw [furtherBytes, if_neg (by omega), if_neg (by omega), if_neg (by omega)]

section

variable {ch : Char} {a b c d : UInt8} {rest : Bytes}

theorem length_of_encodeChar (h : encodeChar ch = a :: rest) : rest.length = furtherBytes a := by
  have hform := wellFormed_encodeChar ch
  rw [h] at hform
  cases hform with
  | one ha => rw [furtherBytes, if_pos ha, List.length_nil]
  | two ha _ => rw [furtherBytes, if_neg (by omega), if_pos ha.2, List.length_singleton]
  | three ha _ _ => rw [furtherBytes_of_three ha, List.length_cons, List.length_singleton]
  | four ha _ _ _ =>
    rw [furtherBytes_of_four ha, List.length_cons, List.length_cons, List.length_singleton]

theorem follows_of_encodeChar (h : [a, b] <+: encodeChar ch) : Follows a b := by
  obtain ⟨rest, hrest⟩ := h
  have hform := wellFormed_encodeChar ch
  rw [← hrest] at hform
  cases hform with
  | two ha hb => exact .inl ⟨ha, hb⟩
  | three ha hb _ => exact .inr (.inl ⟨ha, hb⟩)
  | four ha hb _ _ => exact .inr (.inr ⟨ha, hb⟩)

theorem isTail_of_encodeChar_third (h : [a, b, c] <+: encodeChar ch) : isTail c = true := by
  obtain ⟨rest, hrest⟩ := h
  have hform := wellFormed_encodeChar ch
  rw [← hrest] at hform
  cases hform with
  | three _ _ hc => exact hc
  | four _ _ hc _ => exact hc

theorem isTail_of_encodeChar_fourth (h : [a, b, c, d] <+: encodeChar ch) : isTail d = true := by
  obtain ⟨rest, hrest⟩ := h
  have hform := wellFormed_encodeChar ch
  rw [← hrest] at hform
  cases hform with
  | four _ _ _ hd => exact hd

end

/-- No character begins here. The part is the longest that one could have begun with, or a byte. -/
structure IllFormed (part more : Bytes) : Prop where
  none_whole : ∀ c, ¬ encodeChar c <+: part ++ more
  opens : part.length = 1 ∨ part ≠ [] ∧ ∃ c, part <+: encodeChar c
  longest : ∀ longer c, longer <+: part ++ more → longer <+: encodeChar c →
    longer.length ≤ part.length

inductive Decodes : Bytes → List Char → Prop where
  | nil : Decodes [] []
  | char {c : Char} {part more : Bytes} {s : List Char} : encodeChar c = part →
      Decodes more s → Decodes (part ++ more) (c :: s)
  | damaged {part more : Bytes} {s : List Char} : IllFormed part more →
      Decodes more s → Decodes (part ++ more) (replacement :: s)

section

variable {a : UInt8} {part more : Bytes}

theorem length_le_of_next {longer : Bytes} {ch : Char}
    (hnext : ∀ b ∈ more.head?, ¬ part ++ [b] <+: encodeChar ch) (hlonger : longer <+: part ++ more)
    (hch : longer <+: encodeChar ch) : longer.length ≤ part.length := by
  refine Nat.le_of_not_lt fun hlength => ?_
  have hpart : part <+: longer :=
    List.prefix_of_prefix_length_le (List.prefix_append part more) hlonger (by omega)
  obtain ⟨rest, rfl⟩ := hpart
  cases rest with
  | nil => simp at hlength
  | cons b rest =>
    obtain ⟨more', hmore⟩ := (List.prefix_append_right_inj part).mp hlonger
    rw [List.append_cons] at hch
    have hb : b ∈ more.head? := by
      rw [← hmore]
      rfl
    exact hnext b hb ((List.prefix_append _ rest).trans hch)

theorem IllFormed.of_next (hshort : part.length < furtherBytes a)
    (hopens : part = [] ∨ ∃ ch, a :: part <+: encodeChar ch)
    (hnext : ∀ b ∈ more.head?, ∀ ch, ¬ a :: part ++ [b] <+: encodeChar ch) :
    IllFormed (a :: part) more := by
  have hlongest : ∀ longer ch, longer <+: a :: part ++ more → longer <+: encodeChar ch →
      longer.length ≤ (a :: part).length :=
    fun longer ch => length_le_of_next fun b hb => hnext b hb ch
  refine ⟨?_, ?_, hlongest⟩
  · intro ch hwhole
    have hle := hlongest (encodeChar ch) ch hwhole (List.prefix_refl _)
    cases hch : encodeChar ch with
    | nil => exact absurd hch (encodeChar_ne_nil ch)
    | cons b rest =>
      have hlength := length_of_encodeChar hch
      rw [hch] at hwhole hle
      obtain ⟨rfl, -⟩ := List.cons_prefix_cons.mp hwhole
      simp only [List.length_cons] at hle
      omega
  · rcases hopens with rfl | hch
    · exact .inl rfl
    · exact .inr ⟨List.cons_ne_nil a part, hch⟩

end

section

variable {a b c : UInt8} {more : Bytes}

theorem illFormed_one (ha : ¬a.toNat < 0x80) (h : ∀ b ∈ more.head?, ¬Follows a b) :
    IllFormed [a] more :=
  .of_next (furtherBytes_pos ha) (.inl rfl) fun b hb _ hch => h b hb (follows_of_encodeChar hch)

theorem illFormed_two_of_three (ha : 0xe0 ≤ a.toNat ∧ a.toNat ≤ 0xef)
    (hb : isSecondOfThree a b = true) (h : ∀ c ∈ more.head?, ¬isTail c = true) :
    IllFormed [a, b] more := by
  have hopens : [a, b] <+: encodeChar _ :=
    ⟨[0x80], (encodeChar_three (c := 0x80) ha hb (by decide) rfl).symm⟩
  refine .of_next ?_ (.inr ⟨_, hopens⟩) fun c hc _ hch => h c hc (isTail_of_encodeChar_third hch)
  rw [furtherBytes_of_three ha]
  exact Nat.one_lt_two

theorem illFormed_two_of_four (ha : 0xf0 ≤ a.toNat ∧ a.toNat ≤ 0xf4)
    (hb : isSecondOfFour a b = true) (h : ∀ c ∈ more.head?, ¬isTail c = true) :
    IllFormed [a, b] more := by
  have hopens : [a, b] <+: encodeChar _ :=
    ⟨[0x80, 0x80], (encodeChar_four (c := 0x80) (d := 0x80) ha hb (by decide) (by decide) rfl).symm⟩
  refine .of_next ?_ (.inr ⟨_, hopens⟩) fun c hc _ hch => h c hc (isTail_of_encodeChar_third hch)
  rw [furtherBytes_of_four ha]
  simp

theorem illFormed_three_of_four (ha : 0xf0 ≤ a.toNat ∧ a.toNat ≤ 0xf4)
    (hb : isSecondOfFour a b = true) (hc : isTail c = true)
    (h : ∀ d ∈ more.head?, ¬isTail d = true) : IllFormed [a, b, c] more := by
  have hopens : [a, b, c] <+: encodeChar _ :=
    ⟨[0x80], (encodeChar_four (d := 0x80) ha hb hc (by decide) rfl).symm⟩
  refine .of_next ?_ (.inr ⟨_, hopens⟩) fun d hd _ hch => h d hd (isTail_of_encodeChar_fourth hch)
  rw [furtherBytes_of_four ha]
  simp

end

theorem follows_of_two {a b : UInt8} (ha : 0xc2 ≤ a.toNat ∧ a.toNat ≤ 0xdf) :
    Follows a b ↔ isTail b = true := by
  have hthree : ¬(0xe0 ≤ a.toNat ∧ a.toNat ≤ 0xef) := by omega
  have hfour : ¬(0xf0 ≤ a.toNat ∧ a.toNat ≤ 0xf4) := by omega
  simp [Follows, ha, hthree, hfour]

theorem follows_of_three {a b : UInt8} (ha : 0xe0 ≤ a.toNat ∧ a.toNat ≤ 0xef) :
    Follows a b ↔ isSecondOfThree a b = true := by
  have htwo : ¬(0xc2 ≤ a.toNat ∧ a.toNat ≤ 0xdf) := by omega
  have hfour : ¬(0xf0 ≤ a.toNat ∧ a.toNat ≤ 0xf4) := by omega
  simp [Follows, ha, htwo, hfour]

theorem follows_of_four {a b : UInt8} (ha : 0xf0 ≤ a.toNat ∧ a.toNat ≤ 0xf4) :
    Follows a b ↔ isSecondOfFour a b = true := by
  have htwo : ¬(0xc2 ≤ a.toNat ∧ a.toNat ≤ 0xdf) := by omega
  have hthree : ¬(0xe0 ≤ a.toNat ∧ a.toNat ≤ 0xef) := by omega
  simp [Follows, ha, htwo, hthree]

theorem decodes_found {c : Char} {part more : Bytes} {found : List (Option Char)}
    (hc : encodeChar c = part) (h : Decodes more (found.map (·.getD replacement))) :
    Decodes (part ++ more) ((some c :: found).map (·.getD replacement)) := .char hc h

theorem decodes_decodeLossy (bs : Bytes) : Decodes bs (decodeLossy bs) := by
  unfold decodeLossy
  fun_induction scan bs with
  | case1 => exact .nil
  | case2 a rest ha ih => exact decodes_found (encodeChar_one ha) ih
  | case4 a ha htwo b more hb ih =>
    exact decodes_found (encodeChar_two (between_iff.mp htwo) hb rfl) ih
  | case8 a ha htwo hthree b hb c more hc ih =>
    exact decodes_found (encodeChar_three (between_iff.mp hthree) hb hc rfl) ih
  | case14 a ha htwo hthree hfour b hb c hc d more hd ih =>
    exact decodes_found (encodeChar_four (between_iff.mp hfour) hb hc hd rfl) ih
  | case3 a ha | case6 a ha | case11 a ha => exact .damaged (illFormed_one ha (by simp)) .nil
  | case5 a ha htwo b more hb ih =>
    have hnext : ¬Follows a b := mt (follows_of_two (between_iff.mp htwo)).mp hb
    exact .damaged (illFormed_one ha (by simpa using hnext)) ih
  | case10 a ha htwo hthree b more hb ih =>
    have hnext : ¬Follows a b := mt (follows_of_three (between_iff.mp hthree)).mp hb
    exact .damaged (illFormed_one ha (by simpa using hnext)) ih
  | case17 a ha htwo hthree hfour b more hb ih =>
    have hnext : ¬Follows a b := mt (follows_of_four (between_iff.mp hfour)).mp hb
    exact .damaged (illFormed_one ha (by simpa using hnext)) ih
  | case18 a rest ha htwo hthree hfour ih =>
    refine .damaged (illFormed_one ha fun b _ hnext => ?_) ih
    rcases hnext with ⟨h, -⟩ | ⟨h, -⟩ | ⟨h, -⟩
    · exact htwo (between_iff.mpr h)
    · exact hthree (between_iff.mpr h)
    · exact hfour (between_iff.mpr h)
  | case7 a ha htwo hthree b hb =>
    exact .damaged (illFormed_two_of_three (between_iff.mp hthree) hb (by simp)) .nil
  | case9 a ha htwo hthree b hb c more hc ih =>
    exact .damaged (illFormed_two_of_three (between_iff.mp hthree) hb (by simpa using hc)) ih
  | case12 a ha htwo hthree hfour b hb =>
    exact .damaged (illFormed_two_of_four (between_iff.mp hfour) hb (by simp)) .nil
  | case16 a ha htwo hthree hfour b hb c more hc ih =>
    exact .damaged (illFormed_two_of_four (between_iff.mp hfour) hb (by simpa using hc)) ih
  | case13 a ha htwo hthree hfour b hb c hc =>
    exact .damaged (illFormed_three_of_four (between_iff.mp hfour) hb hc (by simp)) .nil
  | case15 a ha htwo hthree hfour b hb c hc d more hd ih =>
    exact .damaged (illFormed_three_of_four (between_iff.mp hfour) hb hc (by simpa using hd)) ih

end AsmLens.Text
