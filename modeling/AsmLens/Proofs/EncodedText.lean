import AsmLens.Text.Lines
import AsmLens.Text.Utf8
import Mathlib.Tactic.SplitIfs

namespace AsmLens.Text

theorem mapM_id_eq_some_iff {found : List (Option Char)} {cs : List Char} :
    found.mapM id = some cs ↔ found = cs.map some := by
  induction found generalizing cs with
  | nil => cases cs <;> simp
  | cons c? found ih =>
    cases c? with
    | none => cases cs <;> simp
    | some c =>
      simp only [List.mapM_cons, id, bind, Option.bind_some, Option.bind_eq_some_iff, ih]
      constructor
      · rintro ⟨ds, rfl, hcs⟩
        rw [← Option.some.inj hcs, List.map_cons]
      · intro h
        obtain ⟨d, ds, rfl, hd, hds⟩ := List.map_eq_cons_iff.mp h.symm
        exact ⟨ds, hds.symm, by rw [Option.some.inj hd]; rfl⟩

theorem decode?_eq_some_iff {bs : Bytes} {cs : List Char} :
    decode? bs = some cs ↔ scan bs = cs.map some := mapM_id_eq_some_iff

section

variable {a b c d : UInt8}

theorem between_iff : (decide (b ≤ a) && decide (a ≤ c)) = true ↔
    b.toNat ≤ a.toNat ∧ a.toNat ≤ c.toNat := by
  simp [UInt8.le_iff_toNat_le]

theorem isTail_iff : isTail b = true ↔ 0x80 ≤ b.toNat ∧ b.toNat ≤ 0xbf := by
  simp [isTail, UInt8.le_iff_toNat_le]

theorem isSecondOfThree_iff : isSecondOfThree a b = true ↔
    0x80 ≤ b.toNat ∧ b.toNat ≤ 0xbf ∧ (a.toNat = 0xe0 → 0xa0 ≤ b.toNat) ∧
      (a.toNat = 0xed → b.toNat ≤ 0x9f) := by
  simp only [isSecondOfThree, isTail, ← UInt8.toNat_inj, UInt8.le_iff_toNat_le, UInt8.reduceToNat]
  split_ifs <;> simp only [Bool.and_eq_true, decide_eq_true_eq] <;> omega

theorem isSecondOfFour_iff : isSecondOfFour a b = true ↔
    0x80 ≤ b.toNat ∧ b.toNat ≤ 0xbf ∧ (a.toNat = 0xf0 → 0x90 ≤ b.toNat) ∧
      (a.toNat = 0xf4 → b.toNat ≤ 0x8f) := by
  simp only [isSecondOfFour, isTail, ← UInt8.toNat_inj, UInt8.le_iff_toNat_le, UInt8.reduceToNat]
  split_ifs <;> simp only [Bool.and_eq_true, decide_eq_true_eq] <;> omega

theorem ofNat_eq {n : Nat} (h : n = a.toNat) : UInt8.ofNat n = a := by
  rw [h, UInt8.ofNat_toNat]

theorem tailByte_eq {n : Nat} (hb : isTail b = true) (h : n % 0x40 = low b) : tailByte n = b := by
  have hbounds := isTail_iff.mp hb
  apply ofNat_eq
  simp only [low] at h
  omega

end

theorem toNat_cases (c : Char) : c.toNat < 0xd800 ∨ 0xe000 ≤ c.toNat ∧ c.toNat < 0x110000 := by
  have hvalid := c.valid
  simp only [UInt32.isValidChar, Nat.isValidChar] at hvalid
  have hval : c.toNat = c.val.toNat := rfl
  omega

section

variable {c : Char}

theorem encodeChar_of_lt_80 (h : c.toNat < 0x80) : encodeChar c = [UInt8.ofNat c.toNat] := by
  rw [encodeChar, if_pos h]

theorem encodeChar_of_lt_800 (h : 0x80 ≤ c.toNat) (h' : c.toNat < 0x800) :
    encodeChar c = [UInt8.ofNat (0xc0 + c.toNat / 0x40), tailByte c.toNat] := by
  rw [encodeChar, if_neg (by omega), if_pos h']

theorem encodeChar_of_lt_10000 (h : 0x800 ≤ c.toNat) (h' : c.toNat < 0x10000) :
    encodeChar c = [UInt8.ofNat (0xe0 + c.toNat / 0x1000), tailByte (c.toNat / 0x40),
      tailByte c.toNat] := by
  rw [encodeChar, if_neg (by omega), if_neg (by omega), if_pos h']

theorem encodeChar_of_ge_10000 (h : 0x10000 ≤ c.toNat) :
    encodeChar c = [UInt8.ofNat (0xf0 + c.toNat / 0x40000), tailByte (c.toNat / 0x1000),
      tailByte (c.toNat / 0x40), tailByte c.toNat] := by
  rw [encodeChar, if_neg (by omega), if_neg (by omega), if_neg (by omega)]

end

section

variable {a b c d : UInt8} {n : Nat}

theorem toNat_ofNat (h : n < 0xd800 ∨ 0xdfff < n ∧ n < 0x110000) : (Char.ofNat n).toNat = n := by
  rw [Char.ofNat, dif_pos h]
  rfl

theorem encodeChar_one (ha : a.toNat < 0x80) : encodeChar (Char.ofNat a.toNat) = [a] := by
  have hchar := toNat_ofNat (n := a.toNat) (by omega)
  rw [encodeChar_of_lt_80 (by omega), hchar, UInt8.ofNat_toNat]

theorem encodeChar_two (ha : 0xc2 ≤ a.toNat ∧ a.toNat ≤ 0xdf) (hb : isTail b = true)
    (hn : n = a.toNat % 0x20 * 0x40 + low b) : encodeChar (Char.ofNat n) = [a, b] := by
  have hlow : low b < 0x40 := Nat.mod_lt _ (by decide)
  have hchar := toNat_ofNat (n := n) (by omega)
  rw [encodeChar_of_lt_800 (by omega) (by omega), hchar, ofNat_eq (a := a) (by omega),
    tailByte_eq hb (by omega)]

theorem encodeChar_three (ha : 0xe0 ≤ a.toNat ∧ a.toNat ≤ 0xef) (hb : isSecondOfThree a b = true)
    (hc : isTail c = true) (hn : n = a.toNat % 0x10 * 0x1000 + low b * 0x40 + low c) :
    encodeChar (Char.ofNat n) = [a, b, c] := by
  obtain ⟨hlower, hupper, hoverlong, hsurrogate⟩ := isSecondOfThree_iff.mp hb
  have hb' : low b = b.toNat % 0x40 := rfl
  have hlow : low c < 0x40 := Nat.mod_lt _ (by decide)
  have hchar := toNat_ofNat (n := n) (by omega)
  rw [encodeChar_of_lt_10000 (by omega) (by omega), hchar, ofNat_eq (a := a) (by omega),
    tailByte_eq (b := b) (isTail_iff.mpr ⟨hlower, hupper⟩) (by omega), tailByte_eq hc (by omega)]

theorem encodeChar_four (ha : 0xf0 ≤ a.toNat ∧ a.toNat ≤ 0xf4) (hb : isSecondOfFour a b = true)
    (hc : isTail c = true) (hd : isTail d = true)
    (hn : n = a.toNat % 8 * 0x40000 + low b * 0x1000 + low c * 0x40 + low d) :
    encodeChar (Char.ofNat n) = [a, b, c, d] := by
  obtain ⟨hlower, hupper, hoverlong, hlast⟩ := isSecondOfFour_iff.mp hb
  have hb' : low b = b.toNat % 0x40 := rfl
  have hlow : low c < 0x40 := Nat.mod_lt _ (by decide)
  have hlow' : low d < 0x40 := Nat.mod_lt _ (by decide)
  have hchar := toNat_ofNat (n := n) (by omega)
  rw [encodeChar_of_ge_10000 (by omega), hchar, ofNat_eq (a := a) (by omega),
    tailByte_eq (b := b) (isTail_iff.mpr ⟨hlower, hupper⟩) (by omega), tailByte_eq hc (by omega),
    tailByte_eq hd (by omega)]

end

theorem encode_of_cons {c : Char} {found : List (Option Char)} {cs : List Char} {bs more : Bytes}
    (h : some c :: found = cs.map some) (hc : encodeChar c = bs)
    (ih : ∀ {ds}, found = ds.map some → encode ds = more) : encode cs = bs ++ more := by
  obtain ⟨d, ds, rfl, hfirst, hrest⟩ := List.map_eq_cons_iff.mp h.symm
  obtain rfl := Option.some.inj hfirst
  rw [encode, List.flatMap_cons, hc, ← encode, ih hrest.symm]

theorem not_none_cons (found : List (Option Char)) (cs : List Char) :
    none :: found ≠ cs.map some := by
  cases cs <;> simp

theorem encode_of_scan {bs : Bytes} {cs : List Char} (h : scan bs = cs.map some) :
    encode cs = bs := by
  fun_induction scan bs generalizing cs with
  | case1 =>
    rw [List.map_eq_nil_iff.mp h.symm]
    rfl
  | case2 a rest ha ih => exact encode_of_cons h (encodeChar_one ha) ih
  | case4 a ha htwo b more hb ih =>
    exact encode_of_cons h (encodeChar_two (between_iff.mp htwo) hb rfl) ih
  | case8 a ha htwo hthree b hb c more hc ih =>
    exact encode_of_cons h (encodeChar_three (between_iff.mp hthree) hb hc rfl) ih
  | case14 a ha htwo hthree hfour b hb c hc d more hd ih =>
    exact encode_of_cons h (encodeChar_four (between_iff.mp hfour) hb hc hd rfl) ih
  | _ => exact absurd h (not_none_cons _ cs)

theorem encode_of_decode? {bs : Bytes} {cs : List Char} (h : decode? bs = some cs) :
    encode cs = bs := encode_of_scan (decode?_eq_some_iff.mp h)

def carriageReturn : UInt8 := 0x0d

theorem le_tailByte (n : Nat) : 0x80 ≤ (tailByte n).toNat := by
  rw [tailByte, UInt8.toNat_ofNat']
  omega

theorem le_ofNat {lead n : Nat} (h : 0x80 ≤ lead) (h' : lead + n < 0x100) :
    0x80 ≤ (UInt8.ofNat (lead + n)).toNat := by
  rw [UInt8.toNat_ofNat']
  omega

theorem le_of_mem_encodeChar {c : Char} (h : 0x80 ≤ c.toNat) :
    ∀ a ∈ encodeChar c, 0x80 ≤ a.toNat := by
  have hvalid := toNat_cases c
  by_cases htwo : c.toNat < 0x800
  · rw [encodeChar_of_lt_800 h htwo]
    simp only [List.forall_mem_cons]
    exact ⟨le_ofNat (by omega) (by omega), le_tailByte _, nofun⟩
  · by_cases hthree : c.toNat < 0x10000
    · rw [encodeChar_of_lt_10000 (by omega) hthree]
      simp only [List.forall_mem_cons]
      exact ⟨le_ofNat (by omega) (by omega), le_tailByte _, le_tailByte _, nofun⟩
    · rw [encodeChar_of_ge_10000 (by omega)]
      simp only [List.forall_mem_cons]
      exact ⟨le_ofNat (by omega) (by omega), le_tailByte _, le_tailByte _, le_tailByte _, nofun⟩

theorem mem_encodeChar_return {c : Char} : carriageReturn ∈ encodeChar c ↔ c = '\r' := by
  constructor
  · intro h
    by_cases hc : c.toNat < 0x80
    · rw [encodeChar_of_lt_80 hc, List.mem_singleton, ← UInt8.toNat_inj, UInt8.toNat_ofNat'] at h
      have hn : c.toNat = 0x0d := by
        have hreturn : carriageReturn.toNat = 0x0d := rfl
        omega
      rw [← Char.ofNat_toNat c, hn]
    · exact absurd (le_of_mem_encodeChar (by omega) _ h) (by decide)
  · rintro rfl
    decide

theorem mem_encode_return {cs : List Char} : carriageReturn ∈ encode cs ↔ '\r' ∈ cs := by
  simp [encode, mem_encodeChar_return]

theorem not_mem_unifyLineEnds (s : List Char) : '\r' ∉ unifyLineEnds s := by
  fun_induction unifyLineEnds s with
  | case1 => simp
  | case2 rest ih => simpa using ih
  | case3 c rest h ih =>
    by_cases hc : c = '\r' <;> simp [hc, ih, Ne.symm]

theorem unifyLineEnds_eq_self {s : List Char} (h : '\r' ∉ s) : unifyLineEnds s = s := by
  fun_induction unifyLineEnds s with
  | case1 => rfl
  | case2 rest ih => simp at h
  | case3 c rest hpair ih =>
    obtain ⟨hc, hrest⟩ := not_or.mp (mt List.mem_cons.mpr h)
    rw [if_neg fun h => hc h.symm, ih hrest]

theorem encode_unifyLineEnds_eq_iff {bs : Bytes} {cs : List Char} (h : decode? bs = some cs) :
    encode (unifyLineEnds cs) = bs ↔ carriageReturn ∉ bs := by
  have hbs := encode_of_decode? h
  constructor
  · intro hsame
    rw [← hsame, mem_encode_return]
    exact not_mem_unifyLineEnds cs
  · intro hreturn
    rw [← hbs, mem_encode_return] at hreturn
    rw [unifyLineEnds_eq_self hreturn, hbs]

end AsmLens.Text
