import AsmLens.Proofs.BlockComment
import AsmLens.Proofs.DecodedParts
import AsmLens.Proofs.SnippetHistory
import AsmLens.Proofs.SnippetRemoval

/-!
The snippet written and read again. The bytes are those of the text, but on reading each carriage return is
taken for a line end, so a text comes back as it was just if it has none. The texts that a run starts with
have none, so without edits the source that is shown is the one that was written.
-/

namespace AsmLens

namespace Text

section

variable {a b c d : UInt8} (rest : Bytes)

theorem not_lt_80 (h : 0x80 ≤ a.toNat) : ¬a < 0x80 :=
  mt UInt8.lt_iff_toNat_lt.mp (Nat.not_lt.mpr h)

theorem scan_one (ha : a.toNat < 0x80) :
    scan (a :: rest) = some (Char.ofNat a.toNat) :: scan rest := by
  rw [scan.eq_def]
  exact if_pos (UInt8.lt_iff_toNat_lt.mpr ha)

theorem scan_two (ha : 0xc2 ≤ a.toNat ∧ a.toNat ≤ 0xdf) (hb : isTail b = true) :
    scan (a :: b :: rest) = some (Char.ofNat (a.toNat % 0x20 * 0x40 + low b)) :: scan rest := by
  have hone : ¬a < 0x80 := not_lt_80 (by omega)
  have htwo : (decide (0xc2 ≤ a) && decide (a ≤ 0xdf)) = true := between_iff.mpr ha
  rw [scan.eq_def]
  simp only [if_neg hone, if_pos htwo, if_pos hb]

theorem scan_three (ha : 0xe0 ≤ a.toNat ∧ a.toNat ≤ 0xef) (hb : isSecondOfThree a b = true)
    (hc : isTail c = true) : scan (a :: b :: c :: rest) =
      some (Char.ofNat (a.toNat % 0x10 * 0x1000 + low b * 0x40 + low c)) :: scan rest := by
  have hone : ¬a < 0x80 := not_lt_80 (by omega)
  have htwo : ¬(decide (0xc2 ≤ a) && decide (a ≤ 0xdf)) = true :=
    mt between_iff.mp (show ¬(0xc2 ≤ a.toNat ∧ a.toNat ≤ 0xdf) by omega)
  have hthree : (decide (0xe0 ≤ a) && decide (a ≤ 0xef)) = true := between_iff.mpr ha
  rw [scan.eq_def]
  simp only [if_neg hone, if_neg htwo, if_pos hthree, if_pos hb, if_pos hc]

theorem scan_four (ha : 0xf0 ≤ a.toNat ∧ a.toNat ≤ 0xf4) (hb : isSecondOfFour a b = true)
    (hc : isTail c = true) (hd : isTail d = true) : scan (a :: b :: c :: d :: rest) =
      some (Char.ofNat (a.toNat % 8 * 0x40000 + low b * 0x1000 + low c * 0x40 + low d)) ::
        scan rest := by
  have hone : ¬a < 0x80 := not_lt_80 (by omega)
  have htwo : ¬(decide (0xc2 ≤ a) && decide (a ≤ 0xdf)) = true :=
    mt between_iff.mp (show ¬(0xc2 ≤ a.toNat ∧ a.toNat ≤ 0xdf) by omega)
  have hthree : ¬(decide (0xe0 ≤ a) && decide (a ≤ 0xef)) = true :=
    mt between_iff.mp (show ¬(0xe0 ≤ a.toNat ∧ a.toNat ≤ 0xef) by omega)
  have hfour : (decide (0xf0 ≤ a) && decide (a ≤ 0xf4)) = true := between_iff.mpr ha
  rw [scan.eq_def]
  simp only [if_neg hone, if_neg htwo, if_neg hthree, if_pos hfour, if_pos hb, if_pos hc, if_pos hd]

end

def codeOf : Bytes → Nat
  | [a] => a.toNat
  | [a, b] => a.toNat % 0x20 * 0x40 + low b
  | [a, b, c] => a.toNat % 0x10 * 0x1000 + low b * 0x40 + low c
  | [a, b, c, d] => a.toNat % 8 * 0x40000 + low b * 0x1000 + low c * 0x40 + low d
  | _ => 0

theorem scan_wellFormed {part : Bytes} (h : WellFormed part) (rest : Bytes) :
    scan (part ++ rest) = some (Char.ofNat (codeOf part)) :: scan rest := by
  cases h with
  | one ha => exact scan_one rest ha
  | two ha hb => exact scan_two rest ha hb
  | three ha hb hc => exact scan_three rest ha hb hc
  | four ha hb hc hd => exact scan_four rest ha hb hc hd

theorem codeOf_encodeChar (c : Char) : codeOf (encodeChar c) = c.toNat := by
  have hvalid := toNat_cases c
  by_cases hone : c.toNat < 0x80
  · rw [encodeChar_of_lt_80 hone, codeOf, UInt8.toNat_ofNat']
    omega
  · by_cases htwo : c.toNat < 0x800
    · rw [encodeChar_of_lt_800 (by omega) htwo, codeOf, low, toNat_tailByte, UInt8.toNat_ofNat']
      omega
    · by_cases hthree : c.toNat < 0x10000
      · rw [encodeChar_of_lt_10000 (by omega) hthree]
        simp only [codeOf, low, toNat_tailByte, UInt8.toNat_ofNat']
        omega
      · rw [encodeChar_of_ge_10000 (by omega)]
        simp only [codeOf, low, toNat_tailByte, UInt8.toNat_ofNat']
        omega

theorem scan_encodeChar (c : Char) (rest : Bytes) :
    scan (encodeChar c ++ rest) = some c :: scan rest := by
  rw [scan_wellFormed (wellFormed_encodeChar c), codeOf_encodeChar, Char.ofNat_toNat]

theorem scan_encode (cs : List Char) : scan (encode cs) = cs.map some := by
  induction cs with
  | nil => rfl
  | cons c cs ih => rw [encode, List.flatMap_cons, scan_encodeChar, ← encode, ih, List.map_cons]

theorem decode?_encode (cs : List Char) : decode? (encode cs) = some cs :=
  decode?_eq_some_iff.mpr (scan_encode cs)

theorem encode_injective : Function.Injective encode := by
  intro a b h
  have hdecoded : some a = some b := by rw [← decode?_encode a, h, decode?_encode b]
  exact Option.some.inj hdecoded

theorem utf8_injective : Function.Injective utf8 :=
  fun _ _ h => String.toList_injective (encode_injective h)

theorem ofList_unifyLineEnds_eq_iff {s : String} :
    String.ofList (unifyLineEnds s.toList) = s ↔ '\r' ∉ s.toList := by
  constructor
  · intro h
    rw [← h, String.toList_ofList]
    exact not_mem_unifyLineEnds s.toList
  · intro h
    rw [unifyLineEnds_eq_self h, String.ofList_toList]

end Text

theorem Files.readText_of_writeText {fs fs' : Files} {name text : String}
    (h : fs.writeText name text = .ok fs') :
    fs'.readText name = .ok (String.ofList (Text.unifyLineEnds text.toList)) :=
  readText_eq_ok_iff.mpr ⟨_, _, read_of_write h, Text.decode?_encode _, rfl⟩

def Gives {σ α : Type} (P : α → Prop) (a : EStateM Fault σ α) : Prop :=
  ∀ s x t, a s = .ok x t → P x

namespace Gives

variable {σ α β : Type} {P : α → Prop} {Q : β → Prop}

theorem any (a : EStateM Fault σ α) : Gives (fun _ => True) a := fun _ _ _ _ => trivial

theorem pure {x : α} (h : P x) : Gives P (Pure.pure x : EStateM Fault σ α) := by
  intro s y t hy
  rwa [(Desk.pure_eq_ok_iff.mp hy).1]

theorem throw (f : Fault) : Gives P (MonadExcept.throw f : EStateM Fault σ α) := by
  intro s x t h
  cases h

theorem bind {a : EStateM Fault σ β} {f : β → EStateM Fault σ α} (ha : Gives Q a)
    (hf : ∀ y, Q y → Gives P (f y)) : Gives P (a >>= f) := by
  intro s x t h
  obtain ⟨y, u, hy, hx⟩ := Desk.bind_eq_ok_iff.mp h
  exact hf y (ha s y u hy) u x t hx

theorem lift {e : Except Fault α} (h : ∀ x, e = .ok x → P x) : Gives P (Session.lift e) := by
  intro s x t hx
  exact h x (Session.lift_eq_ok_iff.mp hx).1

end Gives

namespace Session

theorem writeText_of_ok {s : Session} {name text : String} {fs : Files}
    (h : s.files.writeText name text = .ok fs) :
    writeText name text s = .ok () { s with files := fs } := by
  simp only [writeText, bind, EStateM.bind, get, getThe, MonadStateOf.get, EStateM.get, h]
  rfl

theorem readSnippet_of_ok {s : Session} {path text : String} (h : s.files.readText path = .ok text) :
    readSnippet path s = .ok text s := by
  simp only [readSnippet, bind, EStateM.bind, get, getThe, MonadStateOf.get, EStateM.get, h]
  rfl

theorem reread_of_handled {text ending path : String} {s t u : Session}
    (h : createSnippet text ending s = .ok path t) (hu : Handled t u) (written : String) :
    ∃ v, writeText path written u = .ok () v ∧ v.files.read path = .ok (Text.utf8 written) ∧
      readSnippet path v = .ok (String.ofList (Text.unifyLineEnds written.toList)) v := by
  obtain ⟨fs, hfs⟩ := Files.exists_write (writable_of_handled h hu) (Text.utf8 written)
  have hwrite : u.files.writeText path written = .ok fs := hfs
  exact ⟨_, writeText_of_ok hwrite, Files.read_of_write hfs,
    readSnippet_of_ok (Files.readText_of_writeText hwrite)⟩

end Session

namespace Command

open CommandLine (CompileRequest)

variable {r : CompileRequest} {replies : Replies} {s u : Session} {j : Job}
  {path source : String} {bs : Bytes}

theorem return_notMem_readText {fs : Files} {name text : String} (h : fs.readText name = .ok text) :
    '\r' ∉ text.toList := by
  obtain ⟨content, cs, -, -, rfl⟩ := Files.readText_eq_ok_iff.mp h
  rw [String.toList_ofList]
  exact Text.not_mem_unifyLineEnds cs

theorem notMem_toList {c : Char} {cs : List Char} {text : String} (h : String.ofList cs = text)
    (hc : c ∉ cs) : c ∉ text.toList := by
  rwa [← h, String.toList_ofList]

theorem notMem_append {c : Char} {a b : String} (ha : c ∉ a.toList) (hb : c ∉ b.toList) :
    c ∉ (a ++ b).toList := by
  rw [String.toList_append, List.mem_append]
  exact not_or_intro ha hb

theorem return_notMem_factorial : '\r' ∉ Template.factorial.toList := by
  unfold Template.factorial
  exact notMem_append (notMem_toList rfl (by decide)) (notMem_toList rfl (by decide))

theorem return_notMem_cxx : '\r' ∉ Template.cxx.toList := by
  unfold Template.cxx
  refine notMem_append (notMem_append ?_ ?_) return_notMem_factorial
  · exact notMem_toList rfl (by decide)
  · exact notMem_toList rfl (by decide)

theorem return_notMem_c : '\r' ∉ Template.c.toList := by
  unfold Template.c
  refine notMem_append (notMem_append ?_ ?_) return_notMem_factorial
  · exact notMem_toList rfl (by decide)
  · exact notMem_toList rfl (by decide)

theorem return_notMem_ofLanguage (l : Language) : '\r' ∉ (Template.ofLanguage l).toList := by
  unfold Template.ofLanguage
  cases l.isCxx
  · exact return_notMem_c
  · exact return_notMem_cxx

theorem return_notMem_template {fs : Files} {name text : String}
    (h : Template.read fs name = .ok text) : '\r' ∉ text.toList := by
  unfold Template.read at h
  cases hread : fs.readText (tidyPath name) with
  | ok found =>
    simp only [hread] at h
    rw [← Except.ok.inj h]
    exact return_notMem_readText hread
  | error f =>
    simp only [hread] at h
    cases f <;> cases h

theorem gives_startText (r : CompileRequest) (l : Language) :
    Gives (fun text => '\r' ∉ text.toList) (startText r l) := by
  unfold startText Session.selectTemplate
  split
  · exact .bind (.any _) fun s _ => .lift fun text => return_notMem_readText
  · split
    · exact .pure (return_notMem_ofLanguage l)
    · refine .bind (.any _) fun s _ => ?_
      split
      · rename_i text hread
        exact .pure (return_notMem_template hread)
      · exact .bind (.any _) fun _ _ => .pure (return_notMem_ofLanguage l)
      · exact .throw _

theorem gives_prepare (r : CompileRequest) :
    Gives (fun j => '\r' ∉ j.text.toList) (prepare r) := by
  refine .bind (.any _) fun settings _ => .bind (.any _) fun s _ => .bind (.any _) fun o _ => ?_
  exact .bind (gives_startText r o.language) fun text htext => .bind (.any _) fun _ _ => .pure htext

theorem leftBy_of_none {content : Bytes} {edits : List Edit} (h : ∀ e ∈ edits, e.written? = none) :
    leftBy content edits = content := by
  rw [leftBy, List.filterMap_eq_nil_iff.mpr h]
  rfl

theorem Renders.source_eq (h : Renders r replies s j path source bs u) :
    ∃ new written, u.events = s.events ++ new ∧
      Text.utf8 written = leftBy (Text.utf8 j.text) (s.edits.take (new.countP Event.isEdit)) ∧
      source = String.ofList (Text.unifyLineEnds written.toList) := by
  obtain ⟨outcome, ⟨t, hopens, hloop⟩, -, hsource⟩ := h
  obtain ⟨-, new, hevents, hleft, -⟩ :=
    hopens.told ((follows_loop r j replies path).of_ok hloop)
  obtain ⟨content, cs, hread, hcs, rfl⟩ := Files.readText_eq_ok_iff.mp hsource
  obtain rfl := Except.ok.inj (hleft.symm.trans hread)
  refine ⟨new, String.ofList cs, hevents, ?_, by rw [String.toList_ofList]⟩
  rw [Text.utf8, String.toList_ofList, Text.encode_of_decode? hcs]

theorem reread_snippet (s : Session) :
    (∀ (text ending path written : String) (t u : Session),
      Session.createSnippet text ending s = .ok path t → Session.Handled t u →
      ∃ v, Session.writeText path written u = .ok () v ∧
        v.files.read path = .ok (Text.utf8 written) ∧
        Session.readSnippet path v =
          .ok (String.ofList (Text.unifyLineEnds written.toList)) v ∧
        (Session.readSnippet path v = .ok written v ↔ '\r' ∉ written.toList)) ∧
    ∀ (r : CompileRequest) (replies : Replies) (u : Session) (j : Job) (path source : String)
      (bs : Bytes), Renders r replies s j path source bs u →
      ∃ new written, u.events = s.events ++ new ∧
        (let edits := s.edits.take (new.countP Event.isEdit)
        Text.utf8 written = leftBy (Text.utf8 j.text) edits ∧
          ((∀ e ∈ edits, e.written? = none) → written = j.text ∧ source = j.text)) ∧
        source = String.ofList (Text.unifyLineEnds written.toList) ∧
        (source = written ↔ '\r' ∉ written.toList) ∧
        (j.options.combinedOutput = true →
          let inside := Listing.comment j.tools (isDarwin none s.host.system) j.options
            (String.ofList (Text.decodeLossy bs))
          Program.perform (.compile r) replies s = Session.dropAfter path
            ((do
              deliver r path j.editor (Text.closeLine source ++ "\n" ++ Listing.separator ++ "\n" ++
                Listing.blockOpen ++ inside ++ Listing.blockClose ++ "\n")
              return 0) u)) := by
  refine ⟨fun text ending path written t u h hu => ?_, ?_⟩
  · obtain ⟨v, hwrite, hread, hreread⟩ := Session.reread_of_handled h hu written
    refine ⟨v, hwrite, hread, hreread, ?_⟩
    rw [hreread, ← Text.ofList_unifyLineEnds_eq_iff]
    exact ⟨fun hsame => (Desk.pure_eq_ok_iff.mp hsame).1.symm, fun hsame => by rw [hsame]⟩
  · intro r replies u j path source bs h
    obtain ⟨new, written, hevents, hwritten, hsource⟩ := h.source_eq
    have hsame : source = written ↔ '\r' ∉ written.toList := by
      rw [hsource, Text.ofList_unifyLineEnds_eq_iff]
    refine ⟨new, written, hevents, ⟨hwritten, fun hnone => ?_⟩, hsource, hsame,
      fun hcombined => ?_⟩
    · -- What has been left is what the run started with.
      have hstart : written = j.text := by
        rw [leftBy_of_none hnone] at hwritten
        exact Text.utf8_injective hwritten
      refine ⟨hstart, ?_⟩
      rw [← hstart, hsame, hstart]
      obtain ⟨-, ⟨t, ⟨v, hprepare, -⟩, -⟩, -⟩ := h
      exact gives_prepare r s j v hprepare
    · have hrun := h.compile_eq
      simp only [Listing.renderBytes, Listing.render_of_combinedOutput _ _ _ _ hcombined] at hrun
      exact hrun

def combinedRequest : CompileRequest := { plainRequest with combinedOutput := true }

theorem reread_snippet_removed :
    (∃ path t u v, Session.createSnippet "" ".c" Session.bare = .ok path t ∧
      Session.removeFile path t = .ok () u ∧ Session.Handled t u ∧
      Session.writeText path "int f;\n" u = .ok () v ∧
      Session.readSnippet path v = .ok "int f;\n" v) ∧
    ∃ j path u inside, Renders combinedRequest .closed (oneAttempt [97, 13, 10, 98]) j
        path "a\nb" [114, 101, 116, 10] u ∧
      j.options.combinedOutput = true ∧
      Program.perform (.compile combinedRequest) .closed (oneAttempt [97, 13, 10, 98]) =
        Session.dropAfter path
          ((do
            deliver combinedRequest path j.editor ("a\nb\n" ++ "\n" ++ Listing.separator ++ "\n" ++
              Listing.blockOpen ++ inside ++ Listing.blockClose ++ "\n")
            return 0) u) := by
  refine ⟨?_, ?_⟩
  · obtain ⟨u, hlost⟩ : ∃ u, (do
        let path ← Session.createSnippet "" ".c"
        Session.removeFile path
        return path : Act String) Session.bare = .ok "snippet.c" u :=
      exists_of_result? (by decide +kernel)
    obtain ⟨path, t, hcreate, hlost⟩ := Desk.bind_eq_ok_iff.mp hlost
    obtain ⟨⟨⟩, w, hremove, hpath⟩ := Desk.bind_eq_ok_iff.mp hlost
    obtain ⟨rfl, rfl⟩ := Desk.pure_eq_ok_iff.mp hpath
    have hhandled : Session.Handled t u := (Session.handled_removeFile _).of_ok hremove
    obtain ⟨v, hwrite, -, -, hreread⟩ :=
      (reread_snippet Session.bare).1 _ _ _ "int f;\n" _ _ hcreate hhandled
    exact ⟨_, t, u, v, hcreate, hremove, hhandled, hwrite, hreread.mpr (by decide)⟩
  · obtain ⟨u, hreached⟩ : ∃ u, reached combinedRequest .closed
          (oneAttempt [97, 13, 10, 98]) =
        .ok ({ phase := .succeeded, output := some [114, 101, 116, 10], attempts := 1 },
          some "a\nb") u :=
      exists_of_result? (by decide +kernel)
    obtain ⟨j, path, hloops, hsource⟩ := loops_of_reached hreached
    have hrenders : Renders combinedRequest .closed (oneAttempt [97, 13, 10, 98]) j
        path "a\nb" [114, 101, 116, 10] u :=
      ⟨_, hloops, rfl, Session.eq_ok_of_toOption hsource⟩
    obtain ⟨t, ⟨v, hprepare, -⟩, -⟩ := hloops
    have hcombined : j.options.combinedOutput = true := by
      have hasked : (result? (prepare combinedRequest (oneAttempt [97, 13, 10, 98]))).map
          (·.options.combinedOutput) = some true := by decide +kernel
      rw [hprepare] at hasked
      exact Option.some.inj hasked
    obtain ⟨new, written, -, -, -, -, hshown⟩ := (reread_snippet _).2 _ _ _ _ _ _ _ hrenders
    exact ⟨j, path, u, _, hrenders, hcombined, hshown hcombined⟩

theorem return_lost :
    result? ((do
      let path ← Session.createSnippet "" ".c"
      Session.writeText path "a\r\nb"
      let source ← Session.readSnippet path
      return (source, ((← get).files.read path).toOption)) Session.bare) =
        some ("a\nb", some [97, 13, 10, 98]) := by
  decide +kernel

end Command

end AsmLens
