import AsmLens.Proofs.PrintedCode

namespace AsmLens

namespace Text

def HasSequence (s : List Char) : Prop :=
  ∃ before rest after, s = before ++ escape :: rest ∧ endSequence? rest = some after

theorem hasSequence_cons {c : Char} {s : List Char} :
    HasSequence (c :: s) ↔ (c = escape ∧ ∃ after, endSequence? s = some after) ∨ HasSequence s := by
  constructor
  · rintro ⟨before, rest, after, hs, hend⟩
    cases before with
    | nil =>
      obtain ⟨rfl, rfl⟩ := List.cons.inj hs
      exact .inl ⟨rfl, after, hend⟩
    | cons d before =>
      obtain ⟨-, rfl⟩ := List.cons.inj hs
      exact .inr ⟨before, rest, after, rfl, hend⟩
  · rintro (⟨rfl, after, hend⟩ | ⟨before, rest, after, rfl, hend⟩)
    · exact ⟨[], s, after, rfl, hend⟩
    · exact ⟨c :: before, rest, after, rfl, hend⟩

theorem sublist_of_endSequence? {s after : List Char} (h : endSequence? s = some after) :
    after.Sublist s := by
  unfold endSequence? at h
  split at h
  · rename_i rest
    cases hd : rest.dropWhile isParameter with
    | nil =>
      rw [hd] at h
      contradiction
    | cons c tail =>
      simp only [hd] at h
      split at h
      · obtain rfl := Option.some.inj h
        have htail : (c :: tail).Sublist rest := hd ▸ List.dropWhile_sublist isParameter
        exact ((List.sublist_cons_self c tail).trans htail).cons '['
      · contradiction
  · contradiction

theorem stripFrom_sublist (n : Nat) (s : List Char) : (stripFrom n s).Sublist s := by
  fun_induction stripFrom n s with
  | case1 s => exact .refl s
  | case2 => exact .refl []
  | case3 n rest after hend ih => exact (ih.trans (sublist_of_endSequence? hend)).cons _
  | case4 n rest hend ih => exact ih.cons_cons _
  | case5 n c rest hc ih => exact ih.cons_cons c

theorem stripFrom_eq_self {s : List Char} (n : Nat) (h : ¬HasSequence s) : stripFrom n s = s := by
  fun_induction stripFrom n s with
  | case1 => rfl
  | case2 => rfl
  | case3 n rest after hend ih => exact absurd (hasSequence_cons.mpr (.inl ⟨rfl, after, hend⟩)) h
  | case4 n rest hend ih => rw [ih fun hs => h (hasSequence_cons.mpr (.inr hs))]
  | case5 n c rest hc ih => rw [ih fun hs => h (hasSequence_cons.mpr (.inr hs))]

theorem length_stripFrom_lt {n : Nat} {s : List Char} (h : HasSequence s) (hn : s.length ≤ n) :
    (stripFrom n s).length < s.length := by
  fun_induction stripFrom n s with
  | case1 s =>
    obtain ⟨before, rest, after, rfl, hend⟩ := h
    simp at hn
  | case2 =>
    obtain ⟨before, rest, after, hs, hend⟩ := h
    simp at hs
  | case3 n rest after hend ih =>
    have hle := (stripFrom_sublist n after).length_le
    have hafter := (sublist_of_endSequence? hend).length_le
    simp only [List.length_cons]
    omega
  | case4 n rest hend ih =>
    -- No sequence begins here, so one begins later.
    have hrest : HasSequence rest := by
      rcases hasSequence_cons.mp h with ⟨-, after, hafter⟩ | hrest
      · rw [hend] at hafter
        contradiction
      · exact hrest
    have hlt := ih hrest (by simpa using hn)
    simp only [List.length_cons]
    omega
  | case5 n c rest hc ih =>
    have hrest : HasSequence rest := by
      rcases hasSequence_cons.mp h with ⟨hescape, -⟩ | hrest
      · contradiction
      · exact hrest
    have hlt := ih hrest (by simpa using hn)
    simp only [List.length_cons]
    omega

theorem length_encodeChar_pos (c : Char) : 0 < (encodeChar c).length := by
  unfold encodeChar
  simp only
  split_ifs <;> simp

theorem length_encode_of_sublist {s t : List Char} (h : s.Sublist t) :
    (encode s).length + (t.length - s.length) ≤ (encode t).length := by
  induction h with
  | slnil => simp
  | @cons s t c h ih =>
    have hle := h.length_le
    have hpos := length_encodeChar_pos c
    simp only [encode, List.flatMap_cons, List.length_append, List.length_cons] at ih ⊢
    omega
  | @cons_cons s t c h ih =>
    simp only [encode, List.flatMap_cons, List.length_append, List.length_cons] at ih ⊢
    omega

theorem utf8_stripEscapes_iff (s : String) :
    utf8 (stripEscapes s) = utf8 s ↔ ¬HasSequence s.toList := by
  have htext : (stripEscapes s).toList = stripFrom s.toList.length s.toList := by simp [stripEscapes]
  constructor
  · intro hbytes hs
    have hlt := length_stripFrom_lt hs (Nat.le_refl _)
    have hlength := length_encode_of_sublist (stripFrom_sublist s.toList.length s.toList)
    rw [utf8, htext] at hbytes
    rw [hbytes, utf8] at hlength
    omega
  · intro hs
    rw [utf8, htext, stripFrom_eq_self _ hs, utf8]

end Text

namespace Command

open CommandLine (CompileRequest)

theorem renders_of_compile {r : CompileRequest} {replies : Replies} {s last : Session}
    (h : compile r replies s = .ok 0 last) :
    ∃ j path source bs t, Renders r replies s j path source bs t := by
  obtain ⟨j, u, hp, hwork⟩ := Desk.bind_eq_ok_iff.mp h
  obtain ⟨path, t, hc, -⟩ := Desk.bind_eq_ok_iff.mp hwork
  have hopens : Opens r s j path t := ⟨u, hp, hc⟩
  rw [hopens.compile_eq] at h
  cases hw : work r j replies path t with
  | error f v =>
    rw [hw] at h
    contradiction
  | ok code v =>
    rw [hw] at h
    obtain ⟨rfl, -⟩ : code = 0 ∧ _ := EStateM.Result.ok.inj h
    obtain ⟨outcome, w, hloop, hfinish⟩ := Desk.bind_eq_ok_iff.mp hw
    unfold finish at hfinish
    cases hbs : outcome.unwrap with
    | error f =>
      rw [hbs] at hfinish
      exact absurd (Desk.pure_eq_ok_iff.mp hfinish).1 (by decide)
    | ok bs =>
      simp only [hbs] at hfinish
      obtain ⟨x, x', hget, hfinish⟩ := Desk.bind_eq_ok_iff.mp hfinish
      obtain ⟨source, y, hsource, -⟩ := Desk.bind_eq_ok_iff.mp hfinish
      cases hget
      obtain ⟨z, z', hget, hsource⟩ := Desk.bind_eq_ok_iff.mp hsource
      cases hget
      exact ⟨j, path, source, bs, w, outcome, ⟨t, hopens, hloop⟩, hbs,
        (Session.lift_eq_ok_iff.mp hsource).1⟩

theorem saved_against_printed (r : CompileRequest) (out : String) (replies : Replies) (s last : Session)
    (hout : r.out = none) (hedit : r.editResult = false)
    (hrun : Program.perform (.compile r) replies s = .ok 0 last)
    (hw : s.files.Writable (tidyPath out))
    (hother : ¬s.files.SameFile (s.host.scratch ++ r.language.ending) (tidyPath out)) :
    ∃ j path source bs t saved, Renders r replies s j path source bs t ∧
      Program.perform (.compile { r with out := some out }) replies s = .ok 0 saved ∧
      let rendered := Listing.renderBytes j.tools (isDarwin none s.host.system) j.options source bs
      last.output = s.output ++ Text.stripEscapes rendered ∧ saved.output = s.output ∧
        saved.files.read (tidyPath out) = .ok (Text.utf8 rendered) ∧
        (Text.utf8 (Text.stripEscapes rendered) = Text.utf8 rendered ↔
          ¬Text.HasSequence rendered.toList) := by
  obtain ⟨j, path, source, bs, t, hrenders⟩ := renders_of_compile hrun
  have hworking := hrenders.working
  -- Nothing before the delivery depends on where the code goes.
  have hrenders' : Renders { r with out := some out } replies s j path source bs t :=
    hrenders
  obtain ⟨fs, hfs, hsaved⟩ := hrenders'.compile_of_saved rfl hw
  refine ⟨j, path, source, bs, t, Session.dropSnippet path { t with files := fs }, hrenders, ?_, ?_⟩
  · refine hsaved.trans ?_
    simp only [hedit]
    rfl
  · intro rendered
    refine ⟨?_, hworking.writes.output, ?_, Text.utf8_stripEscapes_iff rendered⟩
    · have hprinted := hrenders.compile_eq
      rw [deliver_eq_print hout hedit] at hprinted
      simp only [Program.perform, hprinted] at hrun
      obtain ⟨-, rfl⟩ := EStateM.Result.ok.inj hrun
      rw [← hworking.writes.output]
      rfl
    · have hne : ¬s.files.SameFile path (tidyPath out) := by rwa [hworking.named]
      exact read_of_saved hworking hfs hne

theorem saved_against_printed_oneAttempt :
    ∃ last saved rendered, Program.perform (.compile plainRequest) .closed (oneAttempt [10]) = .ok 0 last ∧
      Program.perform (.compile savingRequest) .closed (oneAttempt [10]) = .ok 0 saved ∧
      last.output = Text.stripEscapes rendered ∧
      saved.files.read (tidyPath "out.s") = .ok (Text.utf8 rendered) := by
  obtain ⟨last, hrun⟩ := exists_of_result? (r := Program.perform (.compile plainRequest) .closed
    (oneAttempt [10])) (x := 0) (by decide +kernel)
  have hlocate : (oneAttempt [10]).files.locate (tidyPath "out.s") = .ok ["out.s"] :=
    Session.eq_ok_of_toOption (by decide +kernel)
  have hsnippet : (oneAttempt [10]).files.locate "snippet.c" = .ok ["snippet.c"] :=
    Session.eq_ok_of_toOption (by decide +kernel)
  have hother : ¬(oneAttempt [10]).files.SameFile "snippet.c" (tidyPath "out.s") := by
    rintro ⟨place, hplace, hout⟩
    have hplaces := (hsnippet.symm.trans hplace).trans (hout.symm.trans hlocate)
    exact absurd (Except.ok.inj hplaces) (by decide)
  obtain ⟨j, path, source, bs, t, saved, -, hsaved, hprinted, -, hread, -⟩ :=
    saved_against_printed plainRequest "out.s" .closed (oneAttempt [10]) last rfl rfl hrun
      ⟨["out.s"], hlocate, by decide +kernel⟩ hother
  rw [show (oneAttempt [10]).output = "" from rfl, String.empty_append] at hprinted
  exact ⟨last, saved, _, hrun, hsaved, hprinted, hread⟩

def colouredAttempt : Session :=
  { Session.bare with
    edits := [.ended 0 (some [10])]
    launches := [.ended 0 (some [27, 91, 51, 49, 109, 114, 101, 116, 10])] }

theorem printed_loses_sequence :
    ∃ last saved bs, Program.perform (.compile plainRequest) .closed colouredAttempt = .ok 0 last ∧
      Program.perform (.compile savingRequest) .closed colouredAttempt = .ok 0 saved ∧
      saved.files.read (tidyPath "out.s") = .ok bs ∧ 27 ∈ bs ∧ 27 ∉ Text.utf8 last.output := by
  let printing := Program.perform (.compile plainRequest) .closed colouredAttempt
  let saving := Program.perform (.compile savingRequest) .closed colouredAttempt
  obtain ⟨last, hlast⟩ := exists_of_result? (r := printing) (x := 0) (by decide +kernel)
  obtain ⟨saved, hsaved⟩ := exists_of_result? (r := saving) (x := 0) (by decide +kernel)
  have hbytes : ((finalState saving).files.read (tidyPath "out.s")).toOption.any (27 ∈ ·) = true := by
    decide +kernel
  have hprinted : 27 ∉ Text.utf8 (finalState printing).output := by decide +kernel
  rw [hsaved, finalState, Option.any_eq_true] at hbytes
  rw [hlast, finalState] at hprinted
  obtain ⟨bs, hread, hbs⟩ := hbytes
  exact ⟨last, saved, bs, hlast, hsaved, Session.eq_ok_of_toOption hread,
    by simpa using hbs, hprinted⟩

end Command

end AsmLens
