import AsmLens.Proofs.FittingLines
import AsmLens.Proofs.ListedArguments
import AsmLens.Proofs.OptionOccurrences

/-!
A list given at once or in parts. An option with two items and a comma between them stands for two options
with one item each: the whole program does the same, and the compiler gets the items in the order in which
they stand on the command line.
-/

namespace AsmLens

open AsmLens.CommandLine.Switch (Letters Occurrence Ready)

namespace CommandLine

theorem splitText_joined (a b : String) :
    Text.splitText ',' (a ++ "," ++ b) = Text.splitText ',' a ++ Text.splitText ',' b := by
  have hlist : (a ++ "," ++ b).toList = a.toList ++ ',' :: b.toList := by simp
  rw [Text.splitText, hlist, Text.pieces_append, List.map_append, Text.splitText, Text.splitText]

theorem items_joined (a b : String) : items [a ++ "," ++ b] = items [a, b] := by
  simp [items, splitText_joined]

namespace Parsed

variable {κ : Type} [DecidableEq κ] {switches : List (Switch κ)} {key : κ} {text : String}
  {flags : List (κ × Given)} {words : List String}

theorem texts_letters {cs : List Char} (h : Letters switches cs flags) (k : κ) :
    (ofGiven flags).texts k = [] := by
  induction h with
  | nil => rfl
  | cons _ _ _ ih => exact ih

theorem texts_occurrence (h : Occurrence switches key text flags words) (k : κ) :
    (ofGiven (flags ++ [(key, .text text)])).texts k = if key = k then [text] else [] := by
  have hflags : (ofGiven flags).texts k = [] := by
    cases h with
    | named | assigned => rfl
    | lettered hcs | attached hcs => exact texts_letters hcs k
  rw [ofGiven_append, texts_append, hflags, List.nil_append]
  by_cases hkey : key = k
  · simp [texts, ofGiven, hkey]
  · simp [texts, ofGiven, hkey]

theorem flags_occurrence (flags : List (κ × Given)) (key : κ) (text : String) (k : κ) :
    (ofGiven (flags ++ [(key, .text text)])).flags k = (ofGiven flags).flags k := by
  rw [ofGiven_append, flags_append]
  exact List.append_nil _

end Parsed

/-- Two readings of command lines with the same items, however they are parted. -/
structure SameItems (p q : Parsed CompileKey) : Prop where
  alike : AlikeOutsideLists p q
  items : ∀ key, items (p.texts key) = items (q.texts key)
  given : ∀ key, (p.texts key).isEmpty = (q.texts key).isEmpty

theorem wellNamed_compileSwitches : Switch.WellNamed compileSwitches := by
  decide +kernel

section

variable {key : CompileKey} {a b : String} {flags : List (CompileKey × Given)}
  {joined first second : List String}

theorem sameItems_joined (hkey : key ∈ listKeys)
    (hjoined : Occurrence compileSwitches key (a ++ "," ++ b) flags joined)
    (hfirst : Occurrence compileSwitches key a flags first)
    (hsecond : Occurrence compileSwitches key b [] second) (p q : Parsed CompileKey) :
    SameItems (p.append ((Parsed.ofGiven (flags ++ [(key, .text (a ++ "," ++ b))])).append q))
      (p.append ((Parsed.ofGiven (flags ++ [(key, .text a)])).append
        ((Parsed.ofGiven ([] ++ [(key, .text b)])).append q))) where
  alike :=
    { extra := rfl
      flags := fun k => by simp only [Parsed.flags_append, Parsed.flags_occurrence]; rfl
      texts := fun k hk => by
        have hne : key ≠ k := ne_of_mem_of_not_mem hkey hk
        simp only [Parsed.texts_append, Parsed.texts_occurrence hjoined,
          Parsed.texts_occurrence hfirst, Parsed.texts_occurrence hsecond, if_neg hne]
        rfl }
  items k := by
    simp only [Parsed.texts_append, Parsed.texts_occurrence hjoined, Parsed.texts_occurrence hfirst,
      Parsed.texts_occurrence hsecond, items_append]
    by_cases hk : key = k
    · rw [if_pos hk, if_pos hk, if_pos hk, items_joined, ← List.singleton_append, items_append]
      simp only [List.append_assoc]
    · simp only [if_neg hk]
      rfl
  given k := by
    simp only [Parsed.texts_append, Parsed.texts_occurrence hjoined, Parsed.texts_occurrence hfirst,
      Parsed.texts_occurrence hsecond]
    by_cases hk : key = k
    · rw [Bool.eq_iff_iff]
      simp [hk]
    · simp [hk]

end

variable {p q : Parsed CompileKey}

theorem SameItems.flag (h : SameItems p q) (key : CompileKey) (fallback : Bool) :
    p.flag key fallback = q.flag key fallback := by
  rw [Parsed.flag, h.alike.flags, Parsed.flag]

theorem SameItems.toOptions (h : SameItems p q) (r : CompileRequest) (dir : String) :
    (r.withLists p).toOptions dir = (r.withLists q).toOptions dir := by
  simp only [CompileRequest.toOptions, CompileRequest.toEntries, CompileRequest.withLists, h.items,
    h.given, h.flag]
  rfl

end CommandLine

namespace Command

open CommandLine

theorem compile_withLists {p q : Parsed CompileKey} (h : SameItems p q) (r : CompileRequest)
    (replies : Replies) :
    compile (r.withLists p) replies = compile (r.withLists q) replies := by
  have hprepare : prepare (r.withLists p) = prepare (r.withLists q) := by
    unfold prepare
    simp only [h.toOptions r]
    rfl
  unfold compile
  rw [hprepare]
  rfl

end Command

namespace Program

open CommandLine

def runParsed (p : Parsed CompileKey) (replies : Replies) (s : Session) :
    Except Misuse (EStateM.Result Fault Session Nat) :=
  if p.flag .help false then .ok (perform .help replies s)
  else (CompileRequest.ofParsed s.files p).map fun r => perform (.compile r) replies s

theorem run_compile (words : List String) (replies : Replies) (s : Session) :
    run ("compile" :: words) replies s =
      (Switch.parse compileSwitches true words).bind fun p => runParsed p replies s := by
  have hgroup : Switch.parse groupSwitches false ("compile" :: words) =
      .ok { given := [], extra := "compile" :: words } := by
    have hword : ("compile" : String) ≠ "--" := by decide
    have hoption : Switch.isOption "compile" = false := by decide
    simp only [Switch.parse, if_neg hword, hoption]
    rfl
  have hcommand (fs : Files) : Invocation.ofArguments fs ("compile" :: words) =
      Invocation.ofCommand fs "compile" words := by
    unfold Invocation.ofArguments
    rw [hgroup]
    rfl
  unfold run
  rw [hcommand]
  simp only [Invocation.ofCommand, if_true]
  cases Switch.parse compileSwitches true words with
  | error m => rfl
  | ok p =>
    simp only [bind, Except.bind, runParsed]
    by_cases hhelp : p.flag .help false = true
    · simp only [hhelp, if_true]
      rfl
    · simp only [hhelp]
      cases CompileRequest.ofParsed s.files p <;> rfl

theorem runParsed_eq {p q : Parsed CompileKey} (h : SameItems p q) (replies : Replies) (s : Session) :
    runParsed p replies s = runParsed q replies s := by
  unfold runParsed
  rw [h.flag, CompileRequest.ofParsed_eq_map h.alike]
  cases hr : CompileRequest.ofParsed s.files p with
  | error m => rfl
  | ok r =>
    have hcompile := Command.compile_withLists h r replies
    rw [← CompileRequest.eq_withLists hr] at hcompile
    simp only [Except.map, perform, hcompile]

theorem run_joined {key : CompileKey} (hkey : key ∈ listKeys) {a b : String}
    {flags : List (CompileKey × Given)} {before joined first second : List String}
    (hbefore : Ready compileSwitches before)
    (hjoined : Occurrence compileSwitches key (a ++ "," ++ b) flags joined)
    (hfirst : Occurrence compileSwitches key a flags first)
    (hsecond : Occurrence compileSwitches key b [] second) (after : List String) (replies : Replies)
    (s : Session) : run ("compile" :: (before ++ joined ++ after)) replies s =
      run ("compile" :: (before ++ (first ++ second) ++ after)) replies s := by
  have hw := wellNamed_compileSwitches
  rw [run_compile, run_compile, Switch.parse_of_occurrence hw hbefore hjoined, ← List.append_assoc before,
    List.append_assoc _ second, Switch.parse_of_occurrence hw hbefore hfirst,
    hsecond.parse_append true after hw]
  cases Switch.parse compileSwitches true before with
  | error m => rfl
  | ok p =>
    cases Switch.parse compileSwitches true after with
    | error m => rfl
    | ok q => exact runParsed_eq (sameItems_joined hkey hjoined hfirst hsecond p q) replies s

theorem texts_of_parse {before middle after : List String} {key : CompileKey} {text : String}
    {flags : List (CompileKey × Given)} {p : Parsed CompileKey}
    (h : Switch.parse compileSwitches true (before ++ middle ++ after) = .ok p)
    (hbefore : Ready compileSwitches before)
    (hmiddle : Occurrence compileSwitches key text flags middle) :
    ∃ q r, Switch.parse compileSwitches true before = .ok q ∧
      Switch.parse compileSwitches true after = .ok r ∧
      ∀ k, p.texts k = q.texts k ++ ((if key = k then [text] else []) ++ r.texts k) := by
  rw [Switch.parse_of_occurrence wellNamed_compileSwitches hbefore hmiddle] at h
  cases hq : Switch.parse compileSwitches true before with
  | error m =>
    rw [hq] at h
    contradiction
  | ok q =>
    cases hr : Switch.parse compileSwitches true after with
    | error m =>
      rw [hq, hr] at h
      contradiction
    | ok r =>
      rw [hq, hr] at h
      obtain rfl := Except.ok.inj h
      refine ⟨q, r, rfl, rfl, fun k => ?_⟩
      rw [Parsed.texts_append, Parsed.texts_append, Parsed.texts_occurrence hmiddle]

def CompilesWith (s : Session) (p : Parsed CompileKey) (new : List Event) : Prop :=
  ∀ command source, .run command none source ∈ new →
    ∃ r o compiler path, CompileRequest.ofParsed s.files p = .ok r ∧
      r.toOptions s.host.directory = .ok o ∧
      command = compiler :: (o.leading (Options.libraryOf none s.host.system) ++
        listed s.host.directory p ++ [path, "-o", "-"])

theorem compilesWith_runParsed {p : Parsed CompileKey} {replies : Replies} {s : Session}
    {result : EStateM.Result Fault Session Nat} (h : runParsed p replies s = .ok result) :
    ∃ new, (finalState result).events = s.events ++ new ∧ CompilesWith s p new := by
  have hnothing {u : Session} (hu : u.events = s.events) :
      ∃ new, u.events = s.events ++ new ∧ CompilesWith s p new :=
    ⟨[], by rw [hu, List.append_nil], fun _ _ hrun => by contradiction⟩
  unfold runParsed at h
  split at h
  · obtain rfl := Except.ok.inj h
    exact hnothing rfl
  · cases hr : CompileRequest.ofParsed s.files p with
    | error m =>
      rw [hr] at h
      contradiction
    | ok r =>
      rw [hr] at h
      obtain rfl := Except.ok.inj h
      by_cases hopens : ∃ j path t, Command.Opens r s j path t
      · obtain ⟨j, path, t, hopens⟩ := hopens
        have hstarts : Session.StartsFrom _ s (finalState (Command.compile r replies s)) :=
          hopens.startsFrom
        obtain ⟨new, hevents, hnew⟩ := hstarts
        refine ⟨new, hevents, fun command source hrun => ?_⟩
        obtain ⟨stage, hstage, rfl, hreads⟩ := hnew command none source hrun
        obtain ⟨u, hprepare, -⟩ := hopens
        have hoptions := Command.options_of_prepare hprepare
        refine ⟨r, j.options, j.tools.compiler, path, hr, hoptions, ?_⟩
        have hlists := CompileRequest.lists_of_toOptions hoptions
        rw [CompileRequest.eq_withLists hr] at hlists
        rw [Command.command_of_stage stage hstage (hreads rfl), Command.compileCommand,
          CompileRequest.arguments_listed hlists]
      · exact hnothing (Command.quiet_of_not_opens hopens).events

end Program

end AsmLens
