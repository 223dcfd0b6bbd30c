import AsmLens.CommandLine.Switch
import Mathlib.Data.List.TakeWhile

namespace AsmLens.CommandLine

namespace Parsed

variable {κ : Type}

def ofGiven (given : List (κ × Given)) : Parsed κ := { given, extra := [] }

def append (p q : Parsed κ) : Parsed κ := { given := p.given ++ q.given, extra := p.extra ++ q.extra }

theorem ofGiven_append (given more : List (κ × Given)) :
    ofGiven (given ++ more) = (ofGiven given).append (ofGiven more) := rfl

theorem append_assoc (p q r : Parsed κ) : (p.append q).append r = p.append (q.append r) := by
  simp only [append, List.append_assoc]

variable [DecidableEq κ]

@[simp] theorem texts_append (p q : Parsed κ) (key : κ) :
    (p.append q).texts key = p.texts key ++ q.texts key := List.filterMap_append

@[simp] theorem flags_append (p q : Parsed κ) (key : κ) :
    (p.append q).flags key = p.flags key ++ q.flags key := List.filterMap_append

end Parsed

namespace Switch

variable {κ : Type} {switches : List (Switch κ)} {key : κ} {text name : String}
  {flags : List (κ × Given)} {words : List String}

def isName (name : String) : Bool :=
  match name.toList with
  | ['-', c] => c != '-'
  | '-' :: '-' :: _ :: _ => !name.toList.contains '='
  | _ => false

def WellNamed (switches : List (Switch κ)) : Prop := ∀ s ∈ switches, ∀ n ∈ s.names, isName n = true

instance : DecidablePred (WellNamed (κ := κ)) := fun switches =>
  inferInstanceAs (Decidable (∀ s ∈ switches, ∀ n ∈ s.names, isName n = true))

theorem isName_of_find? (hw : WellNamed switches) {s : Switch κ} (h : find? switches name = some s) :
    isName name = true :=
  hw s (List.mem_of_find?_eq_some h) name (by simpa using List.find?_some h)

theorem hyphens_of_isName (h : isName name = true) (hlong : 2 < name.length) :
    ∃ c rest, name.toList = '-' :: '-' :: c :: rest ∧ '=' ∉ name.toList := by
  rw [← String.length_toList] at hlong
  unfold isName at h
  split at h
  · rename_i hname
    rw [hname] at hlong
    simp at hlong
  · rename_i c rest hname
    exact ⟨c, rest, hname, by simpa using h⟩
  · contradiction

theorem ne_hyphen_of_find? (hw : WellNamed switches) {c : Char} {s : Switch κ}
    (h : find? switches (String.ofList ['-', c]) = some s) : c ≠ '-' := by
  have hname := isName_of_find? hw h
  rintro rfl
  simp [isName] at hname

theorem toList_splitName (a : String) : (splitName a).1.toList = a.toList.takeWhile (· != '=') := by
  have hall := List.takeWhile_append_dropWhile (p := (· != '=')) (l := a.toList)
  simp only [splitName]
  split
  · rename_i hnone
    rwa [hnone, List.append_nil, eq_comm] at hall
  · rw [String.toList_ofList]

theorem splitName_of_notMem {a : String} (h : '=' ∉ a.toList) : splitName a = (a, none) := by
  have hnone : a.toList.dropWhile (· != '=') = [] :=
    List.dropWhile_eq_nil_iff.mpr fun c hc => bne_iff_ne.mpr (ne_of_mem_of_not_mem hc h)
  simp only [splitName, hnone]

theorem splitName_assigned (h : '=' ∉ name.toList) (text : String) :
    splitName (name ++ "=" ++ text) = (name, some text) := by
  have hne : ∀ c ∈ name.toList, (c != '=') = true :=
    fun c hc => bne_iff_ne.mpr (ne_of_mem_of_not_mem hc h)
  have hlist : (name ++ "=" ++ text).toList = name.toList ++ '=' :: text.toList := by simp
  simp only [splitName, hlist, List.dropWhile_append_of_pos hne, List.takeWhile_append_of_pos hne]
  simp

theorem eq_of_splitName_none {a : String} (h : splitName a = (name, none)) : a = name := by
  simp only [splitName] at h
  split at h
  · exact (Prod.mk.inj h).1
  · simp at h

theorem eq_of_splitName_some {a : String} (h : splitName a = (name, some text)) :
    a = name ++ "=" ++ text := by
  have hall := List.takeWhile_append_dropWhile (p := (· != '=')) (l := a.toList)
  simp only [splitName] at h
  split at h
  · simp at h
  · rename_i c value hvalue
    obtain ⟨rfl, htext⟩ := Prod.mk.inj h
    obtain rfl := Option.some.inj htext
    have hsign : c = '=' := by simpa [hvalue] using List.head?_dropWhile_not (· != '=') a.toList
    rw [hvalue, hsign] at hall
    rw [← String.toList_inj]
    simp [hall]

theorem findLong?_letters (hw : WellNamed switches) {letters : List Char}
    (hletters : ∀ c ∈ letters.head?, c ≠ '-') :
    findLong? switches (splitName (String.ofList ('-' :: letters))).1 = none := by
  have hname := toList_splitName (String.ofList ('-' :: letters))
  rw [String.toList_ofList, List.takeWhile_cons_of_pos (by decide)] at hname
  unfold findLong?
  split
  · rename_i hlong
    by_contra hfound
    obtain ⟨s, hs⟩ := Option.ne_none_iff_exists'.mp hfound
    obtain ⟨c, rest, hhyphens, -⟩ := hyphens_of_isName (isName_of_find? hw hs) hlong
    cases letters with
    | nil => simp [hname] at hhyphens
    | cons d letters =>
      -- The name that was found has a second hyphen, and the word has none.
      have hd : d ≠ '-' := hletters d rfl
      simp only [hname, List.takeWhile_cons] at hhyphens
      split at hhyphens
      · exact hd (List.cons.inj (List.cons.inj hhyphens).2).1
      · simp at hhyphens
  · rfl

theorem readArgument_letters (hw : WellNamed switches) {letters : List Char}
    (hletters : ∀ c ∈ letters.head?, c ≠ '-') :
    readArgument switches (String.ofList ('-' :: letters)) = readCluster switches letters := by
  simp only [readArgument, findLong?_letters hw hletters, String.toList_ofList]
  split
  · rename_i hlist
    cases hlist
    exact absurd rfl (hletters '-' rfl)
  · rename_i hlist
    rw [(List.cons.inj hlist).2]
  · rename_i hlist
    exact absurd rfl (hlist letters)

def TakesText (switches : List (Switch κ)) (name : String) (key : κ) : Prop :=
  ∃ s, find? switches name = some s ∧ s.means = none ∧ s.key = key

inductive Letters (switches : List (Switch κ)) : List Char → List (κ × Given) → Prop where
  | nil : Letters switches [] []
  | cons {c : Char} {cs : List Char} {s : Switch κ} {on : Bool} {flags : List (κ × Given)}
      (hs : find? switches (String.ofList ['-', c]) = some s) (hon : s.means = some on)
      (h : Letters switches cs flags) : Letters switches (c :: cs) ((s.key, .flag on) :: flags)

/-- One option with its text, in each of the ways to write it; with a letter there may be flags before it
in the same word. -/
inductive Occurrence (switches : List (Switch κ)) (key : κ) (text : String) :
    List (κ × Given) → List String → Prop where
  | named {name : String} (h : TakesText switches name key) (hlong : 2 < name.length) :
      Occurrence switches key text [] [name, text]
  | assigned {name : String} (h : TakesText switches name key) (hlong : 2 < name.length) :
      Occurrence switches key text [] [name ++ "=" ++ text]
  | lettered {cs : List Char} {c : Char} {flags : List (κ × Given)} (hcs : Letters switches cs flags)
      (h : TakesText switches (String.ofList ['-', c]) key) :
      Occurrence switches key text flags [String.ofList ('-' :: (cs ++ [c])), text]
  | attached {cs : List Char} {c : Char} {flags : List (κ × Given)} (hcs : Letters switches cs flags)
      (h : TakesText switches (String.ofList ['-', c]) key) (htext : text ≠ "") :
      Occurrence switches key text flags [String.ofList ('-' :: (cs ++ c :: text.toList))]

theorem readCluster_append {cs : List Char} (h : Letters switches cs flags) (rest : List Char) :
    readCluster switches (cs ++ rest) =
      (readCluster switches rest).map fun g => (flags ++ g.1, g.2) := by
  induction h with
  | nil =>
    rw [List.nil_append]
    cases readCluster switches rest <;> rfl
  | cons hs hon _ ih =>
    rw [List.cons_append, readCluster, hs]
    simp only [hon, ih]
    cases readCluster switches rest <;> rfl

theorem readCluster_cons {c : Char} (h : TakesText switches (String.ofList ['-', c]) key)
    (rest : List Char) : readCluster switches (c :: rest) =
      if rest.isEmpty then .ok ([], some key) else .ok ([(key, .text (String.ofList rest))], none) := by
  obtain ⟨s, hs, hmeans, rfl⟩ := h
  simp only [readCluster, hs, hmeans]

theorem head?_ne_hyphen (hw : WellNamed switches) {cs : List Char} (hcs : Letters switches cs flags)
    {c : Char} (h : TakesText switches (String.ofList ['-', c]) key) (rest : List Char) :
    ∀ d ∈ (cs ++ c :: rest).head?, d ≠ '-' := by
  cases hcs with
  | nil =>
    obtain ⟨s, hs, -, -⟩ := h
    rintro d hd
    obtain rfl := Option.some.inj hd
    exact ne_hyphen_of_find? hw hs
  | cons hs =>
    rintro d hd
    obtain rfl := Option.some.inj hd
    exact ne_hyphen_of_find? hw hs

structure ReadAs (switches : List (Switch κ)) (a : String) (given : List (κ × Given))
    (wants : Option κ) : Prop where
  word : a ≠ "--"
  option : isOption a = true
  read : readArgument switches a = .ok (given, wants)

theorem readAs_long (hw : WellNamed switches) (h : TakesText switches name key)
    (hlong : 2 < name.length) (text : String) :
    ReadAs switches name [] (some key) ∧
      ReadAs switches (name ++ "=" ++ text) [(key, .text text)] none := by
  obtain ⟨s, hs, hmeans, rfl⟩ := h
  obtain ⟨c, rest, hname, hsign⟩ := hyphens_of_isName (isName_of_find? hw hs) hlong
  have hfound : findLong? switches name = some s := by rw [findLong?, if_pos hlong, hs]
  have hword (more : String) : name ++ more ≠ "--" ∧ isOption (name ++ more) = true := by
    rw [ne_eq, ← String.toList_inj]
    simp [isOption, hname]
  refine ⟨⟨?_, ?_, ?_⟩, ?_, ?_, ?_⟩
  · simpa using (hword "").1
  · simpa using (hword "").2
  · simp only [readArgument, splitName_of_notMem hsign, hfound, hmeans]
  · rw [String.append_assoc]
    exact (hword _).1
  · rw [String.append_assoc]
    exact (hword _).2
  · simp only [readArgument, splitName_assigned hsign, hfound, hmeans]

theorem readAs_letters (hw : WellNamed switches) {cs : List Char} (hcs : Letters switches cs flags)
    {c : Char} (h : TakesText switches (String.ofList ['-', c]) key) (rest : List Char) :
    ReadAs switches (String.ofList ('-' :: (cs ++ c :: rest)))
      (flags ++ if rest.isEmpty then [] else [(key, .text (String.ofList rest))])
      (if rest.isEmpty then some key else none) := by
  have hhead := head?_ne_hyphen hw hcs h rest
  refine ⟨?_, ?_, ?_⟩
  · intro hword
    rw [← String.toList_inj, String.toList_ofList] at hword
    obtain ⟨-, hletters⟩ := List.cons.inj hword
    rw [hletters] at hhead
    exact hhead '-' rfl rfl
  · unfold isOption
    rw [String.toList_ofList]
    cases cs <;> rfl
  · rw [readArgument_letters hw hhead, readCluster_append hcs, readCluster_cons h]
    cases rest <;> simp [Except.map]

theorem readCluster_cons_cases {c : Char} {letters : List Char} {given : List (κ × Given)}
    {wants : Option κ} (h : readCluster switches (c :: letters) = .ok (given, wants)) :
    (∃ s on later, find? switches (String.ofList ['-', c]) = some s ∧ s.means = some on ∧
      readCluster switches letters = .ok (later, wants) ∧ given = (s.key, .flag on) :: later) ∨
    ∃ key, TakesText switches (String.ofList ['-', c]) key ∧
      (letters = [] ∧ given = [] ∧ wants = some key ∨
        letters ≠ [] ∧ given = [(key, .text (String.ofList letters))] ∧ wants = none) := by
  simp only [readCluster] at h
  split at h
  · contradiction
  · rename_i s hs
    split at h
    · rename_i on hon
      left
      cases hrest : readCluster switches letters with
      | error e =>
        rw [hrest] at h
        contradiction
      | ok g =>
        rw [hrest] at h
        cases h
        exact ⟨s, on, g.1, hs, hon, rfl, rfl⟩
    · rename_i hnone
      refine .inr ⟨s.key, ⟨s, hs, hnone, rfl⟩, ?_⟩
      split at h
      · rename_i hempty
        cases h
        exact .inl ⟨List.isEmpty_iff.mp hempty, rfl, rfl⟩
      · rename_i hsome
        cases h
        exact .inr ⟨mt List.isEmpty_iff.mpr hsome, rfl, rfl⟩

theorem letters_of_wanted {letters : List Char}
    (h : readCluster switches letters = .ok (flags, some key)) :
    ∃ cs c, letters = cs ++ [c] ∧ Letters switches cs flags ∧
      TakesText switches (String.ofList ['-', c]) key := by
  induction letters generalizing flags with
  | nil => cases h
  | cons c letters ih =>
    rcases readCluster_cons_cases h with
      ⟨s, on, later, hs, hon, hlater, rfl⟩ | ⟨key', htakes, ⟨rfl, rfl, hkey⟩ | ⟨-, -, hkey⟩⟩
    · obtain ⟨cs, d, rfl, hcs, htakes⟩ := ih hlater
      exact ⟨c :: cs, d, rfl, .cons hs hon hcs, htakes⟩
    · obtain rfl := Option.some.inj hkey
      exact ⟨[], c, rfl, .nil, htakes⟩
    · contradiction

theorem letters_of_text {letters : List Char} {wants : Option κ}
    (h : readCluster switches letters = .ok (flags ++ [(key, .text text)], wants)) :
    ∃ cs c, letters = cs ++ c :: text.toList ∧ Letters switches cs flags ∧
      TakesText switches (String.ofList ['-', c]) key ∧ text ≠ "" := by
  induction letters generalizing flags with
  | nil => simp [readCluster] at h
  | cons c letters ih =>
    rcases readCluster_cons_cases h with
      ⟨s, on, later, hs, hon, hlater, hgiven⟩ | ⟨key', htakes, ⟨-, hgiven, -⟩ | ⟨hsome, hgiven, -⟩⟩
    · cases flags with
      | nil => simp at hgiven
      | cons f flags =>
        obtain ⟨rfl, rfl⟩ := List.cons.inj hgiven
        obtain ⟨cs, d, rfl, hcs, htakes, htext⟩ := ih hlater
        exact ⟨c :: cs, d, rfl, .cons hs hon hcs, htakes, htext⟩
    · simp at hgiven
    · rcases List.append_eq_singleton_iff.mp hgiven with ⟨rfl, hlast⟩ | ⟨-, hlast⟩
      · cases hlast
        exact ⟨[], c, by simp, .nil, htakes, by simpa using hsome⟩
      · contradiction

theorem ReadAs.long_or_letters {a : String} {given : List (κ × Given)} {wants : Option κ}
    (h : ReadAs switches a given wants) :
    (∃ name s, find? switches name = some s ∧ 2 < name.length ∧
      ((wants = none ∧ ∃ on, given = [(s.key, .flag on)]) ∨
        (wants = some s.key ∧ s.means = none ∧ a = name ∧ given = []) ∨
        (wants = none ∧ s.means = none ∧
          ∃ text, a = name ++ "=" ++ text ∧ given = [(s.key, .text text)]))) ∨
      ∃ letters, a = String.ofList ('-' :: letters) ∧
        readCluster switches letters = .ok (given, wants) := by
  have hread := h.read
  unfold readArgument at hread
  cases hsplit : splitName a with
  | mk name value =>
    simp only [hsplit] at hread
    split at hread
    · rename_i s hs
      left
      unfold findLong? at hs
      split at hs
      · rename_i hlong
        refine ⟨name, s, hs, hlong, ?_⟩
        split at hread
        · cases hread
          exact .inl ⟨rfl, _, rfl⟩
        · contradiction
        · rename_i hmeans
          cases hread
          exact .inr (.inr ⟨rfl, hmeans, _, eq_of_splitName_some hsplit, rfl⟩)
        · rename_i hmeans
          cases hread
          exact .inr (.inl ⟨rfl, hmeans, eq_of_splitName_none hsplit, rfl⟩)
      · contradiction
    · right
      split at hread
      · contradiction
      · rename_i letters _ hletters
        exact ⟨letters, by rw [← hletters, String.ofList_toList], hread⟩
      · contradiction

theorem occurrence_of_readAs_some {a : String} (h : ReadAs switches a flags (some key))
    (text : String) : Occurrence switches key text flags [a, text] := by
  rcases h.long_or_letters with ⟨name, s, hs, hlong, hcases⟩ | ⟨letters, rfl, hread⟩
  · rcases hcases with ⟨hwants, -⟩ | ⟨hkey, hmeans, rfl, rfl⟩ | ⟨hwants, -⟩
    · contradiction
    · obtain rfl := Option.some.inj hkey
      exact .named ⟨s, hs, hmeans, rfl⟩ hlong
    · contradiction
  · obtain ⟨cs, c, rfl, hcs, htakes⟩ := letters_of_wanted hread
    exact .lettered hcs htakes

theorem occurrence_of_readAs_none {a : String}
    (h : ReadAs switches a (flags ++ [(key, .text text)]) none) :
    Occurrence switches key text flags [a] := by
  rcases h.long_or_letters with ⟨name, s, hs, hlong, hcases⟩ | ⟨letters, rfl, hread⟩
  · rcases hcases with ⟨-, on, hlast⟩ | ⟨hwants, -⟩ | ⟨-, hmeans, v, rfl, hlast⟩
    · rcases List.append_eq_singleton_iff.mp hlast with ⟨-, hsame⟩ | ⟨-, hsame⟩ <;> cases hsame
    · contradiction
    · rcases List.append_eq_singleton_iff.mp hlast with ⟨rfl, hsame⟩ | ⟨-, hsame⟩ <;> cases hsame
      exact .assigned ⟨s, hs, hmeans, rfl⟩ hlong
  · obtain ⟨cs, c, rfl, hcs, htakes, htext⟩ := letters_of_text hread
    exact .attached hcs htakes htext

theorem occurrence_iff (hw : WellNamed switches) :
    Occurrence switches key text flags words ↔
      (∃ a, words = [a, text] ∧ ReadAs switches a flags (some key)) ∨
        ∃ a, words = [a] ∧ ReadAs switches a (flags ++ [(key, .text text)]) none := by
  constructor
  · intro h
    cases h with
    | named h hlong => exact .inl ⟨_, rfl, (readAs_long hw h hlong text).1⟩
    | assigned h hlong => exact .inr ⟨_, rfl, (readAs_long hw h hlong text).2⟩
    | lettered hcs h =>
      have hread := readAs_letters hw hcs h []
      simp only [List.isEmpty_nil, if_true, List.append_nil] at hread
      exact .inl ⟨_, rfl, hread⟩
    | attached hcs h htext =>
      have hread := readAs_letters hw hcs h text.toList
      simp only [List.isEmpty_eq_false_iff.mpr (mt String.toList_eq_nil_iff.mp htext),
        String.ofList_toList] at hread
      exact .inr ⟨_, rfl, hread⟩
  · rintro (⟨a, rfl, hread⟩ | ⟨a, rfl, hread⟩)
    · exact occurrence_of_readAs_some hread text
    · exact occurrence_of_readAs_none hread

section

variable {a : String} {given : List (κ × Given)} {wants : Option κ} (mixed : Bool) (rest : List String)

theorem parse_flags (h : ReadAs switches a given none) :
    parse switches mixed (a :: rest) = (parse switches mixed rest).map (Parsed.ofGiven given).append := by
  simp only [parse, if_neg h.word, h.option, if_true, h.read]
  rfl

theorem parse_wanted (h : ReadAs switches a given (some key)) (text : String) :
    parse switches mixed (a :: text :: rest) =
      (parse switches mixed rest).map (Parsed.ofGiven (given ++ [(key, .text text)])).append := by
  simp only [parse, if_neg h.word, h.option, if_true, h.read]
  cases parse switches mixed rest <;>
    simp [Except.map, Parsed.ofGiven, Parsed.append, bind, Except.bind, pure, Except.pure]

theorem Occurrence.parse_append (hw : WellNamed switches) (h : Occurrence switches key text flags words) :
    parse switches mixed (words ++ rest) =
      (parse switches mixed rest).map (Parsed.ofGiven (flags ++ [(key, .text text)])).append := by
  rcases (occurrence_iff hw).mp h with ⟨a, rfl, hread⟩ | ⟨a, rfl, hread⟩
  · exact parse_wanted mixed rest hread text
  · exact parse_flags mixed rest hread

end

/-- After these words the next one is read for itself, as no option waits for its text and no double hyphen
has come. After a word that is wrong it makes no difference what comes. -/
inductive Ready (switches : List (Switch κ)) : List String → Prop where
  | start : Ready switches []
  | flags {a : String} {given : List (κ × Given)} {rest : List String}
      (h : ReadAs switches a given none) (hrest : Ready switches rest) : Ready switches (a :: rest)
  | wanted {a text : String} {given : List (κ × Given)} {key : κ} {rest : List String}
      (h : ReadAs switches a given (some key)) (hrest : Ready switches rest) :
      Ready switches (a :: text :: rest)
  | other {a : String} {rest : List String} (hword : a ≠ "--") (hoption : isOption a = false)
      (hrest : Ready switches rest) : Ready switches (a :: rest)
  | wrong {a : String} {m : Misuse} {rest : List String} (hword : a ≠ "--")
      (hoption : isOption a = true) (hread : readArgument switches a = .error m) :
      Ready switches (a :: rest)

theorem map_then_append {x y : Except Misuse (Parsed κ)} {f : Parsed κ → Parsed κ}
    (hf : ∀ p q, (f p).append q = f (p.append q)) :
    (do let p ← x.map f; let q ← y; return p.append q) =
      (do let p ← x; let q ← y; return p.append q : Except Misuse (Parsed κ)).map f := by
  cases x with
  | error m => rfl
  | ok p =>
    cases y with
    | error m => rfl
    | ok q => exact congrArg Except.ok (hf p q)

theorem Ready.parse_append {before : List String} (h : Ready switches before) (after : List String) :
    parse switches true (before ++ after) = (do
      let p ← parse switches true before
      let q ← parse switches true after
      return p.append q) := by
  induction h with
  | start =>
    rw [List.nil_append]
    cases parse switches true after <;> rfl
  | flags h _ ih =>
    rw [List.cons_append, parse_flags true _ h, parse_flags true _ h, ih,
      map_then_append (Parsed.append_assoc _)]
  | wanted h _ ih =>
    rw [List.cons_append, List.cons_append, parse_wanted true _ h, parse_wanted true _ h, ih,
      map_then_append (Parsed.append_assoc _)]
  | @other a rest hword hoption _ ih =>
    have hother (words : List String) : parse switches true (a :: words) =
        (parse switches true words).map fun p => { p with extra := a :: p.extra } := by
      simp only [parse, if_neg hword, hoption, if_true]
      rfl
    rw [List.cons_append, hother, hother, ih, map_then_append fun _ _ => rfl]
  | wrong hword hoption hread =>
    -- Nothing behind the wrong word is looked at.
    simp only [List.cons_append, parse, if_neg hword, hoption, hread]
    rfl

theorem parse_of_occurrence (hw : WellNamed switches) {before : List String}
    (hbefore : Ready switches before) (h : Occurrence switches key text flags words)
    (after : List String) :
    parse switches true (before ++ words ++ after) = (do
      let p ← parse switches true before
      let q ← parse switches true after
      return p.append ((Parsed.ofGiven (flags ++ [(key, .text text)])).append q)) := by
  rw [List.append_assoc, hbefore.parse_append, h.parse_append true after hw]
  cases parse switches true before with
  | error m => rfl
  | ok p => cases parse switches true after <;> rfl

end Switch

end AsmLens.CommandLine
