import AsmLens.Proofs.DocumentTables
import AsmLens.Proofs.FieldReading
import AsmLens.Proofs.LayeredPaths
import AsmLens.Proofs.OptionsResolution
import AsmLens.Session.Settings
import Mathlib

namespace AsmLens

namespace Value

inductive Alike : Value → Value → Prop where
  | refl (v : Value) : Alike v v
  | tables (es es' : List (String × Value)) : Alike (.table es) (.table es')

theorem laidOver_alike (old : Option Value) (v : Value) : Alike (laidOver old v) v := by
  cases hv : v.isTable with
  | false =>
    rw [laidOver_of_plain hv]
    exact .refl v
  | true =>
    obtain ⟨es, rfl⟩ := isTable_eq_true_iff.mp hv
    obtain ⟨es', hes⟩ := isTable_eq_true_iff.mp ((isTable_laidOver old (.table es)).trans hv)
    rw [hes]
    exact .tables es' es

theorem Alike.eq_text_iff {v w : Value} (h : Alike v w) {s : String} :
    v = .text s ↔ w = .text s := by
  cases h with
  | refl => exact Iff.rfl
  | tables => exact ⟨fun h => (nomatch h), fun h => (nomatch h)⟩

theorem Alike.eq_texts_iff {v w : Value} (h : Alike v w) {xs : List String} :
    v = Options.texts xs ↔ w = Options.texts xs := by
  cases h with
  | refl => exact Iff.rfl
  | tables => exact ⟨fun h => (nomatch h), fun h => (nomatch h)⟩

end Value

theorem Tools.ofEntries_iff {es : Entries} {t : Tools} :
    (Tools.ofEntries es).problems = [] ∧ (Tools.ofEntries es).value = t ↔
      (Assoc.get? es "compiler").getD (.text "clang") = .text t.compiler ∧
      (Assoc.get? es "encoder").getD (Options.texts ["clang", "-cc1as", "-show-encoding"]) =
        Options.texts t.encoder ∧
      (Assoc.get? es "demangler").getD (Options.texts ["c++filt"]) = Options.texts t.demangler ∧
      (Assoc.get? es "default_editor").getD (.text "/usr/bin/nano") = .text t.defaultEditor := by
  rw [← Entries.readText_iff, ← Entries.readTexts_iff .notList,
    ← Entries.readTexts_iff .notList, ← Entries.readText_iff]
  constructor
  · rintro ⟨h, rfl⟩
    simp only [ofEntries, List.append_eq_nil_iff] at h
    obtain ⟨⟨⟨hcompiler, hencoder⟩, hdemangler⟩, heditor⟩ := h
    exact ⟨⟨hcompiler, rfl⟩, ⟨hencoder, rfl⟩, ⟨hdemangler, rfl⟩, ⟨heditor, rfl⟩⟩
  · rintro ⟨⟨hcompiler, hc⟩, ⟨hencoder, he⟩, ⟨hdemangler, hd⟩, ⟨heditor, hed⟩⟩
    constructor
    · simp only [ofEntries, List.append_eq_nil_iff]
      exact ⟨⟨⟨hcompiler, hencoder⟩, hdemangler⟩, heditor⟩
    · simp only [ofEntries, standard, hc, he, hd, hed]

namespace Settings

/-- What a path holds in the upper layer, or else in the lower one, or else what is built in. -/
def picked (lower upper : Entries) (path : List String) (builtin : Value) : Value :=
  (((Value.table upper).at? path).or ((Value.table lower).at? path)).getD builtin

structure Picks (lower upper : Entries) (t : Tools) (verbosity : String) : Prop where
  compiler : picked lower upper ["tools", "compiler"] (.text "clang") = .text t.compiler
  encoder : picked lower upper ["tools", "encoder"]
    (Options.texts ["clang", "-cc1as", "-show-encoding"]) = Options.texts t.encoder
  demangler : picked lower upper ["tools", "demangler"] (Options.texts ["c++filt"]) =
    Options.texts t.demangler
  defaultEditor : picked lower upper ["tools", "default_editor"] (.text "/usr/bin/nano") =
    .text t.defaultEditor
  verbosity : picked lower upper ["output", "verbosity"] (.text "normal") = .text verbosity

def TableAt (es : Entries) (name : String) : Prop :=
  ∀ v, Assoc.get? es name = some v → ∃ sub, v = .table sub

def sectionOf (es : Entries) (name : String) : Entries :=
  match Assoc.get? es name with
  | some (.table sub) => sub
  | _ => []

theorem at?_pair (es : Entries) (name field : String) :
    (Value.table es).at? [name, field] =
      match Assoc.get? es name with
      | some (.table sub) => Assoc.get? sub field
      | _ => none := by
  rw [Value.at?]
  cases Assoc.get? es name with
  | none => rfl
  | some v =>
    cases v with
    | table sub =>
      dsimp only
      rw [Value.at?]
      cases Assoc.get? sub field with
      | none => rfl
      | some w => rfl
    | _ => rfl

theorem get?_sectionOf (es : Entries) (name field : String) :
    Assoc.get? (sectionOf es name) field = (Value.table es).at? [name, field] := by
  rw [at?_pair, sectionOf]
  split <;> rfl

theorem not_cutsOff {es : Entries} {name : String} (h : TableAt es name) (field : String) :
    ¬(Value.table es).CutsOff [name, field] := by
  intro hcut
  obtain ⟨v, hv, hcut⟩ := Value.cutsOff_cons_iff.mp hcut
  obtain ⟨sub, rfl⟩ := h v hv
  obtain ⟨w, -, hcut⟩ := Value.cutsOff_cons_iff.mp hcut
  exact Value.not_cutsOff_nil w hcut

theorem alike_at?_merge {lower upper : Entries} (hupper : upper.Distinct) {name : String}
    (hu : TableAt upper name) (field : String) (builtin : Value) :
    Value.Alike (((Value.table (Entries.merge lower upper)).at? [name, field]).getD builtin)
      (picked lower upper [name, field] builtin) := by
  have hdistinct : Value.Distinct (.table upper) := Entries.distinct_iff.mpr hupper
  rw [← Value.laidOver_table, picked]
  cases hfield : (Value.table upper).at? [name, field] with
  | none =>
    rw [Value.at?_laidOver_of_none hdistinct hfield (not_cutsOff hu field), Option.none_or]
    exact .refl _
  | some v =>
    rw [Value.at?_laidOver_of_some hdistinct hfield]
    exact Value.laidOver_alike _ v

theorem tableAt_merge {lower upper : Entries} (hupper : upper.Distinct) {name : String}
    (hl : TableAt lower name) (hu : TableAt upper name) :
    TableAt (Entries.merge lower upper) name := by
  intro v hv
  rw [Entries.get?_merge hupper.keys] at hv
  cases hw : Assoc.get? upper name with
  | none =>
    rw [hw] at hv
    exact hl v hv
  | some w =>
    obtain ⟨sub, rfl⟩ := hu w hw
    rw [hw] at hv
    rw [← Option.some.inj hv]
    exact Value.isTable_eq_true_iff.mp (Value.isTable_laidOver _ (.table sub))

theorem part_eq {α : Type} (subject : Subject) {es : Entries} {name : String} (fallback : α)
    (reader : Value → Reading α) (hes : TableAt es name)
    (hempty : reader (.table []) = { value := fallback, problems := [] }) :
    part subject es name fallback reader =
      (reader (.table (sectionOf es name))).toExcept.mapError (.invalid subject) := by
  rw [part, sectionOf]
  cases hv : Assoc.get? es name with
  | none =>
    simp only [hempty]
    rfl
  | some v =>
    obtain ⟨sub, rfl⟩ := hes v hv
    rfl

theorem mapError_toExcept_cases {α : Type} (r : Reading α) (subject : Subject) :
    (∃ a, r.problems = [] ∧ r.value = a ∧ r.toExcept.mapError (Fault.invalid subject) = .ok a) ∨
      (∀ a, ¬(r.problems = [] ∧ r.value = a)) ∧
        ∃ problems,
          r.toExcept.mapError (Fault.invalid subject) = .error (.invalid subject problems) := by
  by_cases h : r.problems = []
  · refine .inl ⟨r.value, h, rfl, ?_⟩
    rw [Options.mapError_toExcept_eq_ok_iff]
    exact ⟨by rw [Reading.isClean, h]; rfl, rfl⟩
  · refine .inr ⟨fun a ha => h ha.1, r.problems, ?_⟩
    rw [Reading.toExcept, Reading.isClean, if_neg (by simpa using h)]
    rfl

section

variable {lower upper : Entries} (hupper : upper.Distinct) (htools : TableAt lower "tools")
  (htools' : TableAt upper "tools") (houtput : TableAt lower "output")
  (houtput' : TableAt upper "output")
include hupper htools' houtput'

theorem picks_iff (t : Tools) (v : String) :
    Picks lower upper t v ↔
      ((Tools.ofEntries (sectionOf (Entries.merge lower upper) "tools")).problems = [] ∧
        (Tools.ofEntries (sectionOf (Entries.merge lower upper) "tools")).value = t) ∧
      (Entries.readText (sectionOf (Entries.merge lower upper) "output") "verbosity"
          defaultVerbosity).problems = [] ∧
        (Entries.readText (sectionOf (Entries.merge lower upper) "output") "verbosity"
          defaultVerbosity).value = v := by
  have htext (name field builtin s : String) (hu : TableAt upper name) :
      (Assoc.get? (sectionOf (Entries.merge lower upper) name) field).getD (.text builtin) = .text s ↔
        picked lower upper [name, field] (.text builtin) = .text s := by
    rw [get?_sectionOf]
    exact (alike_at?_merge hupper hu field _).eq_text_iff
  have htexts (field : String) (builtin xs : List String) :
      (Assoc.get? (sectionOf (Entries.merge lower upper) "tools") field).getD
          (Options.texts builtin) = Options.texts xs ↔
        picked lower upper ["tools", field] (Options.texts builtin) = Options.texts xs := by
    rw [get?_sectionOf]
    exact (alike_at?_merge hupper htools' field _).eq_texts_iff
  rw [Tools.ofEntries_iff, Entries.readText_iff, htext _ _ _ _ htools', htexts, htexts,
    htext _ _ _ _ htools', defaultVerbosity, htext _ _ _ _ houtput']
  constructor
  · intro h
    exact ⟨⟨h.compiler, h.encoder, h.demangler, h.defaultEditor⟩, h.verbosity⟩
  · rintro ⟨⟨hc, he, hd, hed⟩, hv⟩
    exact ⟨hc, he, hd, hed, hv⟩

include htools houtput

theorem ofDocument_cases (compiler : Option String) :
    (∃ t v, Picks lower upper t v ∧ ofDocument compiler (Entries.merge lower upper) =
        .ok { tools := chooseCompiler compiler t, verbosity := v, raw := Entries.merge lower upper }) ∨
      (¬∃ t v, Picks lower upper t v) ∧
        ∃ subject problems, (subject = .tools ∨ subject = .output) ∧
          ofDocument compiler (Entries.merge lower upper) = .error (.invalid subject problems) := by
  have hpicks : ∀ t v, Picks lower upper t v ↔ _ := picks_iff hupper htools' houtput'
  have hpartTools := part_eq .tools Tools.standard Tools.ofValue
    (tableAt_merge hupper htools htools') rfl
  have hpartOutput := part_eq .output defaultVerbosity readOutput
    (tableAt_merge hupper houtput houtput') rfl
  unfold ofDocument
  rw [hpartTools, hpartOutput]
  rcases mapError_toExcept_cases (Tools.ofValue
      (.table (sectionOf (Entries.merge lower upper) "tools"))) .tools with
    ⟨t, hproblems, hvalue, ht⟩ | ⟨hno, problems, ht⟩
  · rcases mapError_toExcept_cases (readOutput
        (.table (sectionOf (Entries.merge lower upper) "output"))) .output with
      ⟨v, hvproblems, hvvalue, hv⟩ | ⟨hno, problems, hv⟩
    · refine .inl ⟨t, v, (hpicks t v).mpr ⟨⟨hproblems, hvalue⟩, hvproblems, hvvalue⟩, ?_⟩
      rw [ht, hv]
      rfl
    · refine .inr ⟨fun ⟨t', v', h⟩ => hno v' ((hpicks t' v').mp h).2, .output, problems, .inr rfl, ?_⟩
      rw [ht, hv]
      rfl
  · refine .inr ⟨fun ⟨t', v', h⟩ => hno t' ((hpicks t' v').mp h).1, .tools, problems, .inl rfl, ?_⟩
    rw [ht]
    rfl

end

theorem Picks.unique {lower upper : Entries} {t t' : Tools} {v v' : String}
    (h : Picks lower upper t v) (h' : Picks lower upper t' v') : t = t' ∧ v = v' := by
  have htext {a b : String} {w : Value} (ha : w = .text a) (hb : w = .text b) : a = b :=
    Value.text.inj (ha.symm.trans hb)
  have htexts {a b : List String} {w : Value} (ha : w = Options.texts a) (hb : w = Options.texts b) :
      a = b :=
    (List.map_inj_right fun _ _ h => Value.text.inj h).mp (Value.array.inj (ha.symm.trans hb))
  cases t
  cases t'
  simp only [Tools.mk.injEq]
  exact ⟨⟨htext h.compiler h'.compiler, htexts h.encoder h'.encoder,
    htexts h.demangler h'.demangler, htext h.defaultEditor h'.defaultEditor⟩,
    htext h.verbosity h'.verbosity⟩

theorem foldl_layers {lower? upper? : Option Entries}
    (h : ∀ es, lower? = some es → es.Distinct) (h' : ∀ es, upper? = some es → es.Distinct) :
    (lower?.toList ++ upper?.toList).foldl Entries.merge [] =
      Entries.merge (lower?.getD []) (upper?.getD []) := by
  cases lower? with
  | none => cases upper? <;> rfl
  | some es =>
    cases upper? <;> simp [Entries.merge_nil_left (h es rfl).keys, Entries.merge]

end Settings

namespace Session

/-- The document that is laid over the default one: the one that is named, if it is there, and the
user's own when none is named. -/
inductive Chosen (s : Session) : Option String → Option Bytes → Prop where
  | user : Chosen s none s.host.userDocument
  | named {path : String} {bs : Bytes} (h : s.files.find (tidyPath path) = .ok (.file bs)) :
      Chosen s (some path) (some bs)
  | missing {path : String} (h : s.files.isThere (tidyPath path) = .ok false) :
      Chosen s (some path) none

inductive Holds : Option Bytes → Option Entries → Prop where
  | none : Holds none none
  | document {bs : Bytes} {es : Entries} (h : Settings.readDocument bs = .ok es) :
      Holds (some bs) (some es)

theorem Holds.distinct {bytes? : Option Bytes} {es? : Option Entries} (h : Holds bytes? es?) :
    ∀ es, es? = some es → es.Distinct := by
  intro es hes
  cases h with
  | none => contradiction
  | @document bs es' h =>
    cases hes
    unfold Settings.readDocument at h
    split at h
    · contradiction
    · split at h
      · rename_i cs hcs
        cases h
        exact Toml.distinct_of_parse hcs
      · contradiction
      · contradiction

theorem layer_eq {bytes? : Option Bytes} {es? : Option Entries} (h : Holds bytes? es?) (s : Session) :
    layer bytes? s = .ok es?.toList s := by
  cases h with
  | none => rfl
  | @document bs es h =>
    rw [layer, h]
    rfl

theorem overlay_eq {s : Session} {path : Option String} {bytes? : Option Bytes}
    (h : Chosen s path bytes?) : overlay path s = .ok bytes? s := by
  cases h with
  | user => rfl
  | @named path bs h =>
    have hthere : s.files.isThere (tidyPath path) = .ok true := by
      rw [Files.isThere, h]
    have hread : s.files.read (tidyPath path) = .ok bs := by
      rw [Files.read, h]
      rfl
    simp only [overlay, bind, EStateM.bind, get, getThe, MonadStateOf.get, EStateM.get, hthere,
      hread, lift, pure, EStateM.pure, if_true]
  | @missing path h =>
    simp only [overlay, bind, EStateM.bind, get, getThe, MonadStateOf.get, EStateM.get, h,
      lift, pure, EStateM.pure]
    rfl

theorem loadSettings_eq {path : Option String} {s s' : Session} {bytes? : Option Bytes}
    {lower? upper? : Option Entries} (hvariables : loadVariables s = .ok () s')
    (hlower : Holds s'.host.defaultDocument lower?) (hchosen : Chosen s' path bytes?)
    (hupper : Holds bytes? upper?) :
    loadSettings path s =
      lift (Settings.ofDocument (Assoc.get? s'.environ "ASMCC_COMPILER")
        (Entries.merge (lower?.getD []) (upper?.getD []))) s' := by
  rw [← Settings.foldl_layers hlower.distinct hupper.distinct]
  simp only [loadSettings, bind, EStateM.bind, hvariables, get, getThe, MonadStateOf.get,
    EStateM.get, layer_eq hlower, overlay_eq hchosen, layer_eq hupper, Settings.ofLayers]

theorem loadSettings_layered (path : Option String) (s s' : Session) (bytes? : Option Bytes)
    (lower? upper? : Option Entries) (hvariables : loadVariables s = .ok () s')
    (hlower : Holds s'.host.defaultDocument lower?) (hchosen : Chosen s' path bytes?)
    (hupper : Holds bytes? upper?)
    (htables : ∀ es, es = lower?.getD [] ∨ es = upper?.getD [] →
      Settings.TableAt es "tools" ∧ Settings.TableAt es "output") :
    let lower := lower?.getD []
    let upper := upper?.getD []
    ((∃ settings t, loadSettings path s = .ok settings t) ↔
        ∃ t v, Settings.Picks lower upper t v) ∧
      ((¬∃ t v, Settings.Picks lower upper t v) →
        ∃ subject problems, (subject = .tools ∨ subject = .output) ∧
          loadSettings path s = .error (.invalid subject problems) s') ∧
      ∀ t v, Settings.Picks lower upper t v →
        loadSettings path s =
          .ok
            { tools := { t with
                compiler := ((Assoc.get? s'.environ "ASMCC_COMPILER").filter (· != "")).getD
                  t.compiler }
              verbosity := v
              raw := Entries.merge lower upper } s' := by
  intro lower upper
  have hdistinct : upper.Distinct := by
    cases hu : upper? with
    | none =>
      simp only [upper, hu]
      exact Entries.distinct_nil
    | some es =>
      simp only [upper, hu]
      exact hupper.distinct es hu
  have hchoose (asked : Option String) (t : Tools) : Settings.chooseCompiler asked t =
      { t with compiler := (asked.filter (· != "")).getD t.compiler } := by
    cases asked with
    | none => rfl
    | some c => by_cases hc : c = "" <;> simp [Settings.chooseCompiler, hc, Option.filter]
  obtain ⟨htools, houtput⟩ := htables lower (.inl rfl)
  obtain ⟨htools', houtput'⟩ := htables upper (.inr rfl)
  rw [loadSettings_eq hvariables hlower hchosen hupper]
  rcases Settings.ofDocument_cases hdistinct htools htools' houtput houtput'
      (Assoc.get? s'.environ "ASMCC_COMPILER") with
    ⟨t, v, hpicks, hok⟩ | ⟨hno, subject, problems, hsubject, herror⟩
  · rw [hok]
    refine ⟨⟨fun _ => ⟨t, v, hpicks⟩, fun _ => ⟨_, s', rfl⟩⟩, fun hno => absurd ⟨t, v, hpicks⟩ hno, ?_⟩
    intro t' v' hpicks'
    obtain ⟨rfl, rfl⟩ := hpicks.unique hpicks'
    rw [hchoose]
    rfl
  · rw [herror]
    refine ⟨⟨?_, fun hpicks => absurd hpicks hno⟩, fun _ => ⟨subject, problems, hsubject, rfl⟩, ?_⟩
    · rintro ⟨settings, t, h⟩
      contradiction
    · intro t v hpicks
      exact absurd ⟨t, v, hpicks⟩ hno

def bare : Session :=
  { host := {
      directory := "/work"
      system := "Linux"
      platform := "linux"
      interpreter := "none"
      programs := []
      versions := []
      defaultDocument := none
      userDocument := none
      variableFile := none
      console := { width := 80, names := .plain }
      scratch := "snippet" }
    environ := []
    files := []
    snippet := none
    launches := []
    edits := []
    output := ""
    errors := ""
    events := []
    log := []
    logger := .fresh }

def lowerDocument : Bytes := Text.utf8 "[tools]\ncompiler = \"cc\"\nencoder = [\"one\"]\n"

def lowerEntries : Entries :=
  [("tools", .table [("compiler", .text "cc"), ("encoder", Options.texts ["one"])])]

def upperDocument : Bytes := Text.utf8 "[output]\nverbosity = \"quiet\"\n[tools]\nencoder = [\"two\"]\n"

def upperEntries : Entries :=
  [("output", .table [("verbosity", .text "quiet")]),
    ("tools", .table [("encoder", Options.texts ["two"])])]

def layeredSession : Session :=
  { bare with
    host := { bare.host with defaultDocument := some lowerDocument }
    environ := [("ASMCC_COMPILER", "clang-19")]
    files := [(["named.toml"], .file upperDocument)] }

theorem eq_ok_of_toOption {ε α : Type} {x : Except ε α} {a : α} (h : x.toOption = some a) :
    x = .ok a := by
  cases x with
  | ok b => exact congrArg Except.ok (Option.some.inj h)
  | error e => contradiction

theorem loadSettings_layered_named :
    ∃ settings, loadSettings (some "named.toml") layeredSession = .ok settings layeredSession ∧
      settings.tools.compiler = "clang-19" ∧ settings.tools.encoder = ["two"] ∧
      settings.tools.demangler = ["c++filt"] ∧ settings.verbosity = "quiet" ∧
      settings.raw = Entries.merge lowerEntries upperEntries := by
  have hvariables : loadVariables layeredSession = .ok () layeredSession := by
    have hfile : layeredSession.variableFile? = none := by
      rw [variableFile?, show Variables.isOff layeredSession.environ = false by decide +kernel]
      rfl
    simp only [loadVariables, bind, EStateM.bind, get, getThe, MonadStateOf.get, EStateM.get, hfile]
    rfl
  have hlower : Settings.readDocument lowerDocument = .ok lowerEntries := by cbv
  have hupper : Settings.readDocument upperDocument = .ok upperEntries := by cbv
  have hfound : layeredSession.files.find (tidyPath "named.toml") = .ok (.file upperDocument) :=
    eq_ok_of_toOption (by decide +kernel)
  have htables : ∀ es, es = lowerEntries ∨ es = upperEntries →
      Settings.TableAt es "tools" ∧ Settings.TableAt es "output" := by
    rintro es (rfl | rfl)
    · constructor
      · intro v hv
        simp [lowerEntries, Assoc.get?] at hv
        exact ⟨_, hv.symm⟩
      · intro v hv
        simp [lowerEntries, Assoc.get?] at hv
    · constructor
      · intro v hv
        simp [upperEntries, Assoc.get?] at hv
        exact ⟨_, hv.symm⟩
      · intro v hv
        simp [upperEntries, Assoc.get?] at hv
        exact ⟨_, hv.symm⟩
  have hpicks : Settings.Picks lowerEntries upperEntries
      { Tools.standard with compiler := "cc", encoder := ["two"] } "quiet" := by
    constructor <;>
      simp [Settings.picked, Settings.at?_pair, lowerEntries, upperEntries, Assoc.get?,
        Options.texts, Tools.standard]
  have hload := (loadSettings_layered (some "named.toml") layeredSession layeredSession
    (some upperDocument) (some lowerEntries) (some upperEntries) hvariables (.document hlower)
    (.named hfound) (.document hupper) htables).2.2 _ _ hpicks
  refine ⟨_, hload, ?_, rfl, rfl, rfl, rfl⟩
  decide +kernel

end Session

end AsmLens
