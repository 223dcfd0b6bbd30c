import AsmLens.Proofs.OptionsHistory
import AsmLens.Proofs.RetryTrace
import AsmLens.Proofs.SessionFrames
import AsmLens.Program

namespace AsmLens

theorem Outcome.succeeded_of_unwrap {outcome : Outcome} {bs : Bytes}
    (h : outcome.unwrap = .ok bs) : outcome.succeeded = true ∧ outcome.output = some bs := by
  unfold unwrap at h
  split at h
  · rename_i hp ho
    cases h
    exact ⟨by rw [succeeded, hp]; rfl, ho⟩
  · contradiction

namespace Desk

variable {σ : Type} {d : Desk σ} {path : String} {o : Options}

/-- Whatever the loop does to this file is in the relation. -/
structure KeepsTo (d : Desk σ) (path : String) (o : Options) (R : σ → σ → Prop) : Prop where
  edit : Leaves R (d.edit path)
  attempt : Leaves R (d.attempt path o)
  confirm : ∀ reply, Leaves R (d.confirm reply)
  note : ∀ r, Leaves R (d.note r)

section

variable {R : σ → σ → Prop} [IsPreorder σ R]

theorem KeepsTo.after_attempt (h : d.KeepsTo path o R) (n : Nat) (replies : List (Option String))
    (s : σ) : R (finalState (d.attempt path o s)) (finalState (d.rounds path o n replies s)) := by
  unfold Desk.rounds
  refine Leaves.after (fun r => ?_) s
  split
  · exact .pure _
  · refine .bind (h.confirm _) fun yes => ?_
    split
    · cases replies with
      | nil => exact .throw _
      | cons reply rest =>
        -- Only a reply leads to one more round.
        have hrest : Leaves R (d.rounds path o (n + 1) rest) := fun t =>
          IsTrans.trans _ _ _ (h.attempt t) (h.after_attempt (n + 1) rest t)
        exact .bind (h.note _) fun _ => .bind h.edit fun _ => hrest
    · exact .bind (h.note _) fun _ => .pure _

theorem KeepsTo.rounds (h : d.KeepsTo path o R) (n : Nat) (replies : List (Option String)) :
    Leaves R (d.rounds path o n replies) := fun s =>
  IsTrans.trans _ _ _ (h.attempt s) (h.after_attempt n replies s)

theorem KeepsTo.run (h : d.KeepsTo path o R) (startEditing : Bool)
    (replies : List (Option String)) : Leaves R (d.run path o startEditing replies) := by
  unfold Desk.run
  cases startEditing with
  | false => exact h.rounds 1 replies
  | true => exact .bind h.edit fun _ => h.rounds 1 replies

theorem KeepsTo.after_edit (h : d.KeepsTo path o R) (replies : List (Option String)) (s : σ) :
    R (finalState (d.edit path s)) (finalState (d.run path o true replies s)) :=
  Leaves.after (fun _ => h.rounds 1 replies) s

theorem Returns.last (hd : d.KeepsTo path o R) {n : Nat} {replies : List (Option String)} {s t : σ}
    {outcome : Outcome} (h : Returns d path o n replies s outcome t) {bs : Bytes}
    (hbs : outcome.unwrap = .ok bs) :
    ∃ u r, R s u ∧ d.attempt path o u = .ok r t ∧ r.success = true ∧ r.output = bs := by
  induction h with
  | succeeded ha hr => exact ⟨_, _, Std.Refl.refl _, ha, hr, Except.ok.inj hbs⟩
  | declined ha hr hc hn => contradiction
  | again ha hr hc hn he h ih =>
    obtain ⟨u, r, hu, hlast⟩ := ih hbs
    have hfirst := IsTrans.trans _ _ _ (hd.attempt.of_ok ha) ((hd.confirm _).of_ok hc)
    have hback := IsTrans.trans _ _ _ ((hd.note _).of_ok hn) (hd.edit.of_ok he)
    exact ⟨u, r, IsTrans.trans _ _ _ (IsTrans.trans _ _ _ hfirst hback) hu, hlast⟩

theorem run_last (hd : d.KeepsTo path o R) {startEditing : Bool} {replies : List (Option String)}
    {s t : σ} {outcome : Outcome} (h : d.run path o startEditing replies s = .ok outcome t)
    {bs : Bytes} (hbs : outcome.unwrap = .ok bs) :
    ∃ u r, R s u ∧ d.attempt path o u = .ok r t ∧ r.success = true ∧ r.output = bs := by
  unfold Desk.run at h
  cases startEditing with
  | false => exact (returns_of_rounds replies h).last hd hbs
  | true =>
    obtain ⟨⟨⟩, v, he, h⟩ := bind_eq_ok_iff.mp h
    obtain ⟨u, r, hu, hlast⟩ := (returns_of_rounds replies h).last hd hbs
    exact ⟨u, r, IsTrans.trans _ _ _ (hd.edit.of_ok he) hu, hlast⟩

end

/-- From the `n`-th attempt on, the loop comes to ask the user, who has this to say. -/
inductive Asks (d : Desk σ) (path : String) (o : Options) :
    Nat → List (Option String) → σ → Option String → Prop where
  | now {n replies s t r} (ha : d.attempt path o s = .ok r t) (hr : r.success = false) :
      Asks d path o n replies s (replies.headD none)
  | later {n reply rest s t u v w r asked} (ha : d.attempt path o s = .ok r t)
      (hr : r.success = false) (hc : d.confirm reply t = .ok true u)
      (hn : d.note (attemptNote n r.failure? "returning to editor") u = .ok () v)
      (he : d.edit path v = .ok () w) (h : Asks d path o (n + 1) rest w asked) :
      Asks d path o n (reply :: rest) s asked

def AsksFromStart (d : Desk σ) (path : String) (o : Options) (startEditing : Bool)
    (replies : List (Option String)) (s : σ) (reply : Option String) : Prop :=
  ∃ t, (if startEditing then d.edit path s = .ok () t else t = s) ∧ d.Asks path o 1 replies t reply

theorem Asks.returns {n : Nat} {replies : List (Option String)} {s : σ} {reply : Option String}
    (h : d.Asks path o n replies s reply) (hno : ∀ s, ∃ t, d.confirm reply s = .ok false t)
    (hnote : ∀ r s, ∃ t, d.note r s = .ok () t) :
    ∃ outcome t, Returns d path o n replies s outcome t ∧ outcome.unwrap = .error .declined := by
  induction h with
  | @now n replies s t r ha hr =>
    obtain ⟨u, hc⟩ := hno t
    obtain ⟨v, hn⟩ := hnote (attemptNote n r.failure? "retry declined") u
    exact ⟨_, v, .declined ha hr hc hn, rfl⟩
  | later ha hr hc hn he h ih =>
    obtain ⟨outcome, t, hreturns, hout⟩ := ih hno
    exact ⟨outcome, t, .again ha hr hc hn he hreturns, hout⟩

theorem run_of_asks {startEditing : Bool} {replies : List (Option String)} {s : σ}
    {reply : Option String} (h : d.AsksFromStart path o startEditing replies s reply)
    (hno : ∀ s, ∃ t, d.confirm reply s = .ok false t) (hnote : ∀ r s, ∃ t, d.note r s = .ok () t) :
    ∃ outcome t, d.run path o startEditing replies s = .ok outcome t ∧
      outcome.unwrap = .error .declined := by
  obtain ⟨u, hu, hasks⟩ := h
  obtain ⟨outcome, t, hreturns, hout⟩ := hasks.returns hno hnote
  refine ⟨outcome, t, ?_, hout⟩
  have hrounds := rounds_of_returns hreturns
  cases startEditing with
  | false =>
    obtain rfl : u = s := hu
    exact hrounds
  | true => exact bind_eq_ok_iff.mpr ⟨(), u, hu, hrounds⟩

end Desk

namespace Session

theorem lift_eq_ok_iff {α : Type} {x : Except Fault α} {a : α} {s t : Session} :
    lift x s = .ok a t ↔ x = .ok a ∧ t = s := by
  cases x with
  | ok b =>
    rw [lift, Desk.pure_eq_ok_iff, Except.ok.injEq, eq_comm]
  | error f =>
    constructor
    · intro h
      contradiction
    · rintro ⟨h, -⟩
      contradiction

theorem quiet_of_execute_eq_ok {p : Pipeline} {s t : Session} {r : Pipeline.Result}
    (h : execute p s = .ok r t) :
    (p.run s.launches).outcome = .ok r ∧
      Quiet { s with
        launches := (p.run s.launches).launches
        events := s.events ++ (p.run s.launches).starts.map s.runEvent } t := by
  obtain ⟨⟨⟩, v, hnotes, hlift⟩ := Desk.bind_eq_ok_iff.mp (show (do
      notes (p.run s.launches).log
      lift (p.run s.launches).outcome : Act Pipeline.Result) _ = .ok r t from h)
  obtain ⟨houtcome, rfl⟩ := lift_eq_ok_iff.mp hlift
  exact ⟨houtcome, (quiet_ignoresLog.notes _).of_ok hnotes⟩

theorem of_execute_eq_ok {p : Pipeline} {s t : Session} {r : Pipeline.Result}
    (h : execute p s = .ok r t) :
    (p.run s.launches).outcome = .ok r ∧
      t.started = s.started + (p.run s.launches).starts.length := by
  obtain ⟨houtcome, hquiet⟩ := quiet_of_execute_eq_ok h
  refine ⟨houtcome, ?_⟩
  rw [hquiet.started]
  simp only [started, List.countP_append, countP_runEvent]

theorem createSnippet_eq (text ending : String) (s : Session) :
    createSnippet text ending s =
      match s.files.writeText (s.host.scratch ++ ending) text with
      | .error f => .error f s
      | .ok fs =>
        .ok (s.host.scratch ++ ending)
          { s with files := fs, snippet := some (s.host.scratch ++ ending) } := by
  simp only [createSnippet, writeText, bind, EStateM.bind, get, getThe, MonadStateOf.get,
    EStateM.get]
  cases s.files.writeText (s.host.scratch ++ ending) text <;> rfl

theorem createSnippet_eq_ok_iff {text ending path : String} {s t : Session} :
    createSnippet text ending s = .ok path t ↔
      path = s.host.scratch ++ ending ∧
        ∃ fs, s.files.writeText path text = .ok fs ∧ t = { s with files := fs, snippet := some path } := by
  rw [createSnippet_eq]
  cases h : s.files.writeText (s.host.scratch ++ ending) text with
  | error f =>
    constructor
    · intro h
      contradiction
    · rintro ⟨rfl, fs, hfs, -⟩
      rw [h] at hfs
      contradiction
  | ok fs =>
    constructor
    · intro h
      cases h
      exact ⟨rfl, fs, h, rfl⟩
    · rintro ⟨rfl, fs', hfs, rfl⟩
      rw [h] at hfs
      cases hfs
      rfl

theorem eq_of_createSnippet_error {text ending : String} {s t : Session} {f : Fault}
    (h : createSnippet text ending s = .error f t) : t = s := by
  rw [createSnippet_eq] at h
  split at h
  · cases h
    rfl
  · contradiction

def dropSnippet (path : String) (s : Session) : Session := { s with files := s.files.remove path }

def dropAfter {α : Type} (path : String) :
    EStateM.Result Fault Session α → EStateM.Result Fault Session α
  | .ok a s => .ok a (dropSnippet path s)
  | .error f s => .error f (dropSnippet path s)

theorem finalState_dropAfter {α : Type} (path : String) (r : EStateM.Result Fault Session α) :
    finalState (dropAfter path r) = dropSnippet path (finalState r) := by
  cases r <;> rfl

theorem closeSnippet_eq {path : String} {s : Session} (h : s.files.Writable path) :
    closeSnippet path s = .ok () (dropSnippet path s) := by
  obtain ⟨place, hlocate, hfolder⟩ := h
  have hfind := Files.find_of_locate hlocate
  cases hn : s.files.node? place with
  | none =>
    rw [hn] at hfind
    have hthere : s.files.isThere path = .ok false := by rw [Files.isThere, hfind]
    rw [dropSnippet, Files.remove_of_absent hlocate hn]
    simp only [closeSnippet, bind, EStateM.bind, get, getThe, MonadStateOf.get, EStateM.get, hthere]
    rfl
  | some n =>
    cases n with
    | folder => exact absurd hn hfolder
    | file content =>
      rw [hn] at hfind
      have hthere : s.files.isThere path = .ok true := by rw [Files.isThere, hfind]
      have hunlink : s.files.unlink path = .ok (s.files.remove path) := by
        rw [Files.unlink, hfind]
        rfl
      simp only [closeSnippet, bind, EStateM.bind, get, getThe, MonadStateOf.get, EStateM.get, hthere,
        lift, pure, EStateM.pure, if_true, hunlink]
      rfl

theorem writable_of_handled {text ending path : String} {s t u : Session}
    (h : createSnippet text ending s = .ok path t) (hu : Handled t u) : u.files.Writable path := by
  obtain ⟨-, fs, hfs, rfl⟩ := createSnippet_eq_ok_iff.mp h
  exact (Files.sameFolders_of_touched hu).writable (Files.writable_of_write hfs)

theorem withSnippet_eq {α : Type} {text ending path : String} {work : String → Act α}
    {s t : Session} (h : createSnippet text ending s = .ok path t)
    (hbody : Handled t (finalState (work path t))) :
    withSnippet text ending work s = dropAfter path (work path t) := by
  have hclose := closeSnippet_eq (writable_of_handled h hbody)
  simp only [withSnippet, bind, EStateM.bind, h]
  cases hwork : work path t with
  | ok a u =>
    rw [hwork] at hclose
    simp only [finalState] at hclose
    simp only [hclose]
    rfl
  | error f u =>
    rw [hwork] at hclose
    simp only [finalState] at hclose
    simp only [hclose]
    rfl

end Session

namespace CommandLine.CompileRequest

theorem askedLanguage_toEntries (r : CompileRequest) (dir : String) :
    Options.askedLanguage (r.toEntries dir) = .ok r.language := by
  have hgiven : Options.given? (r.toEntries dir) "language" = some (.text r.language.name) := by
    have hname : (Value.text r.language.name).isGiven = true := by
      cases r.language <;> rfl
    simp [Options.given?, toEntries, Assoc.get?, Option.filter, hname]
  simp only [Options.askedLanguage, hgiven, Language.ofName?_name]

theorem language_of_toOptions {r : CompileRequest} {dir : String} {o : Options}
    (h : r.toOptions dir = .ok o) : o.language = r.language := by
  obtain ⟨language, asked, hl, -, -, rfl⟩ :=
    Options.ofEntries_eq_ok_iff.mp (Options.mapError_eq_ok h)
  rw [askedLanguage_toEntries] at hl
  rw [Options.readFields_language, Except.ok.inj hl]

end CommandLine.CompileRequest
namespace Command

open CommandLine (CompileRequest)

variable {r : CompileRequest} {s : Session}

section

variable {R : Session → Session → Prop} [IsPreorder Session R]

theorem leaves_startText (h : Session.IgnoresLog R) (r : CompileRequest) (l : Language) :
    Leaves R (startText r l) := by
  unfold startText
  split
  · exact .bind .get fun _ => Session.leaves_lift _
  · exact h.selectTemplate l r.template

theorem leaves_confirm (h : Session.IgnoresLog R) (readable : Bool) (reply : Option String) :
    Leaves R (confirm readable reply) := by
  unfold confirm
  split
  · exact h.confirmAloud reply
  · exact .bind (h.printError _) fun _ => .throw _

theorem keepsTo_of_ignoresLog (h : Session.IgnoresLog R) {j : Job} {system path : String}
    {o : Options} (hedit : Leaves R (Session.editWith path (some j.editor)))
    (hattempt : Leaves R
      (Session.execute (Pipeline.ofOptions j.tools (isDarwin none system) o path))) (readable : Bool) :
    (desk j system readable).KeepsTo path o R where
  edit := hedit
  attempt := hattempt
  confirm := leaves_confirm h readable
  note := h.note

theorem leaves_deliver (hwrite : ∀ name text, Leaves R (Session.writeText name text))
    {editor : String} (hedit : ∀ name, Leaves R (Session.editWith name (some editor)))
    (hprint : ∀ text, Leaves R (Session.print text)) (r : CompileRequest) (path rendered : String) :
    Leaves R (deliver r path editor rendered) := by
  unfold deliver
  split
  · refine .bind (hwrite _ rendered) fun _ => ?_
    split
    · exact hedit _
    · exact .pure ()
  · exact hprint _

theorem leaves_finish (hwrite : ∀ name text, Leaves R (Session.writeText name text)) {j : Job}
    (hedit : ∀ name, Leaves R (Session.editWith name (some j.editor)))
    (hprint : ∀ text, Leaves R (Session.print text)) (r : CompileRequest) (path : String)
    (outcome : Outcome) : Leaves R (finish r j path outcome) := by
  unfold finish
  split
  · exact .pure 1
  · refine .bind .get fun _ => .bind (.bind .get fun _ => Session.leaves_lift _) fun _ => ?_
    exact .bind (leaves_deliver hwrite hedit hprint r path _) fun _ => .pure 0

end

theorem quiet_prepare (r : CompileRequest) : Leaves Session.Quiet (prepare r) := by
  refine .bind (Session.quiet_start r.config) fun settings => ?_
  refine .bind .get fun s => .bind (Session.leaves_lift _) fun o => ?_
  refine .bind (leaves_startText Session.quiet_ignoresLog r o.language) fun text => ?_
  exact .bind .get fun _ => .pure _

theorem keepsTo_desk (j : Job) (system : String) (readable : Bool) (path : String) (o : Options) :
    (desk j system readable).KeepsTo path o (Session.Writes path) :=
  keepsTo_of_ignoresLog Session.writes_ignoresLog (Session.writes_editWith _)
    (Session.writes_execute _) readable

theorem writes_loop (r : CompileRequest) (j : Job) (replies : Replies) (path : String) :
    Leaves (Session.Writes path) (loop r j replies path) :=
  .bind .get fun s => (keepsTo_desk j s.host.system replies.readable path j.options).run _ _

theorem handled_finish (r : CompileRequest) (j : Job) (path : String) (outcome : Outcome) :
    Leaves Session.Handled (finish r j path outcome) :=
  leaves_finish Session.handled_writeText (fun _ => Session.handled_editWith _ _)
    (fun _ => .modified fun _ => .of_files rfl) r path outcome

theorem handled_work (r : CompileRequest) (j : Job) (replies : Replies) (path : String) :
    Leaves Session.Handled (work r j replies path) := by
  refine .bind (.bind .get fun s => ?_) fun outcome => handled_finish r j path outcome
  have hdesk : (desk j s.host.system replies.readable).KeepsTo path j.options Session.Handled :=
    keepsTo_of_ignoresLog Session.handled_ignoresLog (Session.handled_editWith _ _)
      (Session.handled_execute _) replies.readable
  exact hdesk.run _ _

theorem language_of_prepare {j : Job} {t : Session} (h : prepare r s = .ok j t) :
    j.options.language = r.language := by
  unfold prepare at h
  obtain ⟨settings, u, -, h⟩ := Desk.bind_eq_ok_iff.mp h
  obtain ⟨v, w, hget, h⟩ := Desk.bind_eq_ok_iff.mp h
  obtain ⟨o, x, ho, h⟩ := Desk.bind_eq_ok_iff.mp h
  obtain ⟨text, y, -, h⟩ := Desk.bind_eq_ok_iff.mp h
  obtain ⟨z, z', -, h⟩ := Desk.bind_eq_ok_iff.mp h
  obtain ⟨rfl, -⟩ := Desk.pure_eq_ok_iff.mp h
  exact CompileRequest.language_of_toOptions (Session.lift_eq_ok_iff.mp ho).1

def Opens (r : CompileRequest) (s : Session) (j : Job) (path : String) (t : Session) : Prop :=
  ∃ u, prepare r s = .ok j u ∧
    Session.createSnippet j.text j.options.language.ending u = .ok path t

def Loops (r : CompileRequest) (replies : Replies) (s : Session) (j : Job)
    (path : String) (outcome : Outcome) (t : Session) : Prop :=
  ∃ u, Opens r s j path u ∧ loop r j replies path u = .ok outcome t

/-- The loop has succeeded with some code, and the snippet has been read once more. -/
def Renders (r : CompileRequest) (replies : Replies) (s : Session) (j : Job)
    (path source : String) (bs : Bytes) (t : Session) : Prop :=
  ∃ outcome, Loops r replies s j path outcome t ∧ outcome.unwrap = .ok bs ∧
    t.files.readText path = .ok source

structure Working (r : CompileRequest) (path : String) (s t : Session) : Prop where
  named : path = s.host.scratch ++ r.language.ending
  writes : Session.Writes path s t
  present : ∃ content, t.files.read path = .ok content

theorem Working.trans {path : String} {t u : Session} (h : Working r path s t)
    (h' : Session.Writes path t u) : Working r path s u where
  named := h.named
  writes := IsTrans.trans _ _ _ h.writes h'
  present := by
    obtain ⟨content, hread⟩ := h.present
    exact h'.files.read hread

theorem Opens.working {j : Job} {path : String} {t : Session} (h : Opens r s j path t) :
    Working r path s t := by
  obtain ⟨u, hp, hc⟩ := h
  obtain ⟨rfl, fs, hfs, rfl⟩ := Session.createSnippet_eq_ok_iff.mp hc
  have hquiet : Session.Quiet s u := (quiet_prepare r).of_ok hp
  refine ⟨by rw [hquiet.host, language_of_prepare hp], ?_, _, Files.read_of_write hfs⟩
  refine IsTrans.trans s u _ hquiet.writes ?_
  exact ⟨rfl, rfl, Files.written_of_write hfs, 0, rfl, rfl⟩

theorem Loops.working {replies : Replies} {j : Job} {path : String} {outcome : Outcome}
    {t : Session} (h : Loops r replies s j path outcome t) : Working r path s t := by
  obtain ⟨u, hopens, hloop⟩ := h
  exact hopens.working.trans ((writes_loop r j replies path).of_ok hloop)

theorem Renders.working {replies : Replies} {j : Job} {path source : String}
    {bs : Bytes} {t : Session} (h : Renders r replies s j path source bs t) :
    Working r path s t := by
  obtain ⟨outcome, hloops, -, -⟩ := h
  exact hloops.working

theorem Opens.compile_eq {replies : Replies} {j : Job} {path : String} {t : Session}
    (h : Opens r s j path t) : compile r replies s = Session.dropAfter path (work r j replies path t) := by
  obtain ⟨u, hp, hc⟩ := h
  simp only [compile, bind, EStateM.bind, hp]
  exact Session.withSnippet_eq hc (handled_work r j replies path t)

theorem Loops.compile_eq {replies : Replies} {j : Job} {path : String}
    {outcome : Outcome} {t : Session} (h : Loops r replies s j path outcome t) :
    compile r replies s = Session.dropAfter path (finish r j path outcome t) := by
  obtain ⟨u, hopens, hloop⟩ := h
  rw [hopens.compile_eq]
  simp only [work, bind, EStateM.bind, hloop]

theorem Loops.compile_of_declined {replies : Replies} {j : Job} {path : String}
    {outcome : Outcome} {t : Session} {f : Fault} (h : Loops r replies s j path outcome t)
    (hf : outcome.unwrap = .error f) :
    compile r replies s = .ok 1 (Session.dropSnippet path t) := by
  rw [h.compile_eq, finish, hf]
  rfl

theorem Loops.compile_of_unreadable {replies : Replies} {j : Job} {path : String}
    {outcome : Outcome} {t : Session} {bs : Bytes} {f : Fault}
    (h : Loops r replies s j path outcome t) (hbs : outcome.unwrap = .ok bs)
    (hf : t.files.readText path = .error f) :
    compile r replies s = .error f (Session.dropSnippet path t) := by
  rw [h.compile_eq, finish, hbs]
  simp only [bind, EStateM.bind, get, getThe, MonadStateOf.get, EStateM.get, Session.readSnippet, hf]
  rfl

theorem Renders.compile_eq {replies : Replies} {j : Job} {path source : String}
    {bs : Bytes} {t : Session} (h : Renders r replies s j path source bs t) :
    compile r replies s = Session.dropAfter path
      ((do
        deliver r path j.editor (Listing.renderBytes j.tools (isDarwin none s.host.system)
          j.options source bs)
        return 0) t) := by
  obtain ⟨outcome, hloops, hbs, hsource⟩ := h
  -- The header is made for the system that is seen after the loop, which is the one before it.
  rw [hloops.compile_eq, finish, hbs, ← hloops.working.writes.host]
  simp only [bind, EStateM.bind, get, getThe, MonadStateOf.get, EStateM.get, Session.readSnippet,
    hsource]
  rfl

theorem Loops.ends_or_renders {replies : Replies} {j : Job} {path : String}
    {outcome : Outcome} {t : Session} (h : Loops r replies s j path outcome t) :
    finalState (compile r replies s) = Session.dropSnippet path t ∨
      ∃ source bs, Renders r replies s j path source bs t := by
  cases hbs : outcome.unwrap with
  | error f =>
    left
    rw [h.compile_of_declined hbs, finalState]
  | ok bs =>
    cases hs : t.files.readText path with
    | error f =>
      left
      rw [h.compile_of_unreadable hbs hs, finalState]
    | ok source => exact .inr ⟨source, bs, outcome, h, hbs, hs⟩

theorem quiet_of_not_opens {replies : Replies} (h : ¬∃ j path t, Opens r s j path t) :
    Session.Quiet s (finalState (compile r replies s)) := by
  cases hp : prepare r s with
  | error f u =>
    have hquiet := quiet_prepare r s
    rw [hp] at hquiet
    simp only [compile, bind, EStateM.bind, hp]
    exact hquiet
  | ok j u =>
    cases hc : Session.createSnippet j.text j.options.language.ending u with
    | error f t =>
      obtain rfl := Session.eq_of_createSnippet_error hc
      simp only [compile, Session.withSnippet, bind, EStateM.bind, hp, hc]
      exact (quiet_prepare r).of_ok hp
    | ok path t => exact absurd ⟨j, path, t, u, hp, hc⟩ h

theorem compile_cases (r : CompileRequest) (replies : Replies) (s : Session) :
    Session.Quiet s (finalState (compile r replies s)) ∨
      (∃ path t, Working r path s t ∧
        finalState (compile r replies s) = Session.dropSnippet path t) ∨
      ∃ j path source bs t, Renders r replies s j path source bs t := by
  by_cases h : ∃ j path t, Opens r s j path t
  · obtain ⟨j, path, t, hopens⟩ := h
    cases hl : loop r j replies path t with
    | error f v =>
      have hloop := writes_loop r j replies path t
      rw [hl] at hloop
      refine .inr (.inl ⟨path, v, hopens.working.trans hloop, ?_⟩)
      rw [hopens.compile_eq]
      simp only [work, bind, EStateM.bind, hl]
      rfl
    | ok outcome v =>
      have hloops : Loops r replies s j path outcome v := ⟨t, hopens, hl⟩
      rcases hloops.ends_or_renders with hend | ⟨source, bs, hrenders⟩
      · exact .inr (.inl ⟨path, v, hloops.working, hend⟩)
      · exact .inr (.inr ⟨j, path, source, bs, v, hrenders⟩)
  · exact .inl (quiet_of_not_opens h)

end Command

end AsmLens
