import AsmLens.Files
import AsmLens.Proofs.DistinctKeys
import Mathlib.Logic.Relation
import Mathlib.Tactic.SplitIfs

namespace AsmLens.Files

theorem node?_eq (fs : Files) (place : List String) :
    node? fs place = if place = [] ∨ place = ["/"] then some .folder else Assoc.get? fs place := by
  unfold node?
  split
  · rfl
  · rfl
  · rename_i hempty hroot
    rw [if_neg (by rintro (h | h) <;> contradiction)]

section

variable {fs : Files} {place : List String}

theorem not_root (h : node? fs place ≠ some .folder) : ¬(place = [] ∨ place = ["/"]) := by
  intro hroot
  rw [node?_eq, if_pos hroot] at h
  contradiction

theorem node?_put (h : node? fs place ≠ some .folder) (n : FileNode) (q : List String) :
    node? (Assoc.put fs place n) q = if place = q then some n else node? fs q := by
  have hroot := not_root h
  by_cases hq : place = q
  · subst hq
    rw [node?_eq, if_neg hroot, Assoc.get?_put, if_pos rfl, if_pos rfl]
  · rw [node?_eq, node?_eq, Assoc.get?_put, if_neg hq, if_neg hq]

theorem node?_erase (h : node? fs place ≠ some .folder) (q : List String) :
    node? (Assoc.erase fs place) q = if place = q then none else node? fs q := by
  have hroot := not_root h
  by_cases hq : place = q
  · subst hq
    rw [node?_eq, if_neg hroot, Assoc.get?_erase, if_pos rfl, if_pos rfl]
  · rw [node?_eq, node?_eq, Assoc.get?_erase, if_neg hq, if_neg hq]

end

def SameFolders (fs fs' : Files) : Prop :=
  ∀ place, node? fs' place = some .folder ↔ node? fs place = some .folder

theorem SameFolders.symm {fs fs' : Files} (h : SameFolders fs fs') : SameFolders fs' fs :=
  fun place => (h place).symm

theorem SameFolders.trans {fs fs' fs'' : Files} (h : SameFolders fs fs')
    (h' : SameFolders fs' fs'') : SameFolders fs fs'' :=
  fun place => (h' place).trans (h place)

theorem walk_of_sameFolders {fs fs' : Files} (h : SameFolders fs fs')
    {parts place found : List String} (hw : walk fs place parts = .ok found) :
    walk fs' place parts = .ok found := by
  induction parts generalizing place with
  | nil => exact hw
  | cons part rest ih =>
    rw [walk] at hw ⊢
    cases hn : node? fs place with
    | none =>
      rw [hn] at hw
      contradiction
    | some n =>
      cases n with
      | file content =>
        rw [hn] at hw
        contradiction
      | folder =>
        simp only [hn] at hw
        simp only [(h place).mpr hn]
        -- The part alone decides where the walk goes on.
        split_ifs at hw ⊢ <;> exact ih hw

theorem locate_of_sameFolders {fs fs' : Files} (h : SameFolders fs fs') {name : String}
    {place : List String} (hl : locate fs name = .ok place) : locate fs' name = .ok place := by
  unfold locate at hl ⊢
  split_ifs at hl ⊢
  split at hl <;> exact walk_of_sameFolders h hl

theorem SameFolders.locate_iff {fs fs' : Files} (h : SameFolders fs fs') (name : String)
    (place : List String) : locate fs' name = .ok place ↔ locate fs name = .ok place :=
  ⟨locate_of_sameFolders h.symm, locate_of_sameFolders h⟩

section

variable {fs fs' : Files} (h : ∀ place, node? fs' place = node? fs place)
include h

theorem walk_congr (place parts : List String) : walk fs' place parts = walk fs place parts := by
  induction parts generalizing place with
  | nil => rfl
  | cons part rest ih => simp only [walk, h, ih]

theorem locate_congr (name : String) : locate fs' name = locate fs name := by
  simp only [locate, walk_congr h]

theorem find_congr (name : String) : find fs' name = find fs name := by
  simp only [find, locate_congr h, h]

end

section

variable {fs fs' : Files} {name : String} {content : Bytes}

theorem read_eq_ok_iff :
    read fs name = .ok content ↔
      ∃ place, locate fs name = .ok place ∧ node? fs place = some (.file content) := by
  cases hl : locate fs name with
  | error f => simp [read, find, hl, bind, Except.bind]
  | ok place =>
    cases hn : node? fs place with
    | none => simp [read, find, hl, hn, bind, Except.bind]
    | some n => cases n <;> simp [read, find, hl, hn, bind, Except.bind]

theorem write_eq_ok_iff :
    write fs name content = .ok fs' ↔
      ∃ place, locate fs name = .ok place ∧ node? fs place ≠ some .folder ∧
        fs' = Assoc.put fs place (.file content) := by
  cases hl : locate fs name with
  | error f => simp [write, hl, bind, Except.bind]
  | ok place =>
    cases hn : node? fs place with
    | none => simp [write, hl, hn, bind, Except.bind, eq_comm]
    | some n => cases n <;> simp [write, hl, hn, bind, Except.bind, eq_comm]

theorem unlink_eq_ok_iff :
    unlink fs name = .ok fs' ↔ (∃ content, read fs name = .ok content) ∧ fs' = remove fs name := by
  cases hf : find fs name with
  | error f => simp [unlink, read, hf, bind, Except.bind]
  | ok n => cases n <;> simp [unlink, read, hf, bind, Except.bind, eq_comm]

theorem remove_eq {place : List String} (hl : locate fs name = .ok place) :
    remove fs name = Assoc.erase fs place := by
  rw [remove, hl]

end

theorem sameFolders_of_eq {fs fs' : Files} {place : List String}
    (h : node? fs place ≠ some .folder) (h' : node? fs' place ≠ some .folder)
    (helse : ∀ q, place ≠ q → node? fs' q = node? fs q) : SameFolders fs fs' := by
  intro q
  by_cases hq : place = q
  · subst hq
    exact iff_of_false h' h
  · rw [helse q hq]

theorem sameFolders_put {fs : Files} {place : List String} (h : node? fs place ≠ some .folder)
    (content : Bytes) : SameFolders fs (Assoc.put fs place (.file content)) := by
  refine sameFolders_of_eq h ?_ fun q hq => by rw [node?_put h, if_neg hq]
  simp [node?_put h]

theorem sameFolders_erase {fs : Files} {place : List String} (h : node? fs place ≠ some .folder) :
    SameFolders fs (Assoc.erase fs place) := by
  refine sameFolders_of_eq h ?_ fun q hq => by rw [node?_erase h, if_neg hq]
  simp [node?_erase h]

theorem sameFolders_of_write {fs fs' : Files} {name : String} {content : Bytes}
    (h : write fs name content = .ok fs') : SameFolders fs fs' := by
  obtain ⟨place, -, hfolder, rfl⟩ := write_eq_ok_iff.mp h
  exact sameFolders_put hfolder content

/-- At most the one file of this name has been written. -/
structure Written (name : String) (fs fs' : Files) : Prop where
  folders : SameFolders fs fs'
  files : ∀ place content, node? fs place = some (.file content) →
    ∃ content', node? fs' place = some (.file content')
  elsewhere : ∀ place, locate fs name ≠ .ok place → node? fs' place = node? fs place

theorem Written.refl (name : String) (fs : Files) : Written name fs fs where
  folders _ := Iff.rfl
  files _ content h := ⟨content, h⟩
  elsewhere _ _ := rfl

theorem Written.trans {name : String} {fs fs' fs'' : Files} (h : Written name fs fs')
    (h' : Written name fs' fs'') : Written name fs fs'' where
  folders := h.folders.trans h'.folders
  files place content hfile := by
    obtain ⟨content', hfile'⟩ := h.files place content hfile
    exact h'.files place content' hfile'
  elsewhere place hplace := by
    rw [h'.elsewhere place (mt (h.folders.locate_iff name place).mp hplace), h.elsewhere place hplace]

theorem Written.read {name other : String} {fs fs' : Files} {content : Bytes}
    (h : Written name fs fs') (hr : read fs other = .ok content) :
    ∃ content', read fs' other = .ok content' := by
  obtain ⟨place, hlocate, hfile⟩ := read_eq_ok_iff.mp hr
  obtain ⟨content', hfile'⟩ := h.files place content hfile
  exact ⟨content', read_eq_ok_iff.mpr ⟨place, (h.folders.locate_iff other place).mpr hlocate, hfile'⟩⟩

theorem written_of_write {fs fs' : Files} {name : String} {content : Bytes}
    (h : write fs name content = .ok fs') : Written name fs fs' := by
  have hfolders := sameFolders_of_write h
  obtain ⟨place, hlocate, hfolder, rfl⟩ := write_eq_ok_iff.mp h
  refine ⟨hfolders, ?_, ?_⟩
  · intro q old hold
    rw [node?_put hfolder]
    split
    · exact ⟨content, rfl⟩
    · exact ⟨old, hold⟩
  · intro q hq
    rw [node?_put hfolder, if_neg (by rintro rfl; exact hq hlocate)]

theorem read_of_write {fs fs' : Files} {name : String} {content : Bytes}
    (h : write fs name content = .ok fs') : read fs' name = .ok content := by
  obtain ⟨place, hlocate, hfolder, rfl⟩ := write_eq_ok_iff.mp h
  refine read_eq_ok_iff.mpr ⟨place, locate_of_sameFolders (sameFolders_put hfolder content) hlocate, ?_⟩
  rw [node?_put hfolder, if_pos rfl]

def SameFile (fs : Files) (name name' : String) : Prop :=
  ∃ place, locate fs name = .ok place ∧ locate fs name' = .ok place

def Writable (fs : Files) (name : String) : Prop :=
  ∃ place, locate fs name = .ok place ∧ node? fs place ≠ some .folder

theorem SameFolders.writable {fs fs' : Files} {name : String} (h : SameFolders fs fs')
    (hw : Writable fs name) : Writable fs' name := by
  obtain ⟨place, hlocate, hfolder⟩ := hw
  exact ⟨place, (h.locate_iff name place).mpr hlocate, mt (h place).mp hfolder⟩

theorem writable_of_write {fs fs' : Files} {name : String} {content : Bytes}
    (h : write fs name content = .ok fs') : Writable fs' name := by
  have hfolders := sameFolders_of_write h
  obtain ⟨place, hlocate, hfolder, rfl⟩ := write_eq_ok_iff.mp h
  exact hfolders.writable ⟨place, hlocate, hfolder⟩

theorem Written.sameFile {fs fs' : Files} {name a b : String} (h : Written name fs fs')
    (hs : SameFile fs' a b) : SameFile fs a b := by
  obtain ⟨place, ha, hb⟩ := hs
  exact ⟨place, (h.folders.locate_iff a place).mp ha, (h.folders.locate_iff b place).mp hb⟩

theorem exists_write {fs : Files} {name : String} (h : Writable fs name) (content : Bytes) :
    ∃ fs', write fs name content = .ok fs' := by
  obtain ⟨place, hlocate, hfolder⟩ := h
  exact ⟨_, write_eq_ok_iff.mpr ⟨place, hlocate, hfolder, rfl⟩⟩

section

variable {fs : Files} {name other : String} {place : List String} {content old : Bytes}

theorem find_of_locate (hlocate : locate fs name = .ok place) :
    find fs name = match node? fs place with
      | some n => .ok n
      | none => .error .noSuchFile := by
  rw [find, hlocate]
  rfl

theorem remove_of_absent (hlocate : locate fs name = .ok place) (hnone : node? fs place = none) :
    remove fs name = fs := by
  have hroot := not_root (show node? fs place ≠ some .folder by simp [hnone])
  rw [node?_eq, if_neg hroot] at hnone
  rw [remove_eq hlocate, Assoc.erase, List.filter_eq_self]
  intro e he
  have hne : e.1 ≠ place := fun h =>
    Assoc.get?_eq_none_iff.mp hnone (List.mem_map.mpr ⟨e, he, h⟩)
  exact decide_eq_true hne

theorem node?_remove (hlocate : locate fs name = .ok place) (hfolder : node? fs place ≠ some .folder)
    (q : List String) : node? (remove fs name) q = if place = q then none else node? fs q := by
  rw [remove_eq hlocate, node?_erase hfolder]

theorem sameFolders_remove (h : Writable fs name) : SameFolders fs (remove fs name) := by
  obtain ⟨place, hlocate, hfolder⟩ := h
  rw [remove_eq hlocate]
  exact sameFolders_erase hfolder

theorem not_exists_remove (h : Writable fs name) : (remove fs name).exists? name = false := by
  have hfolders := sameFolders_remove h
  obtain ⟨place, hlocate, hfolder⟩ := h
  have hfind := find_of_locate ((hfolders.locate_iff name place).mpr hlocate)
  rw [node?_remove hlocate hfolder, if_pos rfl] at hfind
  rw [exists?, hfind]
  rfl

theorem read_remove (hr : read fs other = .ok content) (hw : Writable fs name)
    (hne : ¬SameFile fs name other) : read (remove fs name) other = .ok content := by
  have hfolders := sameFolders_remove hw
  obtain ⟨p, hp, hfile⟩ := read_eq_ok_iff.mp hr
  obtain ⟨q, hq, hfolder⟩ := hw
  refine read_eq_ok_iff.mpr ⟨p, (hfolders.locate_iff other p).mpr hp, ?_⟩
  rw [node?_remove hq hfolder, if_neg (by rintro rfl; exact hne ⟨q, hq, hp⟩), hfile]

end

theorem Written.read_other {fs fs' : Files} {name other : String} {content : Bytes}
    (h : Written name fs fs') (hr : Files.read fs other = .ok content)
    (hne : ¬SameFile fs name other) : Files.read fs' other = .ok content := by
  obtain ⟨place, hlocate, hfile⟩ := read_eq_ok_iff.mp hr
  refine read_eq_ok_iff.mpr ⟨place, (h.folders.locate_iff other place).mpr hlocate, ?_⟩
  rw [h.elsewhere place (fun hname => hne ⟨place, hname, hlocate⟩), hfile]

theorem writable_of_read {fs : Files} {name : String} {content : Bytes}
    (h : Files.read fs name = .ok content) : Writable fs name := by
  obtain ⟨place, hlocate, hfile⟩ := read_eq_ok_iff.mp h
  exact ⟨place, hlocate, by simp [hfile]⟩

inductive Touched : Files → Files → Prop where
  | written {fs fs' : Files} {name : String} {content : Bytes}
      (h : write fs name content = .ok fs') : Touched fs fs'
  | removed {fs fs' : Files} {name : String} (h : unlink fs name = .ok fs') : Touched fs fs'

theorem Touched.sameFolders {fs fs' : Files} (h : Touched fs fs') : SameFolders fs fs' := by
  cases h with
  | written h => exact sameFolders_of_write h
  | removed h =>
    obtain ⟨⟨content, hread⟩, rfl⟩ := unlink_eq_ok_iff.mp h
    exact sameFolders_remove (writable_of_read hread)

theorem sameFolders_of_touched {fs fs' : Files} (h : Relation.ReflTransGen Touched fs fs') :
    SameFolders fs fs' := by
  induction h with
  | refl => exact fun _ => Iff.rfl
  | tail _ hlast ih => exact ih.trans hlast.sameFolders

end AsmLens.Files
