import Mathlib.Data.List.Nodup
import Stencil.Proofs.Fill.InPlace

/-!
# Writing back

The texts of a fill in place are written back over files that are there: they were found by their paths
when the directory was walked, and nothing takes a file away. So writing back does not fail, and all it
does is that each file has a text in the end that was meant for it (`writeBack_on`); and that is its own text, if each
file has one (`writeBack_backlog`).
-/

namespace Stencil.Files.Disk

variable {disk : Disk} {path : String} {place : Place} {content : ByteArray} {executable : Bool}

/-- A file that is found can be written, and keeps its permissions. -/
theorem write_eq (hfind : disk.find true path = .ok (place, .file content executable))
    (content' : ByteArray) :
    disk.write path content' = .ok (disk.put place (.file content' executable)) := by
  obtain ⟨ends, hlocate⟩ := find_eq_ok.mp hfind
  simp [write, hlocate]

theorem ne_nil_of_find_file (hfind : disk.find true path = .ok (place, .file content executable)) :
    place ≠ [] := by
  rintro rfl
  exact absurd (find_at? hfind) (by simp)

/-- Where there was a file there still is one, and a path that found it finds it. -/
theorem find_file_grow {new : Disk} (h : Grown disk new)
    (hfind : disk.find true path = .ok (place, .file content executable)) :
    ∃ content' executable', new.find true path = .ok (place, .file content' executable') := by
  obtain ⟨grown, halike, hfind'⟩ := find_grow h hfind
  cases grown with
  | file content' executable' => exact ⟨content', executable', hfind'⟩
  | directory | link | history => simp [Entry.Alike] at halike

end Stencil.Files.Disk

namespace Stencil.Fill

open Files Files.Disk

variable {world : World} {items : List (String × String)} {meant : Place → String → Prop}
  {places : Place → Prop} {old new : Disk}

/-- Whether each path finds a file and comes with a text that is meant for it. -/
def Assigned (meant : Place → String → Prop) (disk : Disk) (items : List (String × String)) : Prop :=
  ∀ item ∈ items, ∃ place content executable,
    disk.find true item.1 = .ok (place, .file content executable) ∧ meant place item.2

/-- **Whether all that changed is that some files have texts that were meant for them.** -/
structure Rewritten (meant : Place → String → Prop) (places : Place → Prop) (old new : Disk) :
    Prop where
  directory_eq : new.directory = old.directory
  written : ∀ place content executable, places place →
    old.at? place = some (.file content executable) →
      ∃ text, meant place text ∧ new.at? place = some (.file text.toUTF8 executable)
  kept : ∀ place, ¬ places place → new.at? place = old.at? place

/-- The places that paths find. -/
def foundBy (disk : Disk) (items : List (String × String)) (place : Place) : Prop :=
  ∃ item ∈ items, disk.canonical item.1 = .ok place

namespace Assigned

theorem grow (h : Assigned meant old items) (hgrown : Grown old new) : Assigned meant new items := by
  intro item hitem
  obtain ⟨place, content, executable, hfind, hmeant⟩ := h item hitem
  obtain ⟨content', executable', hfind'⟩ := find_file_grow hgrown hfind
  exact ⟨place, content', executable', hfind', hmeant⟩

/-- The paths find the same places on a disk that has grown. -/
theorem foundBy_eq (h : Assigned meant old items) (hgrown : Grown old new) (place : Place) :
    foundBy new items place ↔ foundBy old items place := by
  have hsame : ∀ item ∈ items, new.canonical item.1 = old.canonical item.1 := by
    intro item hitem
    obtain ⟨there, content, executable, hfind, _⟩ := h item hitem
    have hcanonical := canonical_eq_ok.mpr ⟨_, hfind⟩
    rw [hcanonical, canonical_grow hgrown hcanonical]
  constructor
  · rintro ⟨item, hitem, hcanonical⟩
    exact ⟨item, hitem, hsame item hitem ▸ hcanonical⟩
  · rintro ⟨item, hitem, hcanonical⟩
    exact ⟨item, hitem, hsame item hitem ▸ hcanonical⟩

end Assigned

/-- One file is written, and then the others. -/
theorem Rewritten.cons {place : Place} {content : ByteArray} {executable : Bool} {text : String}
    (hne : place ≠ []) (hat : old.at? place = some (.file content executable))
    (hmeant : meant place text)
    (h : Rewritten meant places (old.put place (.file text.toUTF8 executable)) new) :
    Rewritten meant (fun there => there = place ∨ places there) old new := by
  refine ⟨h.directory_eq, fun there content' executable' hthere hbefore => ?_, fun there hthere => ?_⟩
  · by_cases heq : there = place
    · subst heq
      obtain ⟨rfl, rfl⟩ := Entry.file.inj (Option.some.inj (hat.symm.trans hbefore))
      have hmid := Disk.at?_put_self old (.file text.toUTF8 executable) hne
      by_cases hagain : places there
      · exact h.written there _ _ hagain hmid
      · exact ⟨text, hmeant, (h.kept there hagain).trans hmid⟩
    · refine h.written there content' executable' (hthere.resolve_left heq) ?_
      rwa [Disk.at?_put_of_ne _ _ heq]
  · rw [not_or] at hthere
    rw [h.kept there hthere.2, Disk.at?_put_of_ne _ _ hthere.1]

/-- **Writing back does not fail**, and each file has a text that was meant for it. -/
theorem writeBack_on (hassigned : Assigned meant world.disk items) :
    ∃ disk, (writeBack items).on world = (.ok (), { world with disk }) ∧
      Rewritten meant (foundBy world.disk items) world.disk disk := by
  induction items generalizing world with
  | nil => exact ⟨world.disk, rfl, rfl, fun _ _ _ h => absurd h (by simp [foundBy]), fun _ _ => rfl⟩
  | cons item rest ih =>
      obtain ⟨place, content, executable, hfind, hmeant⟩ := hassigned item List.mem_cons_self
      have hat := find_at? hfind
      have hne := ne_nil_of_find_file hfind
      have hgrown : Grown world.disk (world.disk.put place (.file item.2.toUTF8 executable)) :=
        grown_put hne (hat ▸ Fresh.again _ _ _ _)
      have hrest : Assigned meant world.disk rest := fun other hother =>
        hassigned other (List.mem_cons_of_mem _ hother)
      have hchange : (Work.change fun disk => disk.write item.1 item.2.toUTF8).on world =
          (.ok (), { world with disk := world.disk.put place (.file item.2.toUTF8 executable) }) := by
        simp [Work.on_change, write_eq hfind]
      obtain ⟨disk, hon, hback⟩ := @ih { world with disk := _ } (hrest.grow hgrown)
      refine ⟨disk, ?_, ?_⟩
      · rw [writeBack, Work.on_bind, hchange]
        exact hon
      · have hplaces : foundBy world.disk (item :: rest) = fun there => there = place ∨
            foundBy (world.disk.put place (.file item.2.toUTF8 executable)) rest there := by
          funext there
          rw [hrest.foundBy_eq hgrown]
          simp [foundBy, canonical_eq_ok.mpr ⟨_, hfind⟩, eq_comm]
        rw [hplaces]
        exact .cons hne hat hmeant hback

/-! ## The texts of files -/

variable {root : Place} {visit visit' : Visit} {files : List (Visit × Option String)}
  {text? text?' : Option String}

/-- What is to be written back for some files. -/
def backlog (source : String) (files : List (Visit × Option String)) : List (String × String) :=
  files.filterMap fun file => file.2.map fun filled => (file.1.path source, filled)

theorem backlog_cons (source : String) (file : Visit × Option String)
    (files : List (Visit × Option String)) :
    backlog source (file :: files) = backlog source [file] ++ backlog source files := by
  rw [backlog, backlog, backlog, ← List.filterMap_append, List.singleton_append]

/-- **What writing back has done**: each text is in the place of its file, and nothing else has changed. -/
structure FilledInPlace (root : Place) (files : List (Visit × Option String)) (old new : Disk) : Prop where
  directory_eq : new.directory = old.directory
  written : ∀ visit filled, (visit, some filled) ∈ files → ∃ content executable,
    old.at? (root ++ visit.names) = some (.file content executable) ∧
    new.at? (root ++ visit.names) = some (.file filled.toUTF8 executable)
  kept : ∀ place, (∀ visit filled, (visit, some filled) ∈ files → place ≠ root ++ visit.names) →
    new.at? place = old.at? place

/-- No two files are the same. -/
theorem text_unique (hsorted : (files.map fun file => file.1.names).Pairwise (· < ·))
    (h : (visit, text?) ∈ files) (h' : (visit', text?') ∈ files) (hnames : visit.names = visit'.names) :
    text? = text?' := by
  have hnodup : (files.map fun file => file.1.names).Nodup := by
    refine hsorted.imp fun {a b} hlt heq => ?_
    exact List.lt_irrefl b (heq ▸ hlt)
  exact congrArg Prod.snd (List.inj_on_of_nodup_map hnodup h h' hnames)

/-- The texts that waited are written over their files. -/
theorem writeBack_backlog (hsorted : (files.map fun file => file.1.names).Pairwise (· < ·))
    (hfind : ∀ file ∈ files, ∃ content executable, world.disk.find true (file.1.path root.render) =
      .ok (root ++ file.1.names, .file content executable)) :
    ∃ disk, (writeBack (backlog root.render files)).on world = (.ok (), { world with disk }) ∧
      FilledInPlace root files world.disk disk := by
  have hitems : ∀ item ∈ backlog root.render files, ∃ visit, (visit, some item.2) ∈ files ∧
      item.1 = visit.path root.render := by
    intro item hitem
    obtain ⟨⟨visit, text?⟩, hfile, hmap⟩ := List.mem_filterMap.mp hitem
    obtain ⟨filled, rfl, rfl⟩ := Option.map_eq_some_iff.mp hmap
    exact ⟨visit, hfile, rfl⟩
  have hassigned : Assigned (fun place text => ∃ visit, (visit, some text) ∈ files ∧
      place = root ++ visit.names) world.disk (backlog root.render files) := by
    intro item hitem
    obtain ⟨visit, hfile, heq⟩ := hitems item hitem
    obtain ⟨content, executable, hfound⟩ := hfind _ hfile
    exact ⟨root ++ visit.names, content, executable, heq ▸ hfound, visit, hfile, rfl⟩
  obtain ⟨disk, hon, hback⟩ := writeBack_on hassigned
  refine ⟨disk, hon, hback.directory_eq, fun visit filled hfile => ?_, fun place hplace => ?_⟩
  · obtain ⟨content, executable, hfound⟩ := hfind _ hfile
    have hitem : (visit.path root.render, filled) ∈ backlog root.render files :=
      List.mem_filterMap.mpr ⟨(visit, some filled), hfile, rfl⟩
    obtain ⟨text, ⟨visit', hfile', hsame⟩, hnew⟩ := hback.written (root ++ visit.names) content executable
      ⟨_, hitem, canonical_eq_ok.mpr ⟨_, hfound⟩⟩ (find_at? hfound)
    obtain rfl := Option.some.inj (text_unique hsorted hfile hfile' (List.append_cancel_left hsame))
    exact ⟨content, executable, find_at? hfound, hnew⟩
  · refine hback.kept place fun ⟨item, hitem, hcanonical⟩ => ?_
    obtain ⟨visit, hfile, heq⟩ := hitems item hitem
    obtain ⟨content, executable, hfound⟩ := hfind _ hfile
    rw [heq, canonical_eq_ok.mpr ⟨_, hfound⟩, Except.ok.injEq] at hcanonical
    exact hplace visit item.2 hfile hcanonical.symm

end Stencil.Fill
