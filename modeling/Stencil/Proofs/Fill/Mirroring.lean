import Stencil.Proofs.Files.Apart
import Stencil.Proofs.Files.Order
import Stencil.Proofs.Files.Storing
import Stencil.Proofs.Fill.Forecast
import Stencil.Proofs.Fill.Mirror

/-!
# A mirrored fill that succeeds

What a mirrored fill may write is known (`fillDirectory_mirror`). Here it is what it does write, and that
nothing stops it but a file that cannot be rendered.

The directory has to be apart from the template (`Disk.IsApart`). The fill puts file after file into it. Whatever is there at any time is
a file that was filled or a directory around one (`MirroringAt`), so the place of the next file is free and
the way there open; for in the template no file lies inside of another one, and none is met twice.
-/

namespace Stencil

open Files Files.Disk

namespace Fill

variable {fill : Fill} {progress : Progress} {world : World} {visit : Visit} {visits : List Visit}
  {root room outer place : Place} {disk old new : Disk} {s target : String}

/-! ## One file -/

/-- What writing a file that was missing has done. -/
structure Stored (place : Place) (content : ByteArray) (executable : Bool) (old new : Disk) : Prop where
  sound : new.Sound
  at?_eq : new.at? place = some (.file content executable)
  kept : ∀ there entry, old.at? there = some entry → new.at? there = some entry
  only : ∀ there entry, new.at? there = some entry → old.at? there = some entry ∨ there = place ∨
    entry = .directory ∧ there <+: place

/-- A file is copied where it is missing, if the way there is open. -/
theorem writeLike_eq {file : String} (content : ByteArray) {before : ByteArray} {executable : Bool}
    (hsound : world.disk.Sound) (hfind : world.disk.find true file = .ok (place, .file before executable))
    (hstorable : ∀ t ∈ outer ++ [s], IsStorable t) (hopen : world.disk.IsOpen outer)
    (hnone : world.disk.at? (outer ++ [s]) = none) :
    ∃ disk, (writeLike file (Place.render (outer ++ [s])) content).on world =
        (.ok (), { world with disk }) ∧
      Stored (outer ++ [s]) content executable world.disk disk := by
  obtain ⟨mid, hwrite, hmid, hat, hwrites⟩ := hsound.writeInside_place hstorable hopen hnone content
  have hkept : ∀ there entry, world.disk.at? there = some entry → mid.at? there = some entry := by
    intro there entry hthere
    rcases hwrites.changed there with heq | ⟨made, _, hfresh, rfl | ⟨rfl, _⟩⟩
    · exact heq.trans hthere
    · exact absurd (hthere.symm.trans hnone) (by simp)
    · rw [hthere] at hfresh
      cases hfresh
  have hfind' : mid.find true file = .ok (place, .file before executable) := by
    obtain ⟨grown, _, hgrown⟩ := find_grow hwrites.grown hfind
    obtain rfl : grown = .file before executable :=
      Option.some.inj ((find_at? hgrown).symm.trans (hkept place _ (find_at? hfind)))
    exact hgrown
  have hdestination : mid.find true (Place.render (outer ++ [s])) =
      .ok (outer ++ [s], .file content false) := hmid.find_render hat (by simp [Entry.isLink])
  refine ⟨mid.put (outer ++ [s]) (.file content executable), ?_, ?_⟩
  · simp [writeLike, Work.on_bind, Work.on_attempt, Work.on_ask, Work.on_change, hwrite, isExecutable,
      setExecutable, hfind', hdestination]
  · refine ⟨hmid.put_file hat, at?_put_self _ _ (by simp), fun there entry hthere => ?_,
      fun there entry hthere => ?_⟩
    · rw [at?_put_of_ne _ _ fun heq => ?_]
      · exact hkept there entry hthere
      · exact absurd ((heq ▸ hthere).symm.trans hnone) (by simp)
    · by_cases heq : there = outer ++ [s]
      · exact Or.inr (Or.inl heq)
      · rw [at?_put_of_ne _ _ heq] at hthere
        rcases hwrites.changed there with hsame | ⟨made, hmade, _, rfl | ⟨rfl, hprefix⟩⟩
        · exact Or.inl (hsame ▸ hthere)
        · exact absurd rfl heq
        · refine Or.inr (Or.inr ⟨Option.some.inj (hthere.symm.trans hmade), ?_⟩)
          exact hprefix.trans (List.prefix_append _ _)

/-- A file is delivered by copying it. -/
theorem deliver_mirror (hroute : fill.route = .mirror target) (content : ByteArray)
    (text? : Option String) :
    fill.deliver progress visit content text? = (do
      writeLike (visit.path fill.source) (Path.join target visit.relative) (filledContent content text?)
      pure progress) := by
  cases text? with
  | none => simp only [deliver, passBinary, hroute, filledContent]
  | some filled => simp only [deliver, hroute, filledContent]

/-! ## File after file -/

/-- **What a mirrored fill has done** when some files were filled: in the directory are those files, like the
originals but for the texts, and the directories around them. -/
structure MirroringAt (fill : Fill) (target : String) (root room : Place) (old : Disk)
    (done : List (Visit × Option String)) (disk : Disk) : Prop where
  mirror : MirrorAt fill room disk
  wrote : WroteWithin room (old.makeDirectories target).1 disk
  inside : ∀ names entry, disk.at? (room ++ names) = some entry →
    (entry = .directory ∧ (names = [] ∨ ∃ file ∈ done, names <+: file.1.names)) ∨
      ∃ file ∈ done, names = file.1.names
  written : ∀ file ∈ done, ∃ content executable,
    old.at? (root ++ file.1.names) = some (.file content executable) ∧
    disk.at? (room ++ file.1.names) =
      some (.file (filledContent content file.2) executable)

namespace MirroringAt

variable {done : List (Visit × Option String)} {rest : List Visit} {text? : Option String}
  {given : String} {patterns : List String} {entry : Entry}

/-- Whatever was there before is still there. -/
theorem kept (h : MirroringAt fill target root room old done disk) (hsound : old.Sound)
    (hapart : old.IsApart target root room)
    (hat : (old.makeDirectories target).1.at? place = some entry) : disk.at? place = some entry := by
  rcases h.wrote.2.changed place with heq | ⟨made, _, hfresh, hin⟩
  · exact heq.trans hat
  · -- Only the directory itself was there, and it is no file.
    rw [hapart.eq_room hsound hin hat] at hfresh
    rw [hapart.at?_room hsound] at hfresh
    cases hfresh

theorem kept_old (h : MirroringAt fill target root room old done disk) (hsound : old.Sound)
    (hapart : old.IsApart target root room) (hat : old.at? place = some entry) :
    disk.at? place = some entry :=
  h.kept hsound hapart (IsApart.kept hsound hat)

theorem holds (h : MirroringAt fill target root room old done disk) (hsound : old.Sound)
    (hapart : old.IsApart target root room) : disk.Holds room :=
  .of_at? (h.kept hsound hapart (hapart.at?_room hsound)) rfl

/-- The place of the next file is free. -/
theorem missing (h : MirroringAt fill target root room old done disk) (hsound : old.Sound)
    (hgather : gather given patterns old = .ok (root, visits))
    (hvisits : visits = done.map Prod.fst ++ visit :: rest) (hne : visit.names ≠ []) :
    disk.at? (room ++ visit.names) = none := by
  have hnew : ∀ file ∈ done, file.1.names ≠ visit.names := by
    obtain ⟨_, set, _, hfiles⟩ := gather_eq_ok.mp hgather
    have hsorted := filesOf_sorted hsound hfiles
    rw [hvisits, List.pairwise_append] at hsorted
    intro file hfile heq
    have hlt := hsorted.2.2 file.1 (List.mem_map_of_mem hfile) visit List.mem_cons_self
    exact List.lt_irrefl _ (heq ▸ hlt)
  cases hat : disk.at? (room ++ visit.names) with
  | none => rfl
  | some entry =>
      have hvisit : visit ∈ visits := by simp [hvisits]
      rcases h.inside _ _ hat with ⟨_, hempty | ⟨file, hfile, hprefix⟩⟩ | ⟨file, hfile, heq⟩
      · exact absurd hempty hne
      · have hmem : file.1 ∈ visits := by
          rw [hvisits]
          exact List.mem_append_left _ (List.mem_map_of_mem hfile)
        exact absurd (names_eq_of_leading hsound hgather hvisit hmem hprefix).symm (hnew file hfile)
      · exact absurd heq.symm (hnew file hfile)

/-- The way to the next file is open. -/
theorem isOpen (h : MirroringAt fill target root room old done disk) (hsound : old.Sound)
    (hapart : old.IsApart target root room) (hgather : gather given patterns old = .ok (root, visits))
    (hvisits : visits = done.map Prod.fst ++ visit :: rest) (hnames : visit.names = outer ++ [s]) :
    disk.IsOpen (room ++ outer) := by
  have hin : ∀ names : Place, names <+: outer →
      disk.at? (room ++ names) = none ∨ disk.Holds (room ++ names) := by
    intro names hprefix
    cases hat : disk.at? (room ++ names) with
    | none => exact Or.inl rfl
    | some entry =>
        rcases h.inside _ _ hat with ⟨rfl, _⟩ | ⟨file, hfile, heq⟩
        · exact Or.inr (.of_at? hat rfl)
        · -- In the template the next file would lie inside of this one.
          have hmem : file.1 ∈ visits := by
            rw [hvisits]
            exact List.mem_append_left _ (List.mem_map_of_mem hfile)
          have hbelow : file.1.names <+: visit.names := by
            rw [hnames, ← heq]
            exact hprefix.trans (List.prefix_append _ _)
          have hsame := names_eq_of_leading hsound hgather hmem (by simp [hvisits]) hbelow
          rw [← heq, hnames] at hsame
          exact absurd hprefix.length_le (by simp [hsame])
  intro front hfront
  obtain ⟨more, hmore⟩ := hfront
  rcases List.append_eq_append_iff.mp hmore with ⟨deeper, hroom, _⟩ | ⟨deeper, rfl, hdeeper⟩
  · -- What the directory lies in is there.
    by_cases hempty : deeper = []
    · refine Or.inr ?_
      rw [hempty, List.append_nil] at hroom
      exact hroom ▸ h.holds hsound hapart
    · obtain ⟨found, hat, _⟩ := holds_iff.mp (h.holds hsound hapart)
      exact Or.inr (h.mirror.sound.outer_append hempty (hroom ▸ hat))
  · exact hin deeper ⟨more, hdeeper.symm⟩

/-- **The next file is delivered**, too. -/
theorem next (h : MirroringAt fill target root room old done world.disk) (progress : Progress)
    (text? : Option String) (hsound : old.Sound) (hapart : old.IsApart target root room) (hgather : gather given patterns old = .ok (root, visits))
    (hvisits : visits = done.map Prod.fst ++ visit :: rest) (hne : visit.names ≠ [])
    (hsource : fill.source = root.render) {content : ByteArray} {executable : Bool}
    (hat : old.at? (root ++ visit.names) = some (.file content executable)) :
    ∃ disk, (fill.deliver progress visit content text?).on world = (.ok progress, { world with disk }) ∧
      MirroringAt fill target root room old (done ++ [(visit, text?)]) disk := by
  obtain ⟨outer, s, hnames⟩ := (List.eq_nil_or_concat visit.names).resolve_left hne
  rw [List.concat_eq_append] at hnames
  have hstorable : ∀ t ∈ (room ++ outer) ++ [s], IsStorable t := by
    intro t ht
    obtain ⟨found, hroom, _⟩ := holds_iff.mp (h.holds hsound hapart)
    rw [List.append_assoc, ← hnames] at ht
    exact (List.mem_append.mp ht).elim (h.mirror.sound.storable hroom t)
      fun ht => hsound.storable hat t (List.mem_append_right _ ht)
  have hplace : room ++ visit.names = (room ++ outer) ++ [s] := by rw [hnames, List.append_assoc]
  have hpath : Path.join room.render visit.relative = Place.render ((room ++ outer) ++ [s]) := by
    rw [← hplace]
    exact Path.join_render h.mirror.isName (fun t ht => hsound.isName hat t (List.mem_append_right _ ht)) hne
  -- The original is where it was.
  have hfind : world.disk.find true (visit.path fill.source) =
      .ok (root ++ visit.names, .file content executable) := by
    rw [hsource, Visit.path_render (hsound.isName hat)]
    exact h.mirror.sound.find_render (h.kept_old hsound hapart hat) (by simp [Entry.isLink])
  have hmissing := h.missing hsound hgather hvisits hne
  obtain ⟨disk, hon, hstored⟩ := writeLike_eq (filledContent content text?) h.mirror.sound hfind
    hstorable (h.isOpen hsound hapart hgather hvisits hnames) (hplace ▸ hmissing)
  have hspells : Spells (Place.render ((room ++ outer) ++ [s])) ((room ++ outer) ++ [s]) :=
    spells_render fun t ht => (hstorable t ht).toIsName
  have hwrote : WroteWithin room world.disk disk := (writeLike_ends h.mirror.sound hspells
    (List.append_assoc room outer [s] ▸ h.mirror.confined (outer ++ [s]))).done_of_ok hon
  refine ⟨disk, ?_, h.mirror.grow hwrote, h.wrote.trans hwrote, fun names entry hentry => ?_,
    fun file hfile => ?_⟩
  · rw [deliver_mirror h.mirror.route_eq, hpath, Work.on_bind, hon]
    rfl
  · rcases hstored.only _ _ hentry with hbefore | heq | ⟨rfl, hprefix⟩
    · rcases h.inside names entry hbefore with ⟨hdir, hempty | ⟨file, hfile, hprefix⟩⟩ | ⟨file, hfile, heq⟩
      · exact Or.inl ⟨hdir, Or.inl hempty⟩
      · exact Or.inl ⟨hdir, Or.inr ⟨file, List.mem_append_left _ hfile, hprefix⟩⟩
      · exact Or.inr ⟨file, List.mem_append_left _ hfile, heq⟩
    · rw [← hplace] at heq
      exact Or.inr ⟨(visit, text?), by simp, List.append_cancel_left heq⟩
    · rw [← hplace] at hprefix
      exact Or.inl ⟨rfl, Or.inr ⟨(visit, text?), by simp, (List.prefix_append_right_inj room).mp hprefix⟩⟩
  · rcases List.mem_append.mp hfile with hfile | hfile
    · obtain ⟨before, mode, hold, hnew⟩ := h.written file hfile
      exact ⟨before, mode, hold, hstored.kept _ _ hnew⟩
    · obtain rfl := List.mem_singleton.mp hfile
      exact ⟨content, executable, hat, hplace ▸ hstored.at?_eq⟩

/-- Before the first file only the directory is there. -/
theorem start (fill : Fill) (hsound : old.Sound) (hapart : old.IsApart target root room)
    (hroute : fill.route = .mirror room.render) :
    MirroringAt fill target root room old [] (old.makeDirectories target).1 := by
  have hmade := (hsound.makeDirectories target).1
  have hat := hapart.at?_room hsound
  refine ⟨⟨hroute, hmade, ?_, ?_⟩, .refl hmade room, fun names entry hentry => ?_, by simp⟩
  · exact canonical_eq_ok.mpr ⟨_, hmade.find_render hat (by simp [Entry.isLink])⟩
  · exact fun place hin link => noLink_of_isFree hsound hapart.vacant.1 hapart.canonical hin link
  · have heq := hapart.eq_room hsound (Place.isWithin_append room names) hentry
    rw [heq, hat, Option.some.injEq] at hentry
    exact Or.inl ⟨hentry.symm, Or.inl (by simpa using heq)⟩

/-- A file and its templates are read as they were before the fill. -/
theorem reads (h : MirroringAt fill target root room old done disk) (hsound : old.Sound)
    (hapart : old.IsApart target root room) {content : ByteArray} {executable : Bool} {final : Disk}
    (hfind : old.find true (visit.path fill.source) = .ok (place, .file content executable))
    (hfinal : Grown disk final)
    (hmissing : ∀ name ∈ fill.consultedBy old .nowhere visit,
      fill.templates old name = .error .missing → fill.templates final name = .error .missing) :
    fill.Reads old .nowhere visit disk := by
  have hgrown : Grown old disk := (hsound.makeDirectories target).2.grown.trans h.wrote.2.grown
  refine ⟨?_, fun name hname => ?_⟩
  · obtain ⟨grown, _, hfind'⟩ := find_grow hgrown hfind
    have hsame := h.kept_old hsound hapart (find_at? hfind)
    rw [find_at? hfind', Option.some.injEq] at hsame
    simp only [Disk.read, hfind, hfind', hsame]
  · refine templates_between hgrown hfinal (hmissing name hname) fun path _ there hthere => ?_
    obtain ⟨entry, hentry⟩ := canonical_eq_ok.mp hthere
    rw [find_at? hentry, h.kept_old hsound hapart (find_at? hentry)]

end MirroringAt

/-- Where a mirrored fill is when some files are done and others are left. -/
structure UnderwayMirroring (fill : Fill) (target : String) (root room : Place) (old : Disk)
    (visits : List Visit) (world : World) (final : Disk) (done : List (Visit × Option String))
    (rest : List Visit) (progress : Progress) (after : World) : Prop
    extends Underway fill old visits done rest progress where
  pending_eq : progress.pending = []
  world_eq : after = { world with disk := after.disk }
  mirroring : MirroringAt fill target root room old done after.disk
  final_eq : ((rest.foldlM fill.fillVisit progress).on after).2.disk = final

/-- **All files are delivered** if all of them can be rendered, and otherwise the first that cannot be is
the failure. -/
theorem fillVisits_mirrored (fill : Fill) (world : World) {given : String} {patterns : List String}
    {final : Disk}
    (hsound : old.Sound) (hapart : old.IsApart target root room)
    (hgather : gather given patterns old = .ok (root, visits)) (hsource : fill.source = root.render)
    (hroute : fill.route = .mirror room.render) (hnames : ∀ visit ∈ visits, visit.names ≠ [])
    (hquiet : ∀ visit ∈ visits, fill.QuietAt old visit)
    (hmissing : ∀ visit ∈ visits, ∀ name ∈ fill.consultedBy old .nowhere visit,
      fill.templates old name = .error .missing → fill.templates final name = .error .missing)
    (hworld : world.disk = (old.makeDirectories target).1)
    (hfinal : ((visits.foldlM fill.fillVisit {}).on world).2.disk = final) :
    match fill.foretellAll old visits with
    | .ok files => ∃ last disk, (visits.foldlM fill.fillVisit {}).on world =
        (.ok last, { world with disk }) ∧ last.pending = [] ∧
        MirroringAt fill target root room old files disk
    | .error failure => ((visits.foldlM fill.fillVisit {}).on world).1 = .error failure := by
  have hfold := fillVisits_forecast fill old
    (UnderwayMirroring fill target root room old visits world final) ?_
    (show UnderwayMirroring fill target root room old visits world final [] visits {} world from
      ⟨.start fill old visits, rfl, rfl, hworld ▸ .start fill hsound hapart hroute, hfinal⟩)
  · revert hfold
    cases fill.foretellAll old visits with
    | error failure => exact id
    | ok files =>
        rintro ⟨last, after, hon, h⟩
        exact ⟨last, after.disk, h.world_eq ▸ hon, h.pending_eq, h.mirroring⟩
  · intro done visit rest progress mid h
    have hmirrored := h.mirroring
    have hvisit := h.mem
    obtain ⟨content, executable, hat, hfind⟩ := file_of_gather hsound hgather hvisit
    rw [← hsource] at hfind
    have hrest : ∀ other ∈ visit :: rest, ∀ s ∈ other.names, IsName s := by
      intro other hother s hs
      have hmem : other ∈ visits := h.visits_eq ▸ List.mem_append_right _ hother
      obtain ⟨_, _, hthere, _⟩ := file_of_gather hsound hgather hmem
      exact hsound.isName hthere s (List.mem_append_right _ hs)
    have hgrown : Grown mid.disk final := by
      have hends : (List.foldlM fill.fillVisit progress (visit :: rest)).Ends mid _ _ :=
        fillVisits_mirror hmirrored.mirror hrest
      rw [← h.final_eq]
      exact ((hends.mono (fun _ _ h => h.1) fun _ _ h => h).always fun after =>
        WroteWithin room mid.disk after.disk).2.grown
    have hreads := hmirrored.reads hsound hapart hfind hgrown (hmissing visit hvisit)
    have hread : old.read (visit.path fill.source) = .ok content := by
      simp only [Disk.read, hfind]
    obtain ⟨loaded, hloaded, hon⟩ := fillVisit_eq hread hreads (hquiet visit hvisit) h.remembers
    cases hplan : fill.foretell old .nowhere visit with
    | error failure =>
        rw [hplan] at hon
        simp only [hon]
    | ok text? =>
        rw [hplan] at hon
        obtain ⟨disk, hdeliver, hnext⟩ := hmirrored.next { progress with loaded } text? hsound hapart
          hgather h.visits_eq (hnames visit hvisit) hsource hat
        have hdone := hon.trans hdeliver
        refine ⟨{ progress with loaded }, { mid with disk }, hdone, h.next hloaded text?, h.pending_eq, ?_,
          hnext, ?_⟩
        · rw [h.world_eq]
        · have hend := h.final_eq
          rwa [List.foldlM_cons, Work.on_bind, hdone] at hend

end Fill

end Stencil
