import Stencil.Proofs.Fill.Parts

/-!
# Filling in place

A fill in place changes a directory in two ways only. Templates ask for files while they are rendered,
and in the end the files that were filled are written back where they were. Everything else is as it
was, however the fill ends (`fillDirectory_inPlace`).

The files that are written back are found by their own paths, because they were there when the
directory was walked and nothing has been taken away since.
-/

namespace Stencil.Fill

open Files Files.Disk

variable {fill : Fill} {progress : Progress} {world : World} {visit : Visit} {visits : List Visit}
  {root : Place}

/-- What is to hold of a fill in place at any time. -/
structure InPlaceAt (fill : Fill) (root : Place) (disk : Disk) : Prop where
  route_eq : fill.route = .inPlace
  source_eq : fill.source = root.render
  sound : disk.Sound
  canonical : disk.canonical (Place.render root) = .ok root

theorem InPlaceAt.grow {disk disk' : Disk} (h : InPlaceAt fill root disk) (hgrown : Grown disk disk')
    (hsound : disk'.Sound) : InPlaceAt fill root disk' :=
  ⟨h.route_eq, h.source_eq, hsound, canonical_grow hgrown h.canonical⟩

theorem InPlaceAt.isName {disk : Disk} (h : InPlaceAt fill root disk) : ∀ s ∈ root, IsName s := by
  obtain ⟨entry, hfind⟩ := canonical_eq_ok.mp h.canonical
  exact h.sound.isName (find_at? hfind)

/-- Where templates ask for files of one fill, and nothing else is done. -/
def AskedWithin (root : Place) (targets : List Path) (old new : Disk) : Prop :=
  new.Sound ∧ WritesOnly (fun place entry => place.isWithin root = true ∧
    new.MadeForSome targets place entry)
    old new

theorem AskedWithin.refl {disk : Disk} (hsound : disk.Sound) (root : Place) (targets : List Path) :
    AskedWithin root targets disk disk :=
  ⟨hsound, WritesOnly.refl disk⟩

theorem AskedWithin.trans {old mid new : Disk} {targets targets' : List Path}
    (h : AskedWithin root targets old mid) (h' : AskedWithin root targets' mid new) :
    AskedWithin root (targets ++ targets') old new := by
  refine ⟨h'.1, h.2.trans_mono h'.2 (fun place entry hin => ?_) fun place entry hin => ?_⟩
  · exact ⟨hin.1, hin.2.mono h'.2.grown fun _ hmem => List.mem_append_left _ hmem⟩
  · exact ⟨hin.1, hin.2.mono (Grown.refl _) fun _ hmem => List.mem_append_right _ hmem⟩

/-! ## Filling the files -/

/-- While a file is filled the disk changes for what its template asks for. -/
theorem fillVisit_inPlace (progress : Progress) (h : InPlaceAt fill root world.disk)
    (hnames : ∀ s ∈ visit.names, IsName s) :
    (fill.fillVisit progress visit).Ends world
      (fun next after => AskedWithin root (fill.askedBy progress visit world.disk)
        world.disk after.disk ∧
        ∀ item ∈ next.pending, item ∈ progress.pending ∨ item.1 = visit.path fill.source)
      fun _ after => AskedWithin root (fill.askedBy progress visit world.disk) world.disk
        after.disk := by
  have hroot := h.isName
  have hall : ∀ s ∈ root ++ visit.names, IsName s := fun s hs =>
    (List.mem_append.mp hs).elim (hroot s) (hnames s)
  have hpath : Spells (visit.path fill.source) (root ++ visit.names) := by
    rw [h.source_eq, Visit.path_render hall]
    exact spells_render hall
  obtain ⟨directory, hdirectory, hscope⟩ := scopeNextTo_eq hroot hpath
  refine Work.Ends.bind (Work.Ends.ask (fun content hread => ?_) fun _ _ =>
    AskedWithin.refl h.sound _ _)
  split
  · rename_i text htext
    unfold fillText
    rw [h.route_eq]
    have hasked : fill.askedBy progress visit world.disk = fill.asked progress visit.name text
        (scopeNextTo fill.source (visit.path fill.source)) world.disk := by
      simp [askedBy, hread, htext, h.route_eq]
    rw [hasked]
    refine Work.Ends.bind
      ((renderFile_ends (h.source_eq ▸ hscope) hdirectory h.sound h.canonical).mono
      (fun result after hafter => ?_) fun _ _ hafter => hafter)
    refine Work.Ends.pure ⟨hafter.2, fun item hitem => ?_⟩
    rcases List.mem_cons.mp hitem with rfl | hitem
    · exact Or.inr rfl
    · exact Or.inl (hafter.1 ▸ hitem)
  · unfold passBinary
    rw [h.route_eq]
    exact Work.Ends.bind (Work.Ends.pure (Work.Ends.pure
      ⟨AskedWithin.refl h.sound _ _, fun item hitem => Or.inl hitem⟩))

/-- While files are filled the disk changes for what their templates ask for. -/
theorem fillVisits_inPlace (h : InPlaceAt fill root world.disk)
    (hnames : ∀ visit ∈ visits, ∀ s ∈ visit.names, IsName s) :
    (visits.foldlM fill.fillVisit progress).Ends world
      (fun next after => AskedWithin root (fill.generated progress visits world)
        world.disk after.disk ∧
        ∀ item ∈ next.pending, item ∈ progress.pending ∨ ∃ visit ∈ visits,
          item.1 = visit.path fill.source)
      fun _ after => AskedWithin root (fill.generated progress visits world) world.disk
        after.disk := by
  induction visits generalizing progress world with
  | nil => exact Work.Ends.pure ⟨AskedWithin.refl h.sound _ _, fun item hitem => Or.inl hitem⟩
  | cons visit rest ih =>
      have hvisit := fillVisit_inPlace progress h (hnames visit List.mem_cons_self)
      rw [List.foldlM_cons, generated]
      cases hon : (fill.fillVisit progress visit).on world with
      | mk result mid =>
          cases result with
          | error failure =>
              rw [List.append_nil]
              exact Work.Ends.bind_of_error hon (hvisit.failed_of_error hon)
          | ok next =>
              obtain ⟨hmid, hpending⟩ := hvisit.done_of_ok hon
              refine Work.Ends.bind_of_ok hon ?_
              have hrest := @ih next mid (h.grow hmid.2.grown hmid.1)
                fun other hother => hnames other (List.mem_cons_of_mem _ hother)
              refine hrest.mono (fun last after hafter => ⟨hmid.trans hafter.1, fun item hitem => ?_⟩)
                fun _ after hafter => hmid.trans hafter
              rcases hafter.2 item hitem with hnext | ⟨other, hother, heq⟩
              · exact (hpending item hnext).imp_right fun heq => ⟨visit, List.mem_cons_self, heq⟩
              · exact Or.inr ⟨other, List.mem_cons_of_mem _ hother, heq⟩

/-! ## Writing back -/

/-- Writing back changes the files that the paths find. -/
theorem writeBack_ends {items : List (String × String)} (hsound : world.disk.Sound) :
    (writeBack items).Ends world
      (fun _ after => after.disk.Sound ∧ WritesOnly (fun place entry => entry.isFile = true ∧
        ∃ item ∈ items, after.disk.canonical item.1 = .ok place) world.disk after.disk)
      fun _ after => after.disk.Sound ∧ WritesOnly (fun place entry => entry.isFile = true ∧
        ∃ item ∈ items, after.disk.canonical item.1 = .ok place) world.disk after.disk := by
  induction items generalizing world with
  | nil => exact Work.Ends.pure ⟨hsound, WritesOnly.refl _⟩
  | cons item rest ih =>
      refine Work.Ends.bind (Work.Ends.change (fun mid hwrite => ?_) fun _ _ =>
        ⟨hsound, WritesOnly.refl _⟩)
      obtain ⟨hmid, hwrites⟩ := hsound.write hwrite
      have hboth : ∀ after : World, after.disk.Sound ∧
        WritesOnly (fun place entry => entry.isFile = true ∧
          ∃ item ∈ rest, after.disk.canonical item.1 = .ok place) mid after.disk →
          after.disk.Sound ∧ WritesOnly (fun place entry => entry.isFile = true ∧
            ∃ other ∈ item :: rest, after.disk.canonical other.1 = .ok place) world.disk
              after.disk := by
        rintro after ⟨hnew, hrest⟩
        refine ⟨hnew, hwrites.trans_mono hrest (fun place entry hin => ?_) fun place entry hin => ?_⟩
        · exact ⟨hin.1, item, List.mem_cons_self, canonical_grow hrest.grown hin.2⟩
        · obtain ⟨hfile, other, hother, hcanonical⟩ := hin
          exact ⟨hfile, other, List.mem_cons_of_mem _ hother, hcanonical⟩
      have hrest := @ih { world with disk := mid } hmid
      exact hrest.mono (fun _ after h => hboth after h) fun _ after h => hboth after h

/-! ## The whole fill -/

/-- Whether something is made in a fill in place: for what templates ask for, or in the place of a
file that is filled. -/
def MadeInPlace (given : String) (patterns : List String) (old : Disk)
    (targets : List Path) (new : Disk)
    (place : Place) (entry : Entry) : Prop :=
  (∃ root, old.canonical given = .ok root ∧ place.isWithin root = true) ∧
    (new.MadeForSome targets place entry ∨ entry.isFile = true ∧ Collects given patterns old place)

/-- What preparing a fill in place has found out. -/
structure Planned (given : String) (patterns : List String) (disk : Disk) (fill : Fill) (root : Place)
    (visits : List Visit) : Prop extends InPlaceAt fill root disk where
  canonical_given : disk.canonical given = .ok root
  collected : ∃ set, IgnoreSet.ofPatterns root.render patterns = .ok set ∧
    disk.filesOf set = .ok visits

namespace Planned

variable {given : String} {patterns : List String} {disk filled new : Disk} {targets : List Path}

/-- The files that are to be filled are there. -/
theorem file_at (h : Planned given patterns disk fill root visits) (hvisit : visit ∈ visits) :
    ∃ content executable, disk.at? (root ++ visit.names) = some (.file content executable) := by
  obtain ⟨set, hset, hvisits⟩ := h.collected
  obtain ⟨entry, hfind⟩ := canonical_eq_ok.mp h.canonical_given
  obtain ⟨hplace, hfile, _⟩ := mem_filesOf h.sound (find_at? hfind) (h.sound.not_isLink hfind)
    (IgnoreSet.base_of_ofPatterns hset) hvisits hvisit
  exact hplace ▸ hfile

theorem names_isName (h : Planned given patterns disk fill root visits) :
    ∀ visit ∈ visits, ∀ s ∈ visit.names, IsName s := by
  intro visit hvisit s hs
  obtain ⟨_, _, hfile⟩ := h.file_at hvisit
  exact h.sound.isName hfile s (List.mem_append_right _ hs)

/-- A file that is to be filled is found by its own path, and goes on being found. -/
theorem canonical_path (h : Planned given patterns disk fill root visits) (hvisit : visit ∈ visits)
    (hgrown : Grown disk new) : new.canonical (visit.path fill.source) =
      .ok (root ++ visit.names) := by
  obtain ⟨content, executable, hfile⟩ := h.file_at hvisit
  have hfind : disk.find true (Place.render (root ++ visit.names)) =
      .ok (root ++ visit.names, .file content executable) :=
    h.sound.find_render hfile (by simp [Entry.isLink])
  rw [h.source_eq, Visit.path_render (h.sound.isName hfile)]
  exact canonical_grow hgrown (canonical_eq_ok.mpr ⟨_, hfind⟩)

theorem writesOnly_asked (h : Planned given patterns disk fill root visits)
    (hasked : AskedWithin root targets disk filled) (hgrown : Grown filled new) :
    WritesOnly (MadeInPlace given patterns disk targets new) disk filled :=
  hasked.2.mono fun _ _ hin =>
    ⟨⟨root, h.canonical_given, hin.1⟩, Or.inl (hin.2.mono hgrown fun _ hmem => hmem)⟩

/-- What was written back was written over files that were filled. -/
theorem writesOnly_back (h : Planned given patterns disk fill root visits)
    (hasked : AskedWithin root targets disk filled) {items : List (String × String)}
    (hitems : ∀ item ∈ items, ∃ visit ∈ visits, item.1 = visit.path fill.source)
    (hback : WritesOnly (fun place entry => entry.isFile = true ∧
      ∃ item ∈ items, new.canonical item.1 = .ok place) filled new) :
    WritesOnly (MadeInPlace given patterns disk targets new) disk new := by
  obtain ⟨set, hset, hvisits⟩ := h.collected
  refine (h.writesOnly_asked hasked hback.grown).trans (hback.mono ?_)
  rintro place entry ⟨hfile, item, hitem, hcanonical⟩
  obtain ⟨visit, hvisit, heq⟩ := hitems item hitem
  rw [heq, h.canonical_path hvisit (hasked.2.grown.trans hback.grown), Except.ok.injEq] at hcanonical
  subst hcanonical
  exact ⟨⟨root, h.canonical_given, Place.isWithin_append _ _⟩,
    Or.inr ⟨hfile, root, set, visits, visit, h.canonical_given, hset, hvisits, hvisit, rfl⟩⟩

end Planned

/-- **A fill in place** changes nothing but what templates ask for and the files that it fills, all of
them within the directory, however it ends. -/
theorem fillDirectory_inPlace (given : String) (patterns : List String) (vars : Variables)
    (hsound : world.disk.Sound) :
    let after := ((fillDirectory given patterns vars .inPlace).on world).2
    after.disk.Sound ∧ WritesOnly (MadeInPlace given patterns world.disk
      (generatedFiles given patterns vars .inPlace world) after.disk) world.disk after.disk := by
  have hprepare := prepare_ends given patterns vars .inPlace world
  rw [fillDirectory_eq, Work.on_bind]
  unfold generatedFiles
  cases hon : (prepare given patterns vars .inPlace).on world with
  | mk result mid =>
      cases result with
      | error failure =>
          obtain hsame | ⟨target, hmode, _⟩ := hprepare.failed_of_error hon
          · simp only [hsame]
            exact ⟨hsound, WritesOnly.refl _⟩
          · exact absurd hmode (by simp)
      | ok prepared =>
          obtain ⟨fill, visits⟩ := prepared
          obtain ⟨root, set, hroot, hset, hvisits, hsource, hdisk, hroute⟩ := hprepare.done_of_ok hon
          obtain ⟨entry, hfind⟩ := canonical_eq_ok.mp hroot
          have hself : world.disk.canonical root.render = .ok root :=
            canonical_eq_ok.mpr ⟨entry, hsound.find_render (find_at? hfind)
              (by simp [hsound.not_isLink hfind])⟩
          have hplan : Planned given patterns mid.disk fill root visits :=
            ⟨⟨hroute, hsource, hdisk ▸ hsound, hdisk ▸ hself⟩, hdisk ▸ hroot, set, hset, hvisits⟩
          simp only [← hdisk]
          refine Work.Ends.always (fun after => after.disk.Sound ∧
            WritesOnly (MadeInPlace given patterns
            mid.disk (fill.generated {} visits mid) after.disk) mid.disk after.disk) ?_
          refine Work.Ends.bind ((fillVisits_inPlace hplan.toInPlaceAt hplan.names_isName).mono ?_ ?_)
          · rintro progress filled ⟨hasked, hpending⟩
            have hitems : ∀ item ∈ progress.pending.reverse, ∃ visit ∈ visits,
                item.1 = visit.path fill.source := fun item hitem =>
              (hpending item (List.mem_reverse.mp hitem)).resolve_left (by simp)
            exact (writeBack_ends hasked.1).mono
              (fun _ after h => ⟨h.1, hplan.writesOnly_back hasked hitems h.2⟩)
              fun _ after h => ⟨h.1, hplan.writesOnly_back hasked hitems h.2⟩
          · exact fun _ filled hasked => ⟨hasked.1, hplan.writesOnly_asked hasked (Grown.refl _)⟩

/-! ## What is kept -/

/-- What is ignored is not filled. -/
theorem not_collects_of_ignored {given : String} {patterns : List String} {disk : Disk}
    {names : Place}
    {set : IgnoreSet} (hsound : disk.Sound) (hroot : disk.canonical given = .ok root)
    (hset : IgnoreSet.ofPatterns root.render patterns = .ok set)
    (hignored : set.ignoresRelative (Path.toSlash ("/".intercalate names)) = true) :
    ¬ Collects given patterns disk (root ++ names) := by
  rintro ⟨root', set', visits, visit, hroot', hset', hvisits, hvisit, hplace⟩
  obtain rfl : root = root' := by simpa using hroot.symm.trans hroot'
  obtain rfl : set = set' := by simpa using hset.symm.trans hset'
  obtain rfl : names = visit.names := List.append_cancel_left hplace
  obtain ⟨entry, hfind⟩ := canonical_eq_ok.mp hroot
  obtain ⟨_, _, hkept⟩ := mem_filesOf hsound (find_at? hfind) (hsound.not_isLink hfind)
    (IgnoreSet.base_of_ofPatterns hset) hvisits hvisit
  exact absurd hignored (by simpa [Visit.isIgnored, Visit.name, Visit.relative] using hkept)

/-- **A fill in place keeps what it does not fill** and no template asks for. -/
theorem fillDirectory_keeps {given : String} {patterns : List String} {vars : Variables}
    {place : Place}
    {entry : Entry} (hsound : world.disk.Sound) (hat : world.disk.at? place = some entry)
    (hnot : ¬ Collects given patterns world.disk place)
    (hasked : ∀ target ∈ generatedFiles given patterns vars .inPlace world,
      ((fillDirectory given patterns vars .inPlace).on world).2.disk.canonical target.render
        ≠ .ok place) :
    ((fillDirectory given patterns vars .inPlace).on world).2.disk.at? place = some entry := by
  obtain ⟨_, hwrites⟩ := fillDirectory_inPlace given patterns vars hsound
  rcases hwrites.changed place with heq | ⟨now, _, hfresh, _, hmade⟩
  · rw [heq, hat]
  · rw [hat] at hfresh
    rcases hmade with ⟨target, htarget, ⟨_, hcanonical⟩ | ⟨hdir, _⟩⟩ | ⟨_, hcollects⟩
    · exact absurd hcanonical (hasked target htarget)
    · -- No directory is made where something is.
      subst hdir
      cases hfresh
    · exact absurd hcollects hnot

end Stencil.Fill
