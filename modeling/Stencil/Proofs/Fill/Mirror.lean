import Stencil.Proofs.Files.Free
import Stencil.Proofs.Fill.Parts

/-!
# Filling into another directory

A mirrored fill makes a directory and writes everything into it. Files are copied there without a look
at where links lead, so nothing may be there that leads out again: the place of the directory has to
be free (`Disk.IsFree`). Then all that is there was made by the fill itself, and a fill makes no
links.

That the path of the directory leads nowhere yet is not enough. Steps up behind a missing directory
are taken once it was made, and may lead to a directory that was there all along.

A fill in the terminal changes nothing at all (`fillDirectory_terminal`).

Whatever the path of the other directory leads to, and whatever is there already, a mirrored fill takes nothing away, so
the path leads to the same place all the time, and the disk stays sound (`fillDirectory_grows`). Where the files go is
another question, for links in the directory may lead out of it.
-/

namespace Stencil

open Files Files.Disk

namespace Fill

variable {fill : Fill} {progress : Progress} {world : World} {visit : Visit} {visits : List Visit}
  {room names : Place}

/-- Where something is written within a place, and nothing else is done. -/
def WroteWithin (room : Place) (old new : Disk) : Prop :=
  new.Sound ∧ WritesOnly (fun place _ => place.isWithin room = true) old new

theorem WroteWithin.refl {disk : Disk} (hsound : disk.Sound) (room : Place) :
    WroteWithin room disk disk :=
  ⟨hsound, WritesOnly.refl disk⟩

theorem WroteWithin.trans {old mid new : Disk} (h : WroteWithin room old mid)
    (h' : WroteWithin room mid new) :
    WroteWithin room old new :=
  ⟨h'.1, h.2.trans h'.2⟩

/-- A file is copied within the place that its path is confined to. -/
theorem writeLike_ends {file destination : String} {content : ByteArray} (hsound : world.disk.Sound)
    (hpath : Spells destination names) (hconfined : world.disk.Confined room names) :
    (writeLike file destination content).Ends world (fun _ after =>
      WroteWithin room world.disk after.disk)
      fun _ after => WroteWithin room world.disk after.disk := by
  have hwithin : ∀ {new : Disk}, new.Sound ∧ WritesOnly (new.MadeFor destination) world.disk new →
      WroteWithin room world.disk new :=
    fun hnew => ⟨hnew.1, (hconfined.writesOnly hsound hpath hnew.2).mono fun _ _ h => h.1⟩
  exact (writeLike_writes hsound hpath).mono (fun _ _ => hwithin) fun _ _ => hwithin

/-! ## Filling the files -/

/-- What is to hold of a mirrored fill at any time. -/
structure MirrorAt (fill : Fill) (room : Place) (disk : Disk) : Prop where
  route_eq : fill.route = .mirror room.render
  sound : disk.Sound
  canonical : disk.canonical (Place.render room) = .ok room
  noLink : ∀ place, place.isWithin room = true → ∀ target, disk.at? place ≠ some (.link target)

namespace MirrorAt

variable {disk disk' : Disk}

theorem grow (h : MirrorAt fill room disk) (hwrote : WroteWithin room disk disk') :
    MirrorAt fill room disk' :=
  ⟨h.route_eq, hwrote.1, canonical_grow hwrote.2.grown h.canonical, fun place hin target hat =>
    h.noLink place hin target (hwrote.2.link_of_link hat)⟩

theorem isName (h : MirrorAt fill room disk) : ∀ s ∈ room, IsName s := by
  obtain ⟨entry, hfind⟩ := canonical_eq_ok.mp h.canonical
  exact h.sound.isName (find_at? hfind)

/-- Whatever lies behind the path of the directory is confined to it. -/
theorem confined (h : MirrorAt fill room disk) (names : Place) : disk.Confined room (room ++ names) :=
  ⟨room, names, room, rfl, h.canonical, Place.isWithin_self room, fun more _ _ target =>
    h.noLink _ (Place.isWithin_append room more) target⟩

end MirrorAt

/-- A file is filled within the directory, and nothing is kept to be written back. -/
theorem fillVisit_mirror (h : MirrorAt fill room world.disk) (hnames : ∀ s ∈ visit.names, IsName s) :
    (fill.fillVisit progress visit).Ends world
      (fun next after => WroteWithin room world.disk after.disk ∧ next.pending = progress.pending)
      fun _ after => WroteWithin room world.disk after.disk := by
  have hpath : Spells (Path.join room.render visit.relative) (room ++ visit.names) :=
    Visit.spells_join h.isName hnames
  obtain ⟨directory, hdirectory, hscope⟩ := scopeNextTo_eq h.isName hpath
  refine Work.Ends.bind (Work.Ends.ask (fun content _ => ?_) fun _ _ => WroteWithin.refl h.sound room)
  split
  · unfold fillText
    simp only [h.route_eq]
    refine Work.Ends.bind ((renderFile_ends hscope hdirectory h.sound h.canonical).mono ?_ ?_)
    · rintro result mid ⟨hpending, hmid, hwrites⟩
      have hwrote : WroteWithin room world.disk mid.disk := ⟨hmid, hwrites.mono fun _ _ hin => hin.1⟩
      have hconfined := (h.grow hwrote).confined visit.names
      refine Work.Ends.bind ((writeLike_ends hmid hpath hconfined).mono ?_ ?_)
      · exact fun _ after hafter => Work.Ends.pure ⟨hwrote.trans hafter, hpending⟩
      · exact fun _ after hafter => hwrote.trans hafter
    · exact fun _ mid hmid => ⟨hmid.1, hmid.2.mono fun _ _ hin => hin.1⟩
  · unfold passBinary
    simp only [h.route_eq]
    refine Work.Ends.bind ((writeLike_ends h.sound hpath (h.confined visit.names)).mono ?_ ?_)
    · exact fun _ after hafter => Work.Ends.pure ⟨hafter, rfl⟩
    · exact fun _ after hafter => hafter

theorem fillVisits_mirror (h : MirrorAt fill room world.disk)
    (hnames : ∀ visit ∈ visits, ∀ s ∈ visit.names, IsName s) :
    (visits.foldlM fill.fillVisit progress).Ends world
      (fun last after => WroteWithin room world.disk after.disk ∧ last.pending = progress.pending)
      fun _ after => WroteWithin room world.disk after.disk := by
  refine Work.Ends.foldlM ⟨WroteWithin.refl h.sound room, rfl⟩ ?_
  intro visit hvisit next mid hmid
  refine (fillVisit_mirror (h.grow hmid.1) (hnames visit hvisit)).mono ?_ ?_
  · exact fun _ _ hafter => ⟨hmid.1.trans hafter.1, hafter.2.trans hmid.2⟩
  · exact fun _ _ hafter => hmid.1.trans hafter

/-! ## The whole fill -/

/-- Whether something is made in a mirrored fill: within the directory, where nothing was before, or
it is a directory around it. -/
def MadeInMirror (target : String) (old new : Disk) (place : Place) (entry : Entry) : Prop :=
  (∃ root, new.canonical target = .ok root ∧ old.at? root = none ∧ place.isWithin root = true) ∨
    new.Made (target :: (Path.ofString target).outer.map Path.render) place entry

/-- What a mirrored fill has done to a disk. -/
structure Mirrored (target : String) (old new : Disk) : Prop where
  sound : new.Sound
  writes : WritesOnly (MadeInMirror target old new) old new
  /-- If anything was done at all the path finds what it finds once the directory was made. -/
  found : new = old ∨ ∀ followLast place entry, new.find followLast target = .ok (place, entry) →
    ∃ made, (old.makeDirectories target).1.find followLast target = .ok (place, made) ∧ made.Alike entry

theorem Mirrored.refl {disk : Disk} (hsound : disk.Sound) (target : String) :
    Mirrored target disk disk :=
  ⟨hsound, .refl disk, Or.inl rfl⟩

/-- If anything was done at all the path leads to where nothing was before. -/
theorem Mirrored.free {old new : Disk} {target : String} (h : Mirrored target old new) (hfree : old.IsFree target) :
    new = old ∨ ∀ place, new.canonical target = .ok place → old.at? place = none := by
  refine h.found.imp_right fun hfound place hplace => ?_
  obtain ⟨entry, hfind⟩ := canonical_eq_ok.mp hplace
  obtain ⟨made, hmade, -⟩ := hfound true place entry hfind
  exact hfree place (canonical_eq_ok.mpr ⟨made, hmade⟩)

theorem Mirrored.of_made {disk : Disk} {target : String} (hsound : disk.Sound) :
    Mirrored target disk (disk.makeDirectories target).1 := by
  obtain ⟨hnew, hwrites⟩ := hsound.makeDirectories target
  exact ⟨hnew, hwrites.mono fun _ _ hmade => Or.inr hmade,
    Or.inr fun _ _ entry hfind => ⟨entry, hfind, entry.alike_refl⟩⟩

/-- What is written within the directory afterwards is part of what is done. -/
theorem Mirrored.of_wrote {disk new : Disk} {target : String} (hsound : disk.Sound)
    (hfree : disk.IsFree target)
    (hroom : (disk.makeDirectories target).1.canonical target = .ok room)
    (hwrote : WroteWithin room (disk.makeDirectories target).1 new) : Mirrored target disk new := by
  obtain ⟨_, hmade⟩ := hsound.makeDirectories target
  have hcanonical := canonical_grow hwrote.2.grown hroom
  refine ⟨hwrote.1, hmade.trans_mono hwrote.2 (fun _ _ h => ?_) (fun place _ hin => ?_),
    Or.inr fun followLast place entry hplace => ?_⟩
  · exact Or.inr (h.mono hwrote.2.grown fun _ h => h)
  · exact Or.inl ⟨room, hcanonical, hfree room hroom, hin⟩
  · -- What was found at first is found in the end.
    obtain ⟨there, made, hthere⟩ : ∃ there made,
        (disk.makeDirectories target).1.find followLast target = .ok (there, made) := by
      obtain ⟨made, hfind⟩ := canonical_eq_ok.mp hroom
      cases followLast with
      | true => exact ⟨room, made, hfind⟩
      | false => exact hasEntry_iff.mp (hasEntry_of_has (has_iff.mpr ⟨room, made, hfind⟩))
    obtain ⟨grown, halike, hgrown⟩ := find_grow hwrote.2.grown hthere
    rw [hplace, Except.ok.injEq, Prod.mk.injEq] at hgrown
    obtain ⟨rfl, rfl⟩ := hgrown
    exact ⟨made, hthere, halike⟩

/-- **Whatever was there is still there.** -/
theorem Mirrored.at?_eq {old new : Disk} {target : String} (h : Mirrored target old new)
    (hsound : old.Sound)
    {place : Place} {entry : Entry} (hat : old.at? place = some entry) :
      new.at? place = some entry := by
  rcases h.writes.changed place with heq | ⟨made, _, hfresh, hmade⟩
  · rw [heq, hat]
  · rcases hmade with ⟨root, _, hnone, hin⟩ | ⟨rfl, _⟩
    · rw [hsound.at?_within_eq_none hnone hin] at hat
      exact absurd hat (by simp)
    · rw [hat] at hfresh
      cases hfresh

/-- In a free place there are no links once its directory was made. -/
theorem noLink_of_isFree {target : String} {disk : Disk} (hsound : disk.Sound)
    (hfree : disk.IsFree target)
    (hroom : (disk.makeDirectories target).1.canonical target = .ok room) {place : Place}
    (hin : place.isWithin room = true) (link : String) :
    (disk.makeDirectories target).1.at? place ≠ some (.link link) := by
  intro hlink
  have hbefore := (hsound.makeDirectories target).2.link_of_link hlink
  rw [hsound.at?_within_eq_none (hfree room hroom) hin] at hbefore
  exact absurd hbefore (by simp)

/-- **A mirrored fill** into a free place makes directories and writes within that place, however it ends. If it
succeeds the place was found once the directory was made. -/
theorem fillDirectory_mirror_ends (given : String) (patterns : List String) (vars : Variables) (target : String)
    (hsound : world.disk.Sound) (hfree : world.disk.IsFree target) :
    (fillDirectory given patterns vars (.mirror target)).Ends world
      (fun _ after => Mirrored target world.disk after.disk ∧
        ∃ room, (world.disk.makeDirectories target).1.canonical target = .ok room ∧
          WroteWithin room (world.disk.makeDirectories target).1 after.disk)
      fun _ after => Mirrored target world.disk after.disk := by
  rw [fillDirectory_eq]
  refine Work.Ends.bind ((prepare_mirror_ends given patterns vars target hsound).mono ?_ ?_)
  · rintro ⟨fill, visits⟩ mid ⟨hdisk, hnames, room, hroom, hself, hroute⟩
    simp only at hnames hroute
    rw [hdisk] at hroom
    have hmirror : MirrorAt fill room mid.disk :=
      ⟨hroute, hdisk ▸ (hsound.makeDirectories target).1, hself, fun place hin link => by
        rw [hdisk]
        exact noLink_of_isFree hsound hfree hroom hin link⟩
    have hend : ∀ after : World, WroteWithin room mid.disk after.disk →
        Mirrored target world.disk after.disk :=
      fun after hwrote => .of_wrote hsound hfree hroom (hdisk ▸ hwrote)
    refine Work.Ends.bind ((fillVisits_mirror hmirror hnames).mono ?_ ?_)
    · rintro progress after ⟨hwrote, hpending⟩
      rw [hpending]
      exact Work.Ends.pure ⟨hend after hwrote, room, hroom, hdisk ▸ hwrote⟩
    · exact fun _ after hwrote => hend after hwrote
  · rintro _ after (hsame | ⟨other, hother, hmade⟩)
    · rw [hsame]
      exact .refl hsound target
    · obtain rfl : target = other := by simpa using hother
      rw [hmade]
      exact .of_made hsound

theorem fillDirectory_mirror (given : String) (patterns : List String) (vars : Variables) (target : String)
    (hsound : world.disk.Sound) (hfree : world.disk.IsFree target) :
    Mirrored target world.disk ((fillDirectory given patterns vars (.mirror target)).on world).2.disk :=
  Work.Ends.always (fun after => Mirrored target world.disk after.disk)
    ((fillDirectory_mirror_ends given patterns vars target hsound hfree).mono (fun _ _ h => h.1) fun _ _ h => h)

/-! ## Nothing is printed -/

theorem renderFile_silent (progress : Progress) (name text : String) (scope : Template.Scope) :
    (fill.renderFile progress name text scope).Silent := by
  refine .bind .disk fun _ => .bind .setDisk fun _ => ?_
  split
  · exact .pure
  all_goals exact .fail

theorem writeLike_silent (file destination : String) (content : ByteArray) :
    (writeLike file destination content).Silent :=
  .bind .attempt fun _ => .bind .ask fun _ => .change

/-- A file that goes to another directory is not printed. -/
theorem fillVisit_silent {target : String} (hroute : fill.route = .mirror target) (progress : Progress)
    (visit : Visit) : (fill.fillVisit progress visit).Silent := by
  refine .bind .ask fun _ => ?_
  split
  · unfold fillText
    simp only [hroute]
    exact .bind (renderFile_silent _ _ _ _) fun _ => .bind (writeLike_silent _ _ _) fun _ => .pure
  · unfold passBinary
    simp only [hroute]
    exact .bind (writeLike_silent _ _ _) fun _ => .pure

theorem writeBack_silent (pending : List (String × String)) : (writeBack pending).Silent := by
  induction pending with
  | nil => exact .pure
  | cons file rest ih => exact .bind .change fun _ => ih

/-- **A mirrored fill changes nothing but the disk.** -/
theorem fillDirectory_mirror_silent (given : String) (patterns : List String) (vars : Variables) (target : String) :
    (fillDirectory given patterns vars (.mirror target)).Silent := by
  refine .bind .ask fun _ => .bind .ofExcept fun _ => ?_
  simp only [routeOf, bind_assoc, pure_bind]
  refine .bind .attempt fun _ => .bind .ask fun _ => .bind .disk fun _ => .bind .ofExcept fun _ => ?_
  exact .bind (.foldlM fun _ _ => fillVisit_silent rfl _ _) fun _ => writeBack_silent _

/-! ## On another disk -/

theorem routeOf_of_made {target : String} {base : Disk} {route : Route} {mid : World}
    (hmake : base.makeDirectories target = ((world.disk.makeDirectories target).1, .ok ()))
    (h : (routeOf (.mirror target)).on world = (.ok route, mid)) :
    (routeOf (.mirror target)).on { world with disk := base } = (.ok route, mid) := by
  rw [← h]
  simp only [routeOf, Work.on_bind, Work.on_attempt] at h ⊢
  rcases hold : world.disk.makeDirectories target with ⟨made, fault | ⟨⟩⟩ <;> rw [hold] at hmake h
  · cases h
  · rw [hmake]

/-- **A mirrored fill that succeeds does the same on another disk**, if the source is found there and the same is made
for the directory. -/
theorem fillDirectory_of_made {given target : String} {patterns : List String} {vars : Variables} {after : World}
    {base : Disk} (hgrown : Grown world.disk base)
    (hmake : base.makeDirectories target = ((world.disk.makeDirectories target).1, .ok ()))
    (h : (fillDirectory given patterns vars (.mirror target)).on world = (.ok (), after)) :
    (fillDirectory given patterns vars (.mirror target)).on { world with disk := base } = (.ok (), after) := by
  obtain ⟨root, hroot⟩ := canonical_of_done h
  simp only [fillDirectory, Work.on_bind, Work.on_ask, hroot, canonical_grow hgrown hroot] at h ⊢
  cases hset : IgnoreSet.ofPatterns root.render patterns with
  | error fault =>
      rw [hset] at h
      cases h
  | ok set =>
      rw [hset] at h
      simp only [Work.on_ofExcept_ok] at h ⊢
      rcases hroute : (routeOf (.mirror target)).on world with ⟨failure | route, mid⟩ <;> rw [hroute] at h
      · cases h
      · rw [routeOf_of_made hmake hroute]
        exact h

/-! ## In the terminal -/

theorem fillVisit_terminal (hroute : fill.route = .terminal) :
    (fill.fillVisit progress visit).Ends world
      (fun next after => after.disk = world.disk ∧ next.pending = progress.pending)
      fun _ after => after.disk = world.disk := by
  refine Work.Ends.bind (Work.Ends.ask (fun content _ => ?_) fun _ _ => rfl)
  split
  · rename_i text _
    unfold fillText
    simp only [hroute]
    by_cases hasks : asksForFiles text = true
    · rw [if_pos hasks]
      exact Work.Ends.bind (Work.Ends.fail rfl)
    · rw [if_neg hasks]
      refine Work.Ends.bind ((renderFile_nowhere visit.name text).mono ?_ ?_)
      · rintro result mid ⟨hmid, hpending⟩
        exact Work.Ends.bind (Work.Ends.print (Work.Ends.pure ⟨hmid, hpending⟩))
      · exact fun _ mid hmid => hmid
  · unfold passBinary
    simp only [hroute]
    exact Work.Ends.bind (Work.Ends.print (Work.Ends.pure ⟨rfl, rfl⟩))

theorem fillVisits_terminal (hroute : fill.route = .terminal) :
    (visits.foldlM fill.fillVisit progress).Ends world
      (fun last after => after.disk = world.disk ∧ last.pending = progress.pending)
      fun _ after => after.disk = world.disk := by
  refine Work.Ends.foldlM ⟨rfl, rfl⟩ ?_
  intro visit _ next mid hmid
  refine (fillVisit_terminal hroute).mono ?_ ?_
  · exact fun _ _ hafter => ⟨hafter.1.trans hmid.1, hafter.2.trans hmid.2⟩
  · exact fun _ _ hafter => hafter.trans hmid.1

/-- **A fill in the terminal changes nothing.** -/
theorem fillDirectory_terminal (given : String) (patterns : List String) (vars : Variables)
    (world : World) :
    ((fillDirectory given patterns vars .terminal).on world).2.disk = world.disk := by
  refine Work.Ends.always (fun after => after.disk = world.disk) ?_
  rw [fillDirectory_eq]
  refine Work.Ends.bind ((prepare_ends given patterns vars .terminal world).mono ?_ ?_)
  · rintro ⟨fill, visits⟩ mid ⟨_, _, _, _, _, _, hdisk, hroute⟩
    refine Work.Ends.bind ?_
    refine (fillVisits_terminal hroute).mono ?_ fun _ after hafter => hafter.trans hdisk
    rintro progress after ⟨hafter, hpending⟩
    rw [hpending]
    exact Work.Ends.pure (hafter.trans hdisk)
  · rintro _ after (hsame | ⟨other, hother, _⟩)
    · exact congrArg _ rfl |>.trans hsame
    · exact absurd hother (by simp)

/-! ## Nothing is taken away -/

/-- Whether a disk is sound and has whatever another one has, or something alike. -/
def Grew (old new : Disk) : Prop := new.Sound ∧ Grown old new

theorem Grew.refl {disk : Disk} (hsound : disk.Sound) : Grew disk disk := ⟨hsound, .refl disk⟩

theorem Grew.trans {old mid new : Disk} (h : Grew old mid) (h' : Grew mid new) : Grew old new :=
  ⟨h'.1, h.2.trans h'.2⟩

/-- Copying a file takes nothing away. -/
theorem writeLike_grows {file destination : String} {content : ByteArray} {names : Place} (hsound : world.disk.Sound)
    (hpath : Spells destination names) :
    (writeLike file destination content).Ends world (fun _ after => Grew world.disk after.disk)
      fun _ after => Grew world.disk after.disk :=
  (writeLike_writes hsound hpath).mono (fun _ _ h => ⟨h.1, h.2.grown⟩) fun _ _ h => ⟨h.1, h.2.grown⟩

/-- Filling a file takes nothing away, and nothing is kept to be written back. -/
theorem fillVisit_grows (hroute : fill.route = .mirror room.render) (hsound : world.disk.Sound)
    (hroom : world.disk.canonical (Place.render room) = .ok room) (hnames : ∀ s ∈ visit.names, IsName s) :
    (fill.fillVisit progress visit).Ends world
      (fun next after => Grew world.disk after.disk ∧ next.pending = progress.pending)
      fun _ after => Grew world.disk after.disk := by
  obtain ⟨entry, hfind⟩ := canonical_eq_ok.mp hroom
  have hroot := hsound.isName (find_at? hfind)
  have hpath : Spells (Path.join room.render visit.relative) (room ++ visit.names) := Visit.spells_join hroot hnames
  obtain ⟨directory, hdirectory, hscope⟩ := scopeNextTo_eq hroot hpath
  -- A template may have files written before its own text is, even if it cannot be rendered in the end.
  refine Work.Ends.bind (Work.Ends.ask (fun content _ => ?_) fun _ _ => .refl hsound)
  split
  · unfold fillText
    simp only [hroute]
    refine Work.Ends.bind ((renderFile_ends hscope hdirectory hsound hroom).mono ?_ ?_)
    · rintro result mid ⟨hpending, hmid, hwrites⟩
      have hgrew : Grew world.disk mid.disk := ⟨hmid, hwrites.grown⟩
      refine Work.Ends.bind ((writeLike_grows hmid hpath).mono ?_ ?_)
      · exact fun _ after hafter => Work.Ends.pure ⟨hgrew.trans hafter, hpending⟩
      · exact fun _ after hafter => hgrew.trans hafter
    · exact fun _ mid hmid => ⟨hmid.1, hmid.2.grown⟩
  · unfold passBinary
    simp only [hroute]
    refine Work.Ends.bind ((writeLike_grows hsound hpath).mono ?_ ?_)
    · exact fun _ after hafter => Work.Ends.pure ⟨hafter, rfl⟩
    · exact fun _ after hafter => hafter

/-- File after file takes nothing away. -/
theorem fillVisits_grow (hroute : fill.route = .mirror room.render) (hsound : world.disk.Sound)
    (hroom : world.disk.canonical (Place.render room) = .ok room)
    (hnames : ∀ visit ∈ visits, ∀ s ∈ visit.names, IsName s) :
    (visits.foldlM fill.fillVisit progress).Ends world
      (fun last after => Grew world.disk after.disk ∧ last.pending = progress.pending)
      fun _ after => Grew world.disk after.disk := by
  refine Work.Ends.foldlM ⟨.refl hsound, rfl⟩ ?_
  intro visit hvisit next mid hmid
  refine (fillVisit_grows hroute hmid.1.1 (canonical_grow hmid.1.2 hroom) (hnames visit hvisit)).mono ?_ ?_
  · exact fun _ _ hafter => ⟨hmid.1.trans hafter.1, hafter.2.trans hmid.2⟩
  · exact fun _ _ hafter => hmid.1.trans hafter

/-- **A mirrored fill takes nothing away**, however it ends. -/
theorem fillDirectory_grows (given : String) (patterns : List String) (vars : Variables) (target : String)
    (hsound : world.disk.Sound) :
    (fillDirectory given patterns vars (.mirror target)).Ends world (fun _ after => Grew world.disk after.disk)
      fun _ after => Grew world.disk after.disk := by
  obtain ⟨hmade, hwrites⟩ := hsound.makeDirectories target
  rw [fillDirectory_eq]
  refine Work.Ends.bind ((prepare_mirror_ends given patterns vars target hsound).mono ?_ ?_)
  · rintro ⟨fill, visits⟩ mid ⟨hdisk, hnames, room, -, hself, hroute⟩
    have hmid : Grew world.disk mid.disk := hdisk ▸ ⟨hmade, hwrites.grown⟩
    refine Work.Ends.bind ((fillVisits_grow hroute hmid.1 hself hnames).mono ?_ ?_)
    · rintro progress after ⟨hafter, hpending⟩
      rw [hpending]
      exact Work.Ends.pure (hmid.trans hafter)
    · exact fun _ after hafter => hmid.trans hafter
  · rintro _ after (hsame | ⟨other, hother, hdisk⟩)
    · rw [hsame]
      exact .refl hsound
    · obtain rfl : target = other := by simpa using hother
      exact hdisk ▸ ⟨hmade, hwrites.grown⟩

end Fill

end Stencil
