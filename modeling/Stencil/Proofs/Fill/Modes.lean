import Stencil.Proofs.Fill.Mirroring
import Stencil.Proofs.Fill.WritingBack

/-!
# The three ways to fill a template

A template is filled in place, into another directory or in the terminal, and what becomes of its files is the
same (`fillDirectory_modes`): what was foretold before anything was done. Either all three fail, and for the
reason for which the first file that cannot be rendered cannot be; or all three succeed, and the same texts
are written over the files, are written where the files are copied to, or are printed.

That is so as long as the templates do not learn the difference. They could do so by a call of the function
that writes files, by the name of the writer, which shows where files may be written, and by a path that leads
into the other directory.
-/

namespace Stencil.Fill

open Files Files.Disk Template

variable {given : String} {patterns : List String} {vars : Variables} {root room : Place}
  {visits : List Visit} {visit : Visit} {fill : Fill} {progress : Progress} {world : World}
  {target : String} {old new : Disk} {files : List (Visit × Option String)}

/-! ## In place -/

theorem deliver_inPlace (hroute : fill.route = .inPlace) (content : ByteArray) (text? : Option String) :
    (fill.deliver progress visit content text?).on world =
      (.ok { progress with pending := (backlog fill.source [(visit, text?)]).reverse ++ progress.pending },
        world) := by
  cases text? with
  | none => simp only [deliver, passBinary, hroute]; rfl
  | some filled => simp only [deliver, hroute]; rfl

/-- Where a fill in place is when some files are done and others are left. -/
structure UnderwayInPlace (fill : Fill) (visits : List Visit) (world : World)
    (done : List (Visit × Option String)) (rest : List Visit) (progress : Progress) (after : World) : Prop
    extends Underway fill world.disk visits done rest progress where
  pending_eq : progress.pending = (backlog fill.source done).reverse
  world_eq : after = world

/-- Each text waits to be written back. -/
theorem fillVisits_inPlace_eq (fill : Fill) (hsound : world.disk.Sound)
    (hgather : gather given patterns world.disk = .ok (root, visits)) (hsource : fill.source = root.render)
    (hroute : fill.route = .inPlace) (hquiet : ∀ visit ∈ visits, fill.QuietAt world.disk visit) :
    match fill.foretellAll world.disk visits with
    | .ok files => ∃ last, (visits.foldlM fill.fillVisit {}).on world = (.ok last, world) ∧
        last.pending.reverse = backlog fill.source files
    | .error failure => ((visits.foldlM fill.fillVisit {}).on world).1 = .error failure := by
  have hfold := fillVisits_forecast fill world.disk (UnderwayInPlace fill visits world) ?_
    (show UnderwayInPlace fill visits world [] visits {} world from
      ⟨.start fill world.disk visits, rfl, rfl⟩)
  · revert hfold
    cases fill.foretellAll world.disk visits with
    | error failure => exact id
    | ok files =>
        rintro ⟨last, _, hon, h⟩
        exact ⟨last, h.world_eq ▸ hon, by simp [h.pending_eq]⟩
  · intro done visit rest progress after h
    obtain rfl := h.world_eq
    obtain ⟨content, _, _, hfind⟩ := file_of_gather hsound hgather h.mem
    have hread : after.disk.read (visit.path fill.source) = .ok content := by
      simp only [hsource, Disk.read, hfind]
    obtain ⟨loaded, hloaded, hon⟩ := fillVisit_eq hread (.refl fill _ _ visit) (hquiet visit h.mem) h.remembers
    cases hplan : fill.foretell after.disk .nowhere visit with
    | error failure =>
        rw [hplan] at hon
        simp only [hon]
    | ok text? =>
        rw [hplan] at hon
        refine ⟨_, after, hon.trans (deliver_inPlace hroute content text?), h.next hloaded text?, ?_, rfl⟩
        simp only [h.pending_eq, backlog, List.filterMap_append, List.reverse_append]

/-! ## In the terminal -/

/-- What is printed for a file. -/
def shown (file : Visit × Option String) : String :=
  match file.2 with
  | some filled => block file.1.name filled
  | none => omitted file.1.name

theorem deliver_terminal (hroute : fill.route = .terminal) (content : ByteArray)
    (text? : Option String) :
    (fill.deliver progress visit content text?).on world =
      (.ok progress, { world with printed := world.printed ++ shown (visit, text?) }) := by
  cases text? with
  | none => simp only [deliver, passBinary, hroute, Work.on_bind, Work.on_print, Work.on_pure, shown]
  | some filled => simp only [deliver, hroute, Work.on_bind, Work.on_print, Work.on_pure, shown]

/-- Where a fill in the terminal is when some files are done and others are left. -/
structure UnderwayInTerminal (fill : Fill) (visits : List Visit) (world : World)
    (done : List (Visit × Option String)) (rest : List Visit) (progress : Progress) (after : World) : Prop
    extends Underway fill world.disk visits done rest progress where
  pending_eq : progress.pending = []
  world_eq : after = { world with printed := world.printed ++ String.join (done.map shown) }

/-- Each file is shown. -/
theorem fillVisits_terminal_eq (fill : Fill) (hsound : world.disk.Sound)
    (hgather : gather given patterns world.disk = .ok (root, visits)) (hsource : fill.source = root.render)
    (hroute : fill.route = .terminal) (hquiet : ∀ visit ∈ visits, fill.QuietAt world.disk visit) :
    match fill.foretellAll world.disk visits with
    | .ok files => ∃ last, (visits.foldlM fill.fillVisit {}).on world =
        (.ok last, { world with printed := world.printed ++ String.join (files.map shown) }) ∧
        last.pending = []
    | .error failure => ((visits.foldlM fill.fillVisit {}).on world).1 = .error failure := by
  have hfold := fillVisits_forecast fill world.disk (UnderwayInTerminal fill visits world) ?_
    (show UnderwayInTerminal fill visits world [] visits {} world from
      ⟨.start fill world.disk visits, rfl, by simp⟩)
  · revert hfold
    cases fill.foretellAll world.disk visits with
    | error failure => exact id
    | ok files =>
        rintro ⟨last, after, hon, h⟩
        exact ⟨last, h.world_eq ▸ hon, h.pending_eq⟩
  · intro done visit rest progress mid h
    obtain ⟨content, _, _, hfind⟩ := file_of_gather hsound hgather h.mem
    have hread : world.disk.read (visit.path fill.source) = .ok content := by
      simp only [hsource, Disk.read, hfind]
    have hreads : fill.Reads world.disk .nowhere visit mid.disk := by
      rw [h.world_eq]
      exact .refl fill _ _ visit
    obtain ⟨loaded, hloaded, hon⟩ := fillVisit_eq hread hreads (hquiet visit h.mem) h.remembers
    cases hplan : fill.foretell world.disk .nowhere visit with
    | error failure =>
        rw [hplan] at hon
        simp only [hon]
    | ok text? =>
        rw [hplan] at hon
        refine ⟨_, _, hon.trans (deliver_terminal hroute content text?), h.next hloaded text?,
          h.pending_eq, ?_⟩
        simp [h.world_eq, String.append_assoc]

/-! ## Into another directory -/

/-- **What a fill into another directory has done**: in there are the files, like the originals but for the
texts, the directories around them and nothing else; the template is as it was, and so is all that was there
before. -/
structure FilledInto (target : String) (root room : Place) (files : List (Visit × Option String))
    (old new : Disk) : Prop where
  canonical : new.canonical target = .ok room
  written : ∀ file ∈ files, ∃ content executable,
    old.at? (root ++ file.1.names) = some (.file content executable) ∧
    new.at? (room ++ file.1.names) = some (.file (filledContent content file.2) executable)
  inside : ∀ names entry, new.at? (room ++ names) = some entry →
    (entry = .directory ∧ (names = [] ∨ ∃ file ∈ files, names <+: file.1.names)) ∨
      ∃ file ∈ files, names = file.1.names
  source : ∀ place, place.isWithin root = true → new.at? place = old.at? place
  kept : ∀ place entry, old.at? place = some entry → new.at? place = some entry
  around : ∀ place, place.isWithin room = false →
    new.at? place = (old.makeDirectories target).1.at? place

theorem MirroringAt.filledInto (h : MirroringAt fill target root room old files new)
    (hsound : old.Sound) (hapart : old.IsApart target root room) {entry : Entry}
    (hroot : old.at? root = some entry) : FilledInto target root room files old new := by
  have haround : ∀ place, place.isWithin room = false →
      new.at? place = (old.makeDirectories target).1.at? place := fun place hout =>
    h.wrote.2.at?_eq fun _ hin => by rw [hout] at hin; cases hin
  refine ⟨canonical_grow h.wrote.2.grown hapart.canonical, h.written, h.inside, fun place hin => ?_,
    fun place entry => h.kept_old hsound hapart, haround⟩
  rw [haround place (hapart.not_isWithin_both hsound hroot hin), hapart.spared place hin]

/-- A fill into another directory finds out the same, and makes the directory. -/
theorem prepare_mirror (vars : Variables) (hsound : world.disk.Sound)
    (hgather : gather given patterns world.disk = .ok (root, visits))
    (hapart : world.disk.IsApart target root room) :
    (prepare given patterns vars (.mirror target)).on world =
      (.ok ({ given, source := root.render, context := vars.context, route := .mirror room.render },
        visits), { world with disk := (world.disk.makeDirectories target).1 }) := by
  obtain ⟨hroot, set, hset, hfiles⟩ := gather_eq_ok.mp hgather
  obtain ⟨entry, hfind⟩ := canonical_eq_ok.mp hroot
  have hsame := filesOf_congr hsound (hsound.makeDirectories target).1 (find_at? hfind)
    (hsound.not_isLink hfind) (IgnoreSet.base_of_ofPatterns hset) hapart.spared
  have hmade := hapart.made
  have hroom := hapart.canonical
  have hroute : (routeOf (.mirror target)).on world = (.ok (.mirror room.render),
      { world with disk := (world.disk.makeDirectories target).1 }) := by
    rcases hattempt : world.disk.makeDirectories target with ⟨made, result⟩
    rw [hattempt] at hmade hroom
    obtain rfl : result = .ok () := hmade
    simp only [routeOf, Work.on_bind, Work.on_attempt, hattempt, Work.on_ask, hroom, Work.on_pure]
  rw [prepare, Work.on_bind, Work.on_ask, hroot]
  simp only [Work.on_bind, hset, Work.on_ofExcept_ok, hroute, Work.on_disk, hsame, hfiles, Work.on_pure]

/-! ## All three -/

/-- Whether all that goes into a fill is quiet. -/
def IsQuietFill (given : String) (patterns : List String) (vars : Variables) (disk : Disk) : Prop :=
  ∀ root visits, gather given patterns disk = .ok (root, visits) →
    ∀ visit ∈ visits, (plain given vars root).QuietAt disk visit

/-- Whether every template that files ask for and that is missing on one disk is missing on another, too. -/
def MissingStays (given : String) (patterns : List String) (vars : Variables) (old new : Disk) : Prop :=
  ∀ root visits, gather given patterns old = .ok (root, visits) →
    ∀ visit ∈ visits, ∀ name ∈ (plain given vars root).consultedBy old .nowhere visit,
      (plain given vars root).templates old name = .error .missing →
        (plain given vars root).templates new name = .error .missing

/-- A file in a directory has a name. -/
theorem names_ne_nil (hsound : old.Sound) (htree : old.hasFile given = false)
    (hgather : gather given patterns old = .ok (root, visits)) (hvisit : visit ∈ visits) :
    visit.names ≠ [] := by
  intro hempty
  obtain ⟨content, executable, hat, _⟩ := file_of_gather hsound hgather hvisit
  obtain ⟨entry, hfind⟩ := canonical_eq_ok.mp (gather_eq_ok.mp hgather).1
  rw [hempty, List.append_nil, find_at? hfind, Option.some.injEq] at hat
  simp [hasFile, hfind, hat, Entry.isFile] at htree

variable {failure : Failure}

/-- A fill in place keeps to what was foretold. -/
theorem fillDirectory_inPlace_ok (hsound : world.disk.Sound)
    (hquiet : IsQuietFill given patterns vars world.disk)
    (h : forecast given patterns vars world.disk = .ok (root, files)) :
    ∃ disk, (fillDirectory given patterns vars .inPlace).on world = (.ok (), { world with disk }) ∧
      FilledInPlace root files world.disk disk := by
  obtain ⟨hgather, hall⟩ := forecast_eq_ok h
  have hprepare := prepare_inPlace given patterns vars world
  rw [hgather] at hprepare
  have hvisits := fillVisits_inPlace_eq { plain given vars root with route := .inPlace } hsound
    hgather rfl rfl fun visit hvisit => (hquiet root _ hgather visit hvisit).route .inPlace
  rw [foretellAll_route, hall] at hvisits
  obtain ⟨last, hon, hpending⟩ := hvisits
  rw [fillDirectory_on_ok hprepare hon, hpending]
  refine writeBack_backlog (gather_sorted_fst hsound hgather) fun file hfile => ?_
  obtain ⟨content, executable, _, hfind⟩ := file_of_gather hsound hgather (List.mem_map_of_mem hfile)
  exact ⟨content, executable, hfind⟩

theorem fillDirectory_inPlace_error (hsound : world.disk.Sound)
    (hquiet : IsQuietFill given patterns vars world.disk)
    (h : forecast given patterns vars world.disk = .error failure) :
    ((fillDirectory given patterns vars .inPlace).on world).1 = .error failure := by
  have hprepare := prepare_inPlace given patterns vars world
  rcases forecast_eq_error h with hgather | ⟨root, visits, hgather, hall⟩
  · rw [hgather] at hprepare
    exact fillDirectory_unprepared (congrArg Prod.fst hprepare)
  · rw [hgather] at hprepare
    have hvisits := fillVisits_inPlace_eq { plain given vars root with route := .inPlace } hsound
      hgather rfl rfl fun visit hvisit => (hquiet root _ hgather visit hvisit).route .inPlace
    rw [foretellAll_route, hall] at hvisits
    exact fillDirectory_on_error hprepare hvisits

/-- A fill in the terminal keeps to what was foretold. -/
theorem fillDirectory_terminal_ok (hsound : world.disk.Sound)
    (hquiet : IsQuietFill given patterns vars world.disk)
    (h : forecast given patterns vars world.disk = .ok (root, files)) :
    (fillDirectory given patterns vars .terminal).on world =
      (.ok (), { world with printed := world.printed ++ String.join (files.map shown) }) := by
  obtain ⟨hgather, hall⟩ := forecast_eq_ok h
  have hprepare := prepare_terminal given patterns vars world
  rw [hgather] at hprepare
  have hvisits := fillVisits_terminal_eq (plain given vars root) hsound hgather rfl rfl
    (hquiet root _ hgather)
  rw [hall] at hvisits
  obtain ⟨last, hon, hpending⟩ := hvisits
  rw [fillDirectory_on_ok hprepare hon, hpending]
  rfl

theorem fillDirectory_terminal_error (hsound : world.disk.Sound)
    (hquiet : IsQuietFill given patterns vars world.disk)
    (h : forecast given patterns vars world.disk = .error failure) :
    ((fillDirectory given patterns vars .terminal).on world).1 = .error failure := by
  have hprepare := prepare_terminal given patterns vars world
  rcases forecast_eq_error h with hgather | ⟨root, visits, hgather, hall⟩
  · rw [hgather] at hprepare
    exact fillDirectory_unprepared (congrArg Prod.fst hprepare)
  · rw [hgather] at hprepare
    have hvisits := fillVisits_terminal_eq (plain given vars root) hsound hgather rfl rfl
      (hquiet root _ hgather)
    rw [hall] at hvisits
    exact fillDirectory_on_error hprepare hvisits

/-- If nothing can be gathered a fill into another directory fails for the same reason. -/
theorem prepare_mirror_error (hsound : world.disk.Sound)
    (hgather : gather given patterns world.disk = .error failure) :
    ((prepare given patterns vars (.mirror target)).on world).1 = .error failure := by
  unfold gather at hgather
  unfold prepare
  cases hroot : world.disk.canonical given with
  | error fault =>
      rw [hroot] at hgather
      obtain rfl := Except.error.inj hgather
      simp only [Work.on_bind, Work.on_ask, hroot]
  | ok root =>
      rw [hroot] at hgather
      cases hset : IgnoreSet.ofPatterns root.render patterns with
      | error fault =>
          simp only [hset] at hgather
          obtain rfl := Except.error.inj hgather
          simp only [Work.on_bind, Work.on_ask, hroot, hset, Work.on_ofExcept_error]
      | ok set =>
          -- A directory that is there can be walked.
          obtain ⟨entry, hfind⟩ := canonical_eq_ok.mp hroot
          have hwalk := walk_render hsound (find_at? hfind) (hsound.not_isLink hfind)
          have hbase := IgnoreSet.base_of_ofPatterns hset
          simp [hset, filesOf, walkUnignored, hbase, hwalk] at hgather

/-- What is on the disk after a fill into another directory is there when the last file was filled. -/
theorem fillDirectory_mirror_disk {mid : World}
    (hprepare : (prepare given patterns vars (.mirror target)).on world = (.ok (fill, visits), mid))
    (hmirror : MirrorAt fill room mid.disk) (hnames : ∀ visit ∈ visits, ∀ s ∈ visit.names, IsName s) :
    ((fillDirectory given patterns vars (.mirror target)).on world).2.disk =
      ((visits.foldlM fill.fillVisit {}).on mid).2.disk := by
  have hends : (visits.foldlM fill.fillVisit {}).Ends mid _ _ := fillVisits_mirror hmirror hnames
  rcases hon : (visits.foldlM fill.fillVisit {}).on mid with ⟨failure | last, after⟩
  · rw [fillDirectory_eq, Work.on_bind_of_ok hprepare, Work.on_bind, hon]
  · rw [fillDirectory_on_ok hprepare hon, (hends.done_of_ok hon).2]
    rfl

/-- Whatever becomes of a fill into another directory, the template is as it was. -/
theorem fillDirectory_mirror_spares (vars : Variables) (hsound : world.disk.Sound)
    (hgather : gather given patterns world.disk = .ok (root, visits))
    (hapart : world.disk.IsApart target root room) :
    let final := ((fillDirectory given patterns vars (.mirror target)).on world).2.disk
    final.Sound ∧ Grown world.disk final ∧
      ∀ place, place.isWithin root = true → final.at? place = world.disk.at? place := by
  have hprepare := prepare_mirror vars hsound hgather hapart
  have hstart := MirroringAt.start { plain given vars root with route := .mirror room.render } hsound
    hapart rfl
  have hnames := isName_of_gather hsound hgather
  have hends : (visits.foldlM (fillVisit { plain given vars root with route := .mirror room.render }) {}).Ends
      { world with disk := (world.disk.makeDirectories target).1 } _ _ := fillVisits_mirror hstart.mirror hnames
  have hwrote := (hends.mono (fun _ _ h => h.1) fun _ _ h => h).always fun after =>
    WroteWithin room (world.disk.makeDirectories target).1 after.disk
  rw [fillDirectory_mirror_disk hprepare hstart.mirror hnames]
  obtain ⟨entry, hfind⟩ := canonical_eq_ok.mp (gather_eq_ok.mp hgather).1
  refine ⟨hwrote.1, (hsound.makeDirectories target).2.grown.trans hwrote.2.grown, fun place hin => ?_⟩
  have hout := hapart.not_isWithin_both hsound (find_at? hfind) hin
  rw [← hapart.spared place hin]
  exact hwrote.2.at?_eq fun _ hroom => by rw [hout] at hroom; cases hroom

/-- A fill into another directory keeps to what was foretold. -/
theorem fillDirectory_mirror_eq (hsound : world.disk.Sound) (htree : world.disk.hasFile given = false)
    (hquiet : IsQuietFill given patterns vars world.disk)
    (hmissing : MissingStays given patterns vars world.disk
      ((fillDirectory given patterns vars (.mirror target)).on world).2.disk)
    (hgather : gather given patterns world.disk = .ok (root, visits))
    (hapart : world.disk.IsApart target root room) :
    match (plain given vars root).foretellAll world.disk visits with
    | .ok files => ∃ disk, (fillDirectory given patterns vars (.mirror target)).on world =
        (.ok (), { world with disk }) ∧ FilledInto target root room files world.disk disk
    | .error failure =>
        ((fillDirectory given patterns vars (.mirror target)).on world).1 = .error failure := by
  have hprepare := prepare_mirror vars hsound hgather hapart
  have hstart := MirroringAt.start { plain given vars root with route := .mirror room.render } hsound
    hapart rfl
  have hnames := isName_of_gather hsound hgather
  have hvisits := fillVisits_mirrored { plain given vars root with route := .mirror room.render }
    { world with disk := (world.disk.makeDirectories target).1 } hsound hapart hgather rfl rfl
    (fun visit hvisit => names_ne_nil hsound htree hgather hvisit)
    (fun visit hvisit => (hquiet root _ hgather visit hvisit).route _)
    (hmissing root visits hgather) rfl (fillDirectory_mirror_disk hprepare hstart.mirror hnames).symm
  rw [foretellAll_route] at hvisits
  revert hvisits
  cases (plain given vars root).foretellAll world.disk visits with
  | error failure => exact fillDirectory_on_error hprepare
  | ok files =>
      rintro ⟨last, disk, hon, hpending, hmirrored⟩
      obtain ⟨entry, hfind⟩ := canonical_eq_ok.mp (gather_eq_ok.mp hgather).1
      refine ⟨disk, ?_, hmirrored.filledInto hsound hapart (find_at? hfind)⟩
      rw [fillDirectory_on_ok hprepare hon, hpending]
      rfl

theorem fillDirectory_mirror_ok (hsound : world.disk.Sound) (htree : world.disk.hasFile given = false)
    (hquiet : IsQuietFill given patterns vars world.disk)
    (hmissing : MissingStays given patterns vars world.disk
      ((fillDirectory given patterns vars (.mirror target)).on world).2.disk)
    (hapart : world.disk.IsApart target root room)
    (h : forecast given patterns vars world.disk = .ok (root, files)) :
    ∃ disk, (fillDirectory given patterns vars (.mirror target)).on world = (.ok (), { world with disk }) ∧
      FilledInto target root room files world.disk disk := by
  obtain ⟨hgather, hall⟩ := forecast_eq_ok h
  have hvisits := fillDirectory_mirror_eq hsound htree hquiet hmissing hgather hapart
  rwa [hall] at hvisits

theorem fillDirectory_mirror_error (hsound : world.disk.Sound) (htree : world.disk.hasFile given = false)
    (hquiet : IsQuietFill given patterns vars world.disk)
    (hmissing : MissingStays given patterns vars world.disk
      ((fillDirectory given patterns vars (.mirror target)).on world).2.disk)
    (hapart : ∀ root, world.disk.canonical given = .ok root → ∃ room, world.disk.IsApart target root room)
    (h : forecast given patterns vars world.disk = .error failure) :
    ((fillDirectory given patterns vars (.mirror target)).on world).1 = .error failure := by
  rcases forecast_eq_error h with hgather | ⟨root, visits, hgather, hall⟩
  · exact fillDirectory_unprepared (prepare_mirror_error hsound hgather)
  · obtain ⟨room, hroom⟩ := hapart root (gather_eq_ok.mp hgather).1
    have hvisits := fillDirectory_mirror_eq hsound htree hquiet hmissing hgather hroom
    rwa [hall] at hvisits

/-- A template in which one text includes another one, and one file is no text. -/
def modesDisk : Disk where
  tree := [(["s"], .directory), (["s", "a"], .file "\x7b% include 'p/b' %\x7d\x7b\x7b x \x7d\x7d".toUTF8 true),
    (["s", "c"], .file ⟨#[255]⟩ false), (["s", "p"], .directory), (["s", "p", "b"], .file "b".toUTF8 false)]
  directory := []

/-- What its files become. -/
def modesFiles : List (Visit × Option String) :=
  [({ names := ["a"], place := ["s", "a"], entry := .file "\x7b% include 'p/b' %\x7d\x7b\x7b x \x7d\x7d".toUTF8 true },
      some "b1"),
    ({ names := ["c"], place := ["s", "c"], entry := .file ⟨#[255]⟩ false }, none),
    ({ names := ["p", "b"], place := ["s", "p", "b"], entry := .file "b".toUTF8 false }, some "b")]

/-- A template that shows its writer. -/
def writerDisk : Disk where
  tree := [(["s"], .directory), (["s", "a"], .file "\x7b\x7b __cloney_file_writer \x7d\x7d".toUTF8 false)]
  directory := []

end Stencil.Fill
