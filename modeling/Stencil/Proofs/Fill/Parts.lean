import Stencil.Fill
import Stencil.Proofs.Files.Site
import Stencil.Proofs.Files.Walk
import Stencil.Proofs.Ignore
import Stencil.Proofs.Work

/-!
# The parts of a fill

A fill first finds out what to do (`Fill.prepare`), then fills one file after the other, and in the
end writes back what it has kept. Which files templates asked for on the way is told by
`Fill.generated`: it goes through the same files with the same worlds.

Each part is a theorem on how it ends. None of them says where the root is; it is enough that the path
of the root finds one and the same place all the time.
-/

namespace Stencil.Fill

open Files Files.Disk

/-! ## What is asked for -/

/-- The paths that are written while a text is rendered. -/
def asked (fill : Fill) (progress : Progress) (name text : String) (scope : Template.Scope)
    (disk : Disk) :
    List Path :=
  Site.written { templates? := some fill.given, scope }
    (Template.rendering name text fill.context scope)
    { disk, loaded := progress.loaded }

/-- The paths that are written while a file is filled, because its template asks for them. -/
def askedBy (fill : Fill) (progress : Progress) (visit : Visit) (disk : Disk) : List Path :=
  match disk.read (visit.path fill.source) with
  | .error _ => []
  | .ok content =>
    match String.fromUTF8? content with
    | none => []
    | some text =>
      match fill.route with
      | .inPlace =>
        fill.asked progress visit.name text (scopeNextTo fill.source (visit.path fill.source)) disk
      | .mirror target =>
        fill.asked progress visit.name text
          (scopeNextTo target (Path.join target visit.relative)) disk
      | .terminal => []

/-- The paths that are written while files are filled, because templates ask for them. -/
def generated (fill : Fill) : Progress → List Visit → World → List Path
  | _, [], _ => []
  | progress, visit :: rest, world =>
    fill.askedBy progress visit world.disk ++
      match (fill.fillVisit progress visit).on world with
      | (.ok progress, world) => fill.generated progress rest world
      | (.error _, _) => []

/-! ## Preparing -/

/-- Finds out what is to be filled, and where it goes. -/
def prepare (given : String) (patterns : List String) (vars : Variables) (mode : Mode) :
    Work (Fill × List Visit) := do
  let source := (← Work.ask fun disk => disk.canonical given).render
  let set ← Work.ofExcept .pattern (IgnoreSet.ofPatterns source patterns)
  let route ← routeOf mode
  let visits ← Work.ofExcept (.walk source) ((← Work.disk).filesOf set)
  pure ({ given, source, context := vars.context, route }, visits)

/-- A fill prepares, fills and writes back. -/
theorem fillDirectory_eq (given : String) (patterns : List String) (vars : Variables) (mode : Mode) :
    fillDirectory given patterns vars mode = (do
      let (fill, visits) ← prepare given patterns vars mode
      let progress ← visits.foldlM fill.fillVisit {}
      writeBack progress.pending.reverse) := by
  simp [fillDirectory, prepare]

section

variable {given : String} {patterns : List String} {vars : Variables} {mode : Mode} {fill : Fill}
  {visits : List Visit} {world mid : World} {failure : Failure}

/-- A fill that cannot be prepared fails. -/
theorem fillDirectory_unprepared (h : ((prepare given patterns vars mode).on world).1 = .error failure) :
    ((fillDirectory given patterns vars mode).on world).1 = .error failure := by
  rw [fillDirectory_eq]
  exact Work.on_bind_of_error h

/-- A fill of which a file cannot be filled fails. -/
theorem fillDirectory_on_error (h : (prepare given patterns vars mode).on world = (.ok (fill, visits), mid))
    (hvisits : ((visits.foldlM fill.fillVisit {}).on mid).1 = .error failure) :
    ((fillDirectory given patterns vars mode).on world).1 = .error failure := by
  rw [fillDirectory_eq, Work.on_bind_of_ok h]
  exact Work.on_bind_of_error hvisits

/-- When all files are filled, what waits is written back. -/
theorem fillDirectory_on_ok (h : (prepare given patterns vars mode).on world = (.ok (fill, visits), mid))
    {last : Progress} {after : World}
    (hvisits : (visits.foldlM fill.fillVisit {}).on mid = (.ok last, after)) :
    (fillDirectory given patterns vars mode).on world = (writeBack last.pending.reverse).on after := by
  rw [fillDirectory_eq, Work.on_bind_of_ok h]
  exact Work.on_bind_of_ok hvisits

end

/-- The paths that are written by a fill because templates ask for them. -/
def generatedFiles (given : String) (patterns : List String) (vars : Variables) (mode : Mode)
    (world : World) :
    List Path :=
  match (prepare given patterns vars mode).on world with
  | (.ok (fill, visits), world) => fill.generated {} visits world
  | (.error _, _) => []

/-- Whether a file at a place is filled. -/
def Collects (given : String) (patterns : List String) (disk : Disk) (place : Place) : Prop :=
  ∃ root set visits visit, disk.canonical given = .ok root ∧
    IgnoreSet.ofPatterns root.render patterns = .ok set ∧ disk.filesOf set = .ok visits ∧
      visit ∈ visits ∧
    place = root ++ visit.names

/-- What preparing has done to the disk when it has succeeded, and where files go from then on. -/
def Routed (mode : Mode) (old new : Disk) (route : Route) : Prop :=
  match mode with
  | .inPlace => new = old ∧ route = .inPlace
  | .terminal => new = old ∧ route = .terminal
  | .mirror target => new = (old.makeDirectories target).1 ∧
      ∃ place, new.canonical target = .ok place ∧ route = .mirror place.render

/-- What preparing may have done to the disk when it has failed. -/
def Prepared (mode : Mode) (old new : Disk) : Prop :=
  new = old ∨ ∃ target, mode = .mirror target ∧ new = (old.makeDirectories target).1

theorem routeOf_ends (mode : Mode) (world : World) :
    (routeOf mode).Ends world (fun route after => Routed mode world.disk after.disk route)
      fun _ after => Prepared mode world.disk after.disk := by
  cases mode with
  | inPlace => exact Work.Ends.pure ⟨rfl, rfl⟩
  | terminal => exact Work.Ends.pure ⟨rfl, rfl⟩
  | mirror target =>
      refine Work.Ends.bind (Work.Ends.attempt (fun disk hmade => ?_) fun disk fault hmade => ?_)
      · have hdisk : disk = (world.disk.makeDirectories target).1 := by rw [hmade]
        refine Work.Ends.bind (Work.Ends.ask (fun place hplace => ?_) fun fault _ => ?_)
        · exact Work.Ends.pure ⟨hdisk, place, hplace, rfl⟩
        · exact Or.inr ⟨target, rfl, hdisk⟩
      · exact Or.inr ⟨target, rfl, by rw [hmade]⟩

theorem prepare_ends (given : String) (patterns : List String) (vars : Variables) (mode : Mode)
    (world : World) :
    (prepare given patterns vars mode).Ends world
      (fun result after => ∃ root set, world.disk.canonical given = .ok root ∧
        IgnoreSet.ofPatterns root.render patterns = .ok set ∧ after.disk.filesOf set = .ok result.2 ∧
        result.1.source = root.render ∧ Routed mode world.disk after.disk result.1.route)
      fun _ after => Prepared mode world.disk after.disk := by
  refine Work.Ends.bind (Work.Ends.ask (fun root hroot => ?_) fun _ _ => Or.inl rfl)
  refine Work.Ends.bind (Work.Ends.ofExcept (fun set hset => ?_) fun _ _ => Or.inl rfl)
  refine Work.Ends.bind ((routeOf_ends mode world).mono (fun route after hroute => ?_) fun _ _ h => h)
  refine Work.Ends.bind (Work.Ends.disk ?_)
  refine Work.Ends.bind (Work.Ends.ofExcept (fun visits hvisits => ?_) fun _ _ => ?_)
  · exact Work.Ends.pure ⟨root, set, hroot, hset, hvisits, rfl, hroute⟩
  · cases mode with
    | inPlace => exact Or.inl hroute.1
    | terminal => exact Or.inl hroute.1
    | mirror target => exact Or.inr ⟨target, rfl, hroute.1⟩

/-- Before a mirrored fill the other directory is made, and the files are found as they were. -/
theorem prepare_mirror_ends (given : String) (patterns : List String) (vars : Variables) (target : String)
    {world : World} (hsound : world.disk.Sound) :
    (prepare given patterns vars (.mirror target)).Ends world
      (fun result after => after.disk = (world.disk.makeDirectories target).1 ∧
        (∀ visit ∈ result.2, ∀ s ∈ visit.names, IsName s) ∧ ∃ room, after.disk.canonical target = .ok room ∧
          after.disk.canonical (Place.render room) = .ok room ∧ result.1.route = .mirror room.render)
      fun _ after => Prepared (.mirror target) world.disk after.disk := by
  refine (prepare_ends given patterns vars (.mirror target) world).mono ?_ fun _ _ h => h
  rintro ⟨fill, visits⟩ mid ⟨root, set, hroot, hset, hvisits, -, hdisk, room, hroom, hroute⟩
  simp only at hvisits hroute
  obtain ⟨hmade, hwrites⟩ := hsound.makeDirectories target
  rw [← hdisk] at hmade hwrites
  -- The source is found as it was before the directory was made.
  obtain ⟨entry, hfind⟩ := canonical_eq_ok.mp (canonical_grow hwrites.grown hroot)
  obtain ⟨found, hfound⟩ := canonical_eq_ok.mp hroom
  refine ⟨hdisk, fun visit hvisit s hs => ?_, room, hroom, ?_, hroute⟩
  · obtain ⟨hplace, ⟨_, _, hfile⟩, _⟩ := mem_filesOf hmade (find_at? hfind) (hmade.not_isLink hfind)
      (IgnoreSet.base_of_ofPatterns hset) hvisits hvisit
    exact hmade.isName hfile s (hplace ▸ List.mem_append_right _ hs)
  · exact canonical_eq_ok.mpr ⟨found, hmade.find_render (find_at? hfound) (by simp [hmade.not_isLink hfound])⟩

/-- A fill that succeeds has found the directory. -/
theorem canonical_of_done {given : String} {patterns : List String} {vars : Variables} {mode : Mode}
    {world after : World} (h : (fillDirectory given patterns vars mode).on world = (.ok (), after)) :
    ∃ root, world.disk.canonical given = .ok root := by
  have hends : (fillDirectory given patterns vars mode).Ends world
      (fun _ _ => ∃ root, world.disk.canonical given = .ok root) fun _ _ => True := by
    rw [fillDirectory_eq]
    refine .bind ((prepare_ends given patterns vars mode world).mono ?_ fun _ _ _ => trivial)
    rintro ⟨fill, visits⟩ mid ⟨root, _, hroot, _⟩
    exact (Work.Ends.self _ mid).mono (fun _ _ _ => ⟨root, hroot⟩) fun _ _ _ => trivial
  exact hends.done_of_ok h

/-! ## Rendering -/

variable {fill : Fill} {progress : Progress} {world : World} {visit : Visit} {room names : Place}

/-- Where files may be written next to a file, and paths of it that are plain. -/
theorem scopeNextTo_eq {file : String} (hroom : ∀ s ∈ room, IsName s) (hfile : Spells file names) :
    ∃ directory : Path, directory.IsPlain ∧
      scopeNextTo room.render file = .within (.root :: room.map .name) directory := by
  have hroot := Path.ofString_render hroom
  refine ⟨(Path.ofString file).parent?.getD (.root :: room.map .name), ?_, by rw [scopeNextTo, hroot]⟩
  cases hparent : (Path.ofString file).parent? with
  | none => exact ⟨room, rfl, hroom⟩
  | some parent => exact Path.parent?_isPlain ⟨names, hfile.parts_eq, hfile.isName⟩ hparent

/-- **While a text is rendered the disk changes within the root only**, and only for
what is asked for. -/
theorem renderFile_ends {name text : String} {scope : Template.Scope} {directory : Path}
    (hscope : scope = .within (.root :: room.map .name) directory) (hdirectory : directory.IsPlain)
    (hsound : world.disk.Sound) (hroot : world.disk.canonical (Place.render room) = .ok room) :
    (fill.renderFile progress name text scope).Ends world
      (fun result after => result.2.pending = progress.pending ∧ after.disk.Sound ∧
        WritesOnly (fun place entry => place.isWithin room = true ∧
          after.disk.MadeForSome (fill.asked progress name text scope world.disk) place entry)
          world.disk after.disk)
      (fun _ after => after.disk.Sound ∧
        WritesOnly (fun place entry => place.isWithin room = true ∧
          after.disk.MadeForSome (fill.asked progress name text scope world.disk) place entry)
          world.disk after.disk) := by
  have hrun := Site.run_writesOnly { templates? := some fill.given, scope }
    { disk := world.disk, loaded := progress.loaded } hscope hdirectory
    (Template.rendering name text fill.context scope) hsound (Path.render_place room ▸ hroot)
    (fun target htarget => absurd htarget (by simp))
  refine Work.Ends.bind (Work.Ends.disk ?_)
  unfold asked
  unfold Site.render
  generalize Site.run _ _ _ = outcome at hrun ⊢
  obtain ⟨ending, bench⟩ := outcome
  refine Work.Ends.bind (Work.Ends.setDisk ?_)
  cases ending with
  | done filled => exact Work.Ends.pure ⟨rfl, hrun⟩
  | failed fault => exact Work.Ends.fail hrun
  | outside path => exact Work.Ends.fail hrun
  | exhausted => exact Work.Ends.fail hrun

/-- Where nothing may be written nothing changes while a text is rendered. -/
theorem renderFile_nowhere (name text : String) :
    (fill.renderFile progress name text .nowhere).Ends world
      (fun result after => after.disk = world.disk ∧ result.2.pending = progress.pending)
      fun _ after => after.disk = world.disk := by
  have hrun := Site.run_nowhere { templates? := some fill.given, scope := .nowhere }
    { disk := world.disk, loaded := progress.loaded } rfl
    (Template.rendering name text fill.context .nowhere)
  refine Work.Ends.bind (Work.Ends.disk ?_)
  unfold Site.render
  generalize Site.run _ _ _ = outcome at hrun ⊢
  obtain ⟨ending, bench⟩ := outcome
  refine Work.Ends.bind (Work.Ends.setDisk ?_)
  cases ending with
  | done filled => exact Work.Ends.pure ⟨hrun, rfl⟩
  | failed fault => exact Work.Ends.fail hrun
  | outside path => exact Work.Ends.fail hrun
  | exhausted => exact Work.Ends.fail hrun

/-! ## Writing -/

/-- A file is copied by writing at its path, and around it. -/
theorem writeLike_writes {file destination : String} {content : ByteArray} (hsound : world.disk.Sound)
    (hpath : Spells destination names) :
    (writeLike file destination content).Ends world
      (fun _ after => after.disk.Sound ∧ WritesOnly (after.disk.MadeFor destination) world.disk after.disk)
      fun _ after => after.disk.Sound ∧ WritesOnly (after.disk.MadeFor destination) world.disk after.disk := by
  obtain ⟨hnew, hwrites⟩ := hsound.writeInside hpath content
  generalize hmade : world.disk.writeInside destination content = made at hnew hwrites
  obtain ⟨mid, result⟩ := made
  refine Work.Ends.bind (Work.Ends.attempt (fun disk h => ?_) fun disk fault h => ?_)
  · obtain rfl : mid = disk := congrArg Prod.fst (hmade.symm.trans h)
    refine Work.Ends.bind (Work.Ends.ask (fun executable _ => ?_) fun _ _ => ⟨hnew, hwrites⟩)
    refine Work.Ends.change (fun new hchange => ?_) fun _ _ => ⟨hnew, hwrites⟩
    obtain ⟨hsound', hwrites'⟩ := hnew.setExecutable hchange
    exact ⟨hsound', hwrites.trans_mono hwrites' (fun _ _ h => h.mono hwrites'.grown) fun _ _ h => Or.inl h⟩
  · obtain rfl : mid = disk := congrArg Prod.fst (hmade.symm.trans h)
    exact ⟨hnew, hwrites⟩

end Stencil.Fill
