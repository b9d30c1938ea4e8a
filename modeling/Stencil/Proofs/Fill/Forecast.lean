import Stencil.Proofs.FileCalls
import Stencil.Proofs.Files.Settled
import Stencil.Proofs.Fill.Gathering
import Stencil.Proofs.Template.Evaluation

/-!
# What a fill is going to do

What becomes of each file is settled before a fill starts, if all templates are read from the disk as it is
then (`forecast`). Nothing of that depends on where the files go.

A fill keeps to it as long as every file is read, when its turn comes, as it was at first, and so is every
template that it asks for (`Reads`), and as long as no text mentions what lets it learn where files go or
write some itself (`QuietAt`). Then the ways in which a template can be filled differ in nothing but in what
is done with a file once it was rendered (`deliver`), and that is the whole of `fillVisit_eq`. A fill as a
whole follows file by file (`fillVisits_forecast`).
-/

namespace Stencil.Fill

open Files Files.Disk Template

/-! ## What is settled -/

/-- The templates that can be asked for by name, as they are on a disk. -/
def templates (fill : Fill) (disk : Disk) : String → Except LoadFault Document :=
  Site.readTemplate { templates? := some fill.given, scope := .nowhere } disk

instance (answer : Except LoadFault Document) : Decidable (answer = .error .missing) :=
  match answer with
  | .error .missing => isTrue rfl
  | .error .unreadable | .error (.malformed _) | .ok _ => isFalse fun h => by cases h

/-- What a text comes to with the templates on a disk, or why it cannot be rendered. -/
def rendered (fill : Fill) (disk : Disk) (scope : Scope) (name text : String) : Except Failure String :=
  match (rendering name text fill.context scope).settled (fill.templates disk) with
  | .done filled => .ok filled
  | .failed fault => .error (.template fault)
  | .exhausted => .error .exhausted

/-- What becomes of a file on a disk: what its text comes to, or nothing if it is no text. -/
def foretell (fill : Fill) (disk : Disk) (scope : Scope) (visit : Visit) :
    Except Failure (Option String) :=
  match disk.read (visit.path fill.source) with
  | .error fault => .error (.files fault)
  | .ok content =>
    match String.fromUTF8? content with
    | some text => (fill.rendered disk scope visit.name text).map some
    | none => .ok none

/-- What is in a file once it was filled, given what was in it. -/
def filledContent (content : ByteArray) : Option String → ByteArray
  | some filled => filled.toUTF8
  | none => content

/-- The names of the templates that a file asks for, with the templates on a disk. -/
def consultedBy (fill : Fill) (disk : Disk) (scope : Scope) (visit : Visit) : List String :=
  match disk.readText (visit.path fill.source) with
  | .ok text => (rendering visit.name text fill.context scope).consulted (fill.templates disk)
  | .error _ => []

/-- What is the same for all files of a fill in a directory, but for where they go. -/
def plain (given : String) (vars : Variables) (root : Place) : Fill :=
  { given, source := root.render, context := vars.context, route := .terminal }

/-- What becomes of some files wherever they go, or the first failure. -/
def foretellAll (fill : Fill) (disk : Disk) (visits : List Visit) :
    Except Failure (List (Visit × Option String)) :=
  visits.mapM fun visit => do pure (visit, ← fill.foretell disk .nowhere visit)

/-- **What a fill is going to do**: the place of the directory and what becomes of each file, in the order in
which the files are taken, or the first failure. -/
def forecast (given : String) (patterns : List String) (vars : Variables) (disk : Disk) :
    Except Failure (Place × List (Visit × Option String)) :=
  match gather given patterns disk with
  | .error failure => .error failure
  | .ok (root, visits) =>
    match (plain given vars root).foretellAll disk visits with
    | .error failure => .error failure
    | .ok files => .ok (root, files)

theorem foretellAll_visits {fill : Fill} {disk : Disk} {visits : List Visit}
    {files : List (Visit × Option String)} (h : fill.foretellAll disk visits = .ok files) :
    files.map Prod.fst = visits := by
  induction visits generalizing files with
  | nil =>
      obtain rfl := Except.ok.inj h
      rfl
  | cons visit rest ih =>
      rw [foretellAll, List.mapM_cons] at h
      cases hfirst : fill.foretell disk .nowhere visit with
      | error failure =>
          rw [hfirst] at h
          cases h
      | ok text? =>
          cases hrest : fill.foretellAll disk rest with
          | error failure =>
              unfold foretellAll at hrest
              rw [hfirst, hrest] at h
              cases h
          | ok others =>
              have hothers := ih hrest
              unfold foretellAll at hrest
              rw [hfirst, hrest] at h
              obtain rfl := Except.ok.inj h
              rw [List.map_cons, hothers]

theorem forecast_eq_ok {given : String} {patterns : List String} {vars : Variables} {disk : Disk}
    {root : Place} {files : List (Visit × Option String)}
    (h : forecast given patterns vars disk = .ok (root, files)) :
    gather given patterns disk = .ok (root, files.map Prod.fst) ∧
      (plain given vars root).foretellAll disk (files.map Prod.fst) = .ok files := by
  unfold forecast at h
  split at h
  · cases h
  · rename_i root' visits hgather
    split at h
    · cases h
    · rename_i files' hall
      obtain ⟨rfl, rfl⟩ := Prod.mk.inj (Except.ok.inj h)
      rw [foretellAll_visits hall]
      exact ⟨hgather, hall⟩

theorem forecast_eq_error {given : String} {patterns : List String} {vars : Variables} {disk : Disk}
    {failure : Failure} (h : forecast given patterns vars disk = .error failure) :
    gather given patterns disk = .error failure ∨ ∃ root visits,
      gather given patterns disk = .ok (root, visits) ∧
      (plain given vars root).foretellAll disk visits = .error failure := by
  unfold forecast at h
  split at h
  · rename_i fault hgather
    exact Or.inl (Except.error.inj h ▸ hgather)
  · rename_i root visits hgather
    split at h
    · rename_i fault hall
      exact Or.inr ⟨root, visits, hgather, Except.error.inj h ▸ hall⟩
    · cases h

/-! ## What has to be the case -/

/-- Whether a text mentions neither the function that writes files nor the name of the writer. -/
structure Quiet (text : String) : Prop where
  noFiles : ¬ Mentions text "toFile"
  noWriter : ¬ Mentions text writerName

instance (text : String) : Decidable (Quiet text) :=
  decidable_of_iff (¬ Mentions text "toFile" ∧ ¬ Mentions text writerName)
    ⟨fun h => ⟨h.1, h.2⟩, fun h => ⟨h.1, h.2⟩⟩

/-- Whether the text of a file and all templates that it asks for are quiet. -/
structure QuietAt (fill : Fill) (disk : Disk) (visit : Visit) : Prop where
  text : ∀ text, disk.readText (visit.path fill.source) = .ok text → Quiet text
  templates : ∀ name ∈ fill.consultedBy disk .nowhere visit,
    ∀ path, Site.templatePath? fill.given name = some path →
      ∀ text, disk.readText path = .ok text → Quiet text

/-- Where files go does not matter to what becomes of them. -/
theorem foretellAll_route (fill : Fill) (disk : Disk) (visits : List Visit) (route : Route) :
    Fill.foretellAll { fill with route } disk visits = fill.foretellAll disk visits := rfl

instance (fill : Fill) (disk : Disk) (visit : Visit) : Decidable (fill.QuietAt disk visit) :=
  have reads : ∀ path, Decidable (∀ text, disk.readText path = .ok text → Quiet text) := fun path =>
    match h : disk.readText path with
    | .ok text => decidable_of_iff (Quiet text)
        ⟨fun hquiet _ heq => Except.ok.inj heq ▸ hquiet, fun hall => hall text rfl⟩
    | .error _ => isTrue fun _ heq => by cases heq
  have asked : ∀ name, Decidable (∀ path, Site.templatePath? fill.given name = some path →
      ∀ text, disk.readText path = .ok text → Quiet text) := fun name =>
    match h : Site.templatePath? fill.given name with
    | some path => decidable_of_iff (∀ text, disk.readText path = .ok text → Quiet text)
        ⟨fun hquiet _ heq => Option.some.inj heq ▸ hquiet, fun hall => hall path rfl⟩
    | none => isTrue fun _ heq => by cases heq
  decidable_of_iff ((∀ text, disk.readText (visit.path fill.source) = .ok text → Quiet text) ∧
      ∀ name ∈ fill.consultedBy disk .nowhere visit,
        ∀ path, Site.templatePath? fill.given name = some path →
          ∀ text, disk.readText path = .ok text → Quiet text)
    ⟨fun h => ⟨h.1, h.2⟩, fun h => ⟨h.text, h.templates⟩⟩

theorem QuietAt.route {fill : Fill} {disk : Disk} {visit : Visit} (h : fill.QuietAt disk visit)
    (route : Route) : Fill.QuietAt { fill with route } disk visit :=
  ⟨h.text, h.templates⟩

/-- Whether a file is read on one disk as on another, and all templates that it asks for. -/
structure Reads (fill : Fill) (old : Disk) (scope : Scope) (visit : Visit) (disk : Disk) : Prop where
  read : disk.read (visit.path fill.source) = old.read (visit.path fill.source)
  templates : ∀ name ∈ fill.consultedBy old scope visit, fill.templates disk name = fill.templates old name

theorem Reads.refl (fill : Fill) (disk : Disk) (scope : Scope) (visit : Visit) :
    fill.Reads disk scope visit disk :=
  ⟨rfl, fun _ _ => rfl⟩

theorem Reads.route {fill : Fill} {old disk : Disk} {scope : Scope} {visit : Visit}
    (h : fill.Reads old scope visit disk) (route : Route) :
    Fill.Reads { fill with route } old scope visit disk :=
  ⟨h.read, h.templates⟩

/-! ## Rendering -/

variable {fill : Fill} {disk old : Disk} {progress : Progress} {world : World} {visit : Visit}

/-- A template that is read has names only that are in its text. -/
theorem templates_keep {named : String → Prop} {name : String}
    (h : ∀ path, Site.templatePath? fill.given name = some path →
      ∀ text, disk.readText path = .ok text → ∀ word, Mentions text word → named word) :
    AnswerKeeps named (fill.templates disk name) := by
  intro document hdocument
  unfold templates Site.readTemplate at hdocument
  rw [Option.bind_some] at hdocument
  split at hdocument
  · cases hdocument
  · rename_i path hpath
    split at hdocument
    · cases hdocument
    · cases hdocument
    · rename_i text htext
      split at hdocument
      · rename_i made hmade
        obtain rfl := Except.ok.inj hdocument
        exact Document.ofString_keeps hmade (h path hpath text htext)
      · cases hdocument

/-- A template is read in the middle of a fill as it was at first, if the file that its path found then is
still the same, and if a template that is missing at first is missing in the end. -/
theorem templates_between {mid new : Disk} {name : String} (hbefore : Grown old mid)
    (hafter : Grown mid new)
    (hmissing : fill.templates old name = .error .missing → fill.templates new name = .error .missing)
    (hkept : ∀ path, Site.templatePath? fill.given name = some path →
      ∀ place, old.canonical path = .ok place → mid.at? place = old.at? place) :
    fill.templates mid name = fill.templates old name := by
  unfold templates Site.readTemplate at hmissing ⊢
  rw [Option.bind_some] at hmissing ⊢
  cases hpath : Site.templatePath? fill.given name with
  | none => rfl
  | some path =>
      rw [hpath] at hmissing
      dsimp only at hmissing ⊢
      rw [readText_between hbefore hafter (fun hold => ?_) (hkept path hpath)]
      -- That a template is missing means that its path leads to nothing.
      rw [hold] at hmissing
      have hend := hmissing rfl
      split at hend
      · assumption
      · cases hend
      · split at hend <;> cases hend

/-- Whether a name is neither that of the function that writes files nor that of the writer. -/
def IsQuiet (word : String) : Prop := word ≠ "toFile" ∧ word ≠ writerName

theorem Quiet.isQuiet {text word : String} (h : Quiet text) (hword : Mentions text word) : IsQuiet word :=
  ⟨fun heq => h.noFiles (heq ▸ hword), fun heq => h.noWriter (heq ▸ hword)⟩

/-- **A quiet text comes to what was settled**, wherever files might go, and nothing else happens. -/
theorem renderFile_eq (world : World) (name : String) {text : String} (hquiet : Quiet text)
    (htemplates : ∀ other ∈ (rendering name text fill.context .nowhere).consulted (fill.templates old),
      fill.templates world.disk other = fill.templates old other ∧
      ∀ path, Site.templatePath? fill.given other = some path →
        ∀ text, old.readText path = .ok text → Quiet text)
    (hremembers : Remembers (fill.templates old) progress.loaded) (scope : Scope) :
    ∃ loaded, Remembers (fill.templates old) loaded ∧
      (fill.renderFile progress name text scope).on world =
        match fill.rendered old .nowhere name text with
        | .ok filled => (.ok (filled, { progress with loaded }), world)
        | .error failure => (.error failure, world) := by
  have halike : ∀ scope', Rendering.Alike IsQuiet Eq (rendering name text fill.context scope')
      (rendering name text fill.context scope) := fun scope' =>
    rendering_alike fill.context (Or.inr fun h => h.2 rfl) fun document hdocument =>
      Document.ofString_keeps hdocument fun word => hquiet.isQuiet
  have hkeeps : ∀ other ∈ (rendering name text fill.context .nowhere).consulted (fill.templates old),
      AnswerKeeps IsQuiet (fill.templates old other) := fun other hother =>
    templates_keep fun path hpath text htext word =>
      ((htemplates other hother).2 path hpath text htext).isQuiet
  obtain ⟨hsettled, hconsulted⟩ := (halike .nowhere).settled_eq hkeeps
  rw [hconsulted] at hkeeps htemplates
  obtain ⟨loaded, hrun, hloaded⟩ := Site.run_eq_settled
    { templates? := some fill.given, scope } { disk := world.disk, loaded := progress.loaded } (fun h => h.1 rfl) (halike scope) hkeeps
    (fun other hother => (htemplates other hother).1) hremembers
  refine ⟨loaded, hloaded, ?_⟩
  rw [renderFile, rendered, hsettled]
  simp only [Work.on_bind, Work.on_disk, Site.render, hrun, Work.on_setDisk]
  cases (rendering name text fill.context scope).settled (fill.templates old) <;> rfl

/-! ## File by file -/

/-- What is done with a file once it was rendered, given the bytes that it had. -/
def deliver (fill : Fill) (progress : Progress) (visit : Visit) (content : ByteArray) :
    Option String → Work Progress
  | some filled =>
    match fill.route with
    | .inPlace => pure { progress with pending := (visit.path fill.source, filled) :: progress.pending }
    | .mirror target => do
      writeLike (visit.path fill.source) (Path.join target visit.relative) filled.toUTF8
      pure progress
    | .terminal => do
      Work.print (block visit.name filled)
      pure progress
  | none => do
    fill.passBinary (visit.path fill.source) visit.relative visit.name content
    pure progress

/-- **A file becomes what was foretold**, and is delivered then. -/
theorem fillVisit_eq {content : ByteArray} (hread : old.read (visit.path fill.source) = .ok content)
    (hreads : fill.Reads old .nowhere visit world.disk) (hquiet : fill.QuietAt old visit)
    (hremembers : Remembers (fill.templates old) progress.loaded) :
    ∃ loaded, Remembers (fill.templates old) loaded ∧
      (fill.fillVisit progress visit).on world =
        match fill.foretell old .nowhere visit with
        | .ok text? => (fill.deliver { progress with loaded } visit content text?).on world
        | .error failure => (.error failure, world) := by
  have hask : (Work.ask fun disk => disk.read (visit.path fill.source)).on world =
      (.ok content, world) := by
    rw [Work.on_ask, hreads.read, hread]
  simp only [fillVisit, Work.on_bind, hask, foretell, hread]
  cases htext : String.fromUTF8? content with
  | none => exact ⟨progress.loaded, hremembers, rfl⟩
  | some text =>
      have hold : old.readText (visit.path fill.source) = .ok text := by
        simp only [readText, hread, htext]
      have hrender := renderFile_eq world visit.name (hquiet.text text hold)
        (fun other hother => by
          have hconsulted : other ∈ fill.consultedBy old .nowhere visit := by
            simpa only [consultedBy, hold] using hother
          exact ⟨hreads.templates other hconsulted, hquiet.templates other hconsulted⟩)
        hremembers
      simp only [fillText, deliver]
      cases hroute : fill.route with
      | inPlace =>
          obtain ⟨loaded, hloaded, hrun⟩ := hrender (scopeNextTo fill.source (visit.path fill.source))
          refine ⟨loaded, hloaded, ?_⟩
          rw [Work.on_bind, hrun]
          cases fill.rendered old .nowhere visit.name text with
          | error failure => rfl
          | ok filled => simp [Except.map]
      | mirror target =>
          obtain ⟨loaded, hloaded, hrun⟩ :=
            hrender (scopeNextTo target (Path.join target visit.relative))
          refine ⟨loaded, hloaded, ?_⟩
          rw [Work.on_bind, hrun]
          cases fill.rendered old .nowhere visit.name text with
          | error failure => rfl
          | ok filled => simp [Except.map]
      | terminal =>
          obtain ⟨loaded, hloaded, hrun⟩ := hrender .nowhere
          refine ⟨loaded, hloaded, ?_⟩
          simp only [asksForFiles_eq_false (hquiet.text text hold).noFiles, Bool.false_eq_true, if_false,
            Work.on_bind, Work.on_pure, hrun]
          cases fill.rendered old .nowhere visit.name text with
          | error failure => rfl
          | ok filled => simp only [Except.map, Work.on_bind, Work.on_print, Work.on_pure]

/-! ## File after file -/

variable {visits rest : List Visit} {done : List (Visit × Option String)}

/-- Where a fill is that has kept to what was foretold: some files are done, others are left, and the templates
that were loaded are those that were there at first. -/
structure Underway (fill : Fill) (old : Disk) (visits : List Visit) (done : List (Visit × Option String))
    (rest : List Visit) (progress : Progress) : Prop where
  visits_eq : visits = done.map Prod.fst ++ rest
  remembers : Remembers (fill.templates old) progress.loaded

namespace Underway

theorem start (fill : Fill) (old : Disk) (visits : List Visit) : fill.Underway old visits [] visits {} :=
  ⟨rfl, .nil _⟩

theorem mem (h : fill.Underway old visits done (visit :: rest) progress) : visit ∈ visits := by
  simp [h.visits_eq]

theorem next {next : Progress} (h : fill.Underway old visits done (visit :: rest) progress)
    (hnext : Remembers (fill.templates old) next.loaded) (text? : Option String) :
    fill.Underway old visits (done ++ [(visit, text?)]) rest next :=
  ⟨by simp [h.visits_eq], hnext⟩

end Underway

/-- **Files become what was foretold, one by one**, if each of them does; what is kept from file to file may
depend on those that are done and on those that are left. -/
theorem fillVisits_forecast (fill : Fill) (old : Disk)
    (keep : List (Visit × Option String) → List Visit → Progress → World → Prop)
    (hstep : ∀ done visit rest progress world, keep done (visit :: rest) progress world →
      match fill.foretell old .nowhere visit with
      | .ok text? => ∃ next after, (fill.fillVisit progress visit).on world = (.ok next, after) ∧
          keep (done ++ [(visit, text?)]) rest next after
      | .error failure => ((fill.fillVisit progress visit).on world).1 = .error failure)
    (h : keep done visits progress world) :
    match fill.foretellAll old visits with
    | .ok files => ∃ last after, (visits.foldlM fill.fillVisit progress).on world = (.ok last, after) ∧
        keep (done ++ files) [] last after
    | .error failure => ((visits.foldlM fill.fillVisit progress).on world).1 = .error failure := by
  induction visits generalizing done progress world with
  | nil => exact ⟨progress, world, rfl, (List.append_nil done).symm ▸ h⟩
  | cons visit rest ih =>
      have hfirst := hstep done visit rest progress world h
      rw [foretellAll, List.mapM_cons, ← foretellAll, List.foldlM_cons, Work.on_bind]
      cases hplan : fill.foretell old .nowhere visit with
      | error failure =>
          rw [hplan] at hfirst
          rcases hon : (fill.fillVisit progress visit).on world with ⟨result, after⟩
          rw [hon] at hfirst
          obtain rfl : result = .error failure := hfirst
          rfl
      | ok text? =>
          rw [hplan] at hfirst
          obtain ⟨next, after, hon, hkeep⟩ := hfirst
          have hrest := ih hkeep
          rw [hon]
          revert hrest
          cases fill.foretellAll old rest with
          | error failure => exact id
          | ok files =>
              rintro ⟨last, final, hfold, hlast⟩
              exact ⟨last, final, hfold, by simpa using hlast⟩

end Stencil.Fill
