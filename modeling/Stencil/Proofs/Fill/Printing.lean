import Stencil.Proofs.Fill.Forecast
import Stencil.Proofs.Fill.Mirror

/-!
# What a fill in the terminal prints

A fill in the terminal looks at the text of a file before it renders it, and refuses one that calls for files. That
is no more than a courtesy, for the call can be hidden behind another name, in a macro or in a template that is
loaded. What keeps the disk as it is is the scope: it is handed on to whatever is rendered on the way, and where
nothing may be written every request to write is turned down.

So the disk is the same all the time, and what a file comes to depends on nothing that was printed before it
(`printedFor`): not on the templates that other files have loaded, since these are still what would be read. A file
is printed as a whole and only after it was rendered. Hence what is printed are the files up to the first that
cannot be rendered, and nothing of that one (`fillDirectory_prints_front`).
-/

namespace Stencil

open Template Files Files.Disk

namespace Template.Rendering

variable {α : Type}

/-- What a rendering comes to, given the templates, if no file can be written. -/
def barred (templates : String → Except LoadFault Document) : Rendering α → Outcome α
  | .done a => .done a
  | .fail fault => .failed fault
  | .exhausted => .exhausted
  | .load name next => (next (templates name)).barred templates
  | .permit _ next => (next false).barred templates
  | .write _ _ next => (next false).barred templates

end Template.Rendering

namespace Files.Site

variable {α : Type}

/-- **Where nothing may be written** a rendering comes to what it comes to with the templates on the disk, and all
that changes is which of them are loaded. -/
theorem run_barred (site : Site) (hscope : site.scope = .nowhere) (r : Rendering α) (bench : Workbench)
    (hremembers : Remembers (site.readTemplate bench.disk) bench.loaded) :
    ∃ loaded, site.run r bench =
        (.ofOutcome (r.barred (site.readTemplate bench.disk)), { bench with loaded }) ∧
      Remembers (site.readTemplate bench.disk) loaded := by
  induction r generalizing bench with
  | done | fail | exhausted => exact ⟨bench.loaded, rfl, hremembers⟩
  | load name next ih =>
      obtain ⟨loaded, hload, hloaded⟩ := load_eq rfl hremembers
      obtain ⟨last, hrun, hlast⟩ := ih (site.readTemplate bench.disk name) { bench with loaded } hloaded
      refine ⟨last, ?_, hlast⟩
      rw [run, hload]
      exact hrun
  | permit path next ih =>
      rw [run, hscope]
      exact ih false bench hremembers
  | write path text next ih =>
      have hwrite : site.write bench path text = (false, bench) := by
        rw [write, hscope]
      rw [run, hwrite]
      exact ih false bench hremembers

end Files.Site

namespace Fill

variable {fill : Fill} {progress : Progress} {world : World} {visit : Visit} {visits : List Visit}

/-! ## One file -/

/-- What a text comes to with the templates on a disk if no file may be written, or why it cannot be rendered. -/
def renderedBarred (fill : Fill) (disk : Disk) (name text : String) : Except Failure String :=
  match (rendering name text fill.context .nowhere).barred (fill.templates disk) with
  | .done filled => .ok filled
  | .failed fault => .error (.template fault)
  | .exhausted => .error .exhausted

/-- **What is printed for a file**, or why it cannot be printed. -/
def printedFor (fill : Fill) (disk : Disk) (visit : Visit) : Except Failure String :=
  match disk.read (visit.path fill.source) with
  | .error fault => .error (.files fault)
  | .ok content =>
    match String.fromUTF8? content with
    | none => .ok (omitted visit.name)
    | some text =>
      if asksForFiles text then .error (.filesInTerminal visit.name)
      else (fill.renderedBarred disk visit.name text).map (block visit.name)

theorem renderFile_barred (hremembers : Remembers (fill.templates world.disk) progress.loaded) (name text : String) :
    ∃ loaded, (fill.renderFile progress name text .nowhere).on world =
        (match fill.renderedBarred world.disk name text with
        | .ok filled => (.ok (filled, { progress with loaded }), world)
        | .error failure => (.error failure, world)) ∧
      Remembers (fill.templates world.disk) loaded := by
  obtain ⟨loaded, hrun, hloaded⟩ := Site.run_barred { templates? := some fill.given, scope := .nowhere }
    rfl (rendering name text fill.context .nowhere) { disk := world.disk, loaded := progress.loaded } hremembers
  refine ⟨loaded, ?_, hloaded⟩
  simp only [renderFile, Work.on_bind, Work.on_disk, Site.render, hrun, Work.on_setDisk, renderedBarred]
  unfold templates
  cases (rendering name text fill.context .nowhere).barred _ <;> rfl

/-- **A file is printed as a whole or not at all**, and nothing else happens. -/
theorem fillVisit_prints (visit : Visit) (hroute : fill.route = .terminal)
    (hremembers : Remembers (fill.templates world.disk) progress.loaded) :
    ∃ loaded, (fill.fillVisit progress visit).on world =
        (match fill.printedFor world.disk visit with
        | .ok text => (.ok { progress with loaded }, { world with printed := world.printed ++ text })
        | .error failure => (.error failure, world)) ∧
      Remembers (fill.templates world.disk) loaded := by
  simp only [fillVisit, printedFor, Work.on_bind, Work.on_ask]
  cases hread : world.disk.read (visit.path fill.source) with
  | error fault => exact ⟨progress.loaded, rfl, hremembers⟩
  | ok content =>
      dsimp only
      cases String.fromUTF8? content with
      | none =>
          refine ⟨progress.loaded, ?_, hremembers⟩
          simp only [passBinary, hroute, Work.on_bind, Work.on_print, Work.on_pure]
      | some text =>
          simp only [fillText, hroute]
          by_cases hasks : asksForFiles text = true
          · -- The text is refused before anything of it is rendered.
            refine ⟨progress.loaded, ?_, hremembers⟩
            rw [if_pos hasks, if_pos hasks, Work.on_bind, Work.on_fail]
          · obtain ⟨loaded, hrender, hloaded⟩ := renderFile_barred hremembers visit.name text
            refine ⟨loaded, ?_, hloaded⟩
            rw [if_neg hasks, if_neg hasks, Work.on_bind, hrender]
            cases fill.renderedBarred world.disk visit.name text with
            | error failure => rfl
            | ok filled => simp only [Except.map, Work.on_bind, Work.on_print, Work.on_pure]

/-! ## File after file -/

/-- **Files are printed up to the first that cannot be.** Each is printed as if it was the only one, since the disk
is as it was and so are the templates that were loaded. -/
theorem fillVisits_print (hroute : fill.route = .terminal)
    (hremembers : Remembers (fill.templates world.disk) progress.loaded) :
    (∃ blocks last, List.Forall₂ (fun visit text => fill.printedFor world.disk visit = .ok text) visits blocks ∧
      (visits.foldlM fill.fillVisit progress).on world =
        (.ok last, { world with printed := world.printed ++ String.join blocks }) ∧
      last.pending = progress.pending) ∨
    ∃ before visit rest blocks failure, visits = before ++ visit :: rest ∧
      List.Forall₂ (fun visit text => fill.printedFor world.disk visit = .ok text) before blocks ∧
      fill.printedFor world.disk visit = .error failure ∧
      (visits.foldlM fill.fillVisit progress).on world =
        (.error failure, { world with printed := world.printed ++ String.join blocks }) := by
  induction visits generalizing progress world with
  | nil => exact Or.inl ⟨[], progress, .nil, by simp, rfl⟩
  | cons visit rest ih =>
      obtain ⟨loaded, hfirst, hloaded⟩ := fillVisit_prints visit hroute hremembers
      rw [List.foldlM_cons, Work.on_bind, hfirst]
      cases hprinted : fill.printedFor world.disk visit with
      | error failure => exact Or.inr ⟨[], visit, rest, [], failure, rfl, .nil, hprinted, by simp⟩
      | ok text =>
          dsimp only
          -- What was printed is no part of what the rest depends on.
          rcases @ih { progress with loaded } { world with printed := world.printed ++ text } hloaded with
            ⟨blocks, last, hblocks, hon, hpending⟩ |
            ⟨before, other, after, blocks, failure, hsplit, hblocks, hother, hon⟩
          · refine Or.inl ⟨text :: blocks, last, .cons hprinted hblocks, ?_, hpending⟩
            rw [hon]
            simp [String.append_assoc]
          · refine Or.inr ⟨visit :: before, other, after, text :: blocks, failure, by rw [hsplit]; rfl,
              .cons hprinted hblocks, hother, ?_⟩
            rw [hon]
            simp [String.append_assoc]

/-! ## All files -/

variable {given : String} {patterns : List String} {vars : Variables} {root : Place}

/-- A fill in the terminal for which no files can be gathered prints nothing. -/
theorem fillDirectory_on_ungathered {failure : Failure} (vars : Variables)
    (hgather : gather given patterns world.disk = .error failure) :
    (fillDirectory given patterns vars .terminal).on world = (.error failure, world) := by
  have hprepare := prepare_terminal given patterns vars world
  rw [hgather] at hprepare
  rw [fillDirectory_eq, Work.on_bind, hprepare]

/-- The files that were gathered are printed up to the first that cannot be. -/
theorem fillDirectory_on_gathered (vars : Variables) (hgather : gather given patterns world.disk = .ok (root, visits)) :
    (∃ blocks,
      List.Forall₂ (fun visit text => (plain given vars root).printedFor world.disk visit = .ok text) visits blocks ∧
      (fillDirectory given patterns vars .terminal).on world =
        (.ok (), { world with printed := world.printed ++ String.join blocks })) ∨
    ∃ before visit rest blocks failure, visits = before ++ visit :: rest ∧
      List.Forall₂ (fun visit text => (plain given vars root).printedFor world.disk visit = .ok text) before blocks ∧
      (plain given vars root).printedFor world.disk visit = .error failure ∧
      (fillDirectory given patterns vars .terminal).on world =
        (.error failure, { world with printed := world.printed ++ String.join blocks }) := by
  have hprepare := prepare_terminal given patterns vars world
  rw [hgather] at hprepare
  rcases @fillVisits_print (plain given vars root) {} world visits rfl (.nil _) with
    ⟨blocks, last, hblocks, hon, hpending⟩ | ⟨before, visit, rest, blocks, failure, hsplit, hblocks, hvisit, hon⟩
  · refine Or.inl ⟨blocks, hblocks, ?_⟩
    rw [fillDirectory_on_ok hprepare hon, hpending]
    rfl
  · refine Or.inr ⟨before, visit, rest, blocks, failure, hsplit, hblocks, hvisit, ?_⟩
    unfold plain at hon
    rw [fillDirectory_eq, Work.on_bind_of_ok hprepare, Work.on_bind, hon]

/-- **A fill in the terminal changes nothing and prints whole files only**, in the order of their paths: all of them
if it succeeds, and otherwise those in front of the first that cannot be printed, which is why it fails. What is
printed for a file does not depend on the others, and if no files can be gathered nothing is printed. -/
theorem fillDirectory_prints_front (given : String) (patterns : List String) (vars : Variables) (world : World)
    (hsound : world.disk.Sound) :
    ((fillDirectory given patterns vars .terminal).on world).2.disk = world.disk ∧
    match gather given patterns world.disk with
    | .error failure => (fillDirectory given patterns vars .terminal).on world = (.error failure, world)
    | .ok (root, visits) =>
      (visits.Pairwise fun a b => a.names < b.names) ∧
      ((∃ blocks,
        List.Forall₂ (fun visit text => (plain given vars root).printedFor world.disk visit = .ok text) visits blocks ∧
        (fillDirectory given patterns vars .terminal).on world =
          (.ok (), { world with printed := world.printed ++ String.join blocks })) ∨
      ∃ before visit rest blocks failure, visits = before ++ visit :: rest ∧
        List.Forall₂ (fun visit text => (plain given vars root).printedFor world.disk visit = .ok text) before blocks ∧
        (plain given vars root).printedFor world.disk visit = .error failure ∧
        (fillDirectory given patterns vars .terminal).on world =
          (.error failure, { world with printed := world.printed ++ String.join blocks })) := by
  refine ⟨fillDirectory_terminal given patterns vars world, ?_⟩
  cases hgather : gather given patterns world.disk with
  | error failure => exact fillDirectory_on_ungathered vars hgather
  | ok found => exact ⟨gather_sorted hsound hgather, fillDirectory_on_gathered vars hgather⟩

/-- A template in which the second file loads a text that asks for a file. -/
def hiddenCallDisk : Disk where
  tree := [(["s"], .directory), (["s", "a"], .file "\x7b% include 'p' %\x7d".toUTF8 false),
    (["s", "b"], .file "b \x7b% include 'q' %\x7d".toUTF8 false), (["s", "p"], .file "p".toUTF8 false),
    (["s", "q"], .file "\x7b\x7b toFile('x', 'p') \x7d\x7d".toUTF8 false)]
  directory := []

/-- The files that it is filled with. -/
def hiddenCallVisits : List Visit :=
  [.behind ["s"] ["a"] (.file "\x7b% include 'p' %\x7d".toUTF8 false),
    .behind ["s"] ["b"] (.file "b \x7b% include 'q' %\x7d".toUTF8 false), .behind ["s"] ["p"] (.file "p".toUTF8 false),
    .behind ["s"] ["q"] (.file "\x7b\x7b toFile('x', 'p') \x7d\x7d".toUTF8 false)]

theorem fillDirectory_prints_front_hidden :
    hiddenCallDisk.Sound ∧ asksForFiles "b \x7b% include 'q' %\x7d" = false ∧
      ∃ failure, (fillDirectory "s" [] [] .terminal).on { disk := hiddenCallDisk } =
        (.error failure, { disk := hiddenCallDisk, printed := block "a" "p" }) := by
  have hsound : hiddenCallDisk.Sound := by decide +kernel
  have hgather : gather "s" [] hiddenCallDisk = .ok (["s"], hiddenCallVisits) := by decide +kernel
  have hbarred : ((plain "s" [] ["s"]).printedFor hiddenCallDisk hiddenCallVisits[1]).isOk = false := by decide +kernel
  have hprinted : ((fillDirectory "s" [] [] .terminal).on { disk := hiddenCallDisk }).2.printed = block "a" "p" := by
    decide +kernel
  obtain ⟨-, hprints⟩ := fillDirectory_prints_front "s" [] [] { disk := hiddenCallDisk } hsound
  rw [hgather] at hprints
  refine ⟨hsound, by decide +kernel, ?_⟩
  rcases hprints.2 with ⟨blocks, hblocks, -⟩ | ⟨before, visit, rest, blocks, failure, -, -, -, hended⟩
  · -- Not all of the files can be printed.
    obtain ⟨first, others, -, hothers, rfl⟩ := List.forall₂_cons_left_iff.mp hblocks
    obtain ⟨second, more, hsecond, -, rfl⟩ := List.forall₂_cons_left_iff.mp hothers
    rw [show hiddenCallVisits[1] = .behind ["s"] ["b"] (.file "b \x7b% include 'q' %\x7d".toUTF8 false) from rfl,
      hsecond] at hbarred
    cases hbarred
  · rw [hended] at hprinted
    dsimp only at hprinted
    exact ⟨failure, by rw [hended, hprinted]⟩

end Fill

end Stencil
