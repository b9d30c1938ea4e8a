import Stencil.Proofs.Fill.Forecast
import Stencil.Proofs.Fill.WritingBack

/-!
# What the files of a fill in place come to

The texts of a fill in place wait until the last file was rendered, but what templates ask for is written at
once. So a file comes to what its original bytes come to with the original templates, whatever was filled
before it, unless a template has asked for that very file, or for one of its templates
(`fillDirectory_renders_originals`). And unless, that is to say: a file that a template has asked for is rendered
from what was written there, and a template that was missing may be there by then.

The disk of every moment lies between the first and the last one (`Disk.Between`), and what no generated path
finds in the end was not written at any moment before.
-/

namespace Stencil.Fill

open Files Files.Disk Template

variable {given : String} {patterns : List String} {vars : Variables} {root place : Place}
  {visits : List Visit} {visit : Visit} {fill : Fill} {progress : Progress} {world : World}
  {targets : List Path} {old new : Disk}

/-- Where the templates of a file may write, if it is filled in place. -/
def ownScope (fill : Fill) (visit : Visit) : Scope :=
  scopeNextTo fill.source (visit.path fill.source)

/-! ## At any moment -/

/-- What no generated path finds in the end is as it was, at any moment. -/
theorem between_at?_eq {disk : Disk} {entry : Entry} (h : Between targets old new disk)
    (hnot : ∀ target ∈ targets, new.canonical target.render ≠ .ok place)
    (hat : old.at? place = some entry) : disk.at? place = old.at? place := by
  rcases h.before.changed place with heq | ⟨now, _, hfresh, target, htarget, ⟨_, hcanonical⟩ | ⟨rfl, _⟩⟩
  · exact heq
  · exact absurd (canonical_grow h.after hcanonical) (hnot target htarget)
  · rw [hat] at hfresh
    cases hfresh

/-- A file and its templates are read as they were, at any moment, if no generated path finds one of them. -/
theorem reads_between {disk : Disk} {scope : Scope} {content : ByteArray} {executable : Bool}
    (h : Between targets old new disk)
    (hfind : old.find true (visit.path fill.source) = .ok (place, .file content executable))
    (hspared : ∀ target ∈ targets, new.canonical target.render ≠ .ok place)
    (htemplates : ∀ name ∈ fill.consultedBy old scope visit,
      (fill.templates old name = .error .missing → fill.templates new name = .error .missing) ∧
      ∀ path, Site.templatePath? fill.given name = some path → ∀ there, old.canonical path = .ok there →
        ∀ target ∈ targets, new.canonical target.render ≠ .ok there) :
    fill.Reads old scope visit disk := by
  refine ⟨?_, fun name hname => ?_⟩
  · obtain ⟨grown, _, hfind'⟩ := find_grow h.before.grown hfind
    have hsame := between_at?_eq h hspared (find_at? hfind)
    rw [find_at? hfind', find_at? hfind, Option.some.injEq] at hsame
    simp only [Disk.read, hfind, hfind', hsame]
  · obtain ⟨hmissing, hfree⟩ := htemplates name hname
    refine templates_between h.before.grown h.after hmissing fun path hpath there hthere => ?_
    obtain ⟨entry, hentry⟩ := canonical_eq_ok.mp hthere
    exact between_at?_eq h (hfree path hpath there hthere) (find_at? hentry)

/-! ## File by file -/

/-- What it takes for a text to be filled in place. -/
theorem fillVisit_inPlace_done {content : ByteArray} {text : String} {next : Progress} {after : World}
    (hroute : fill.route = .inPlace) (hread : world.disk.read (visit.path fill.source) = .ok content)
    (htext : String.fromUTF8? content = some text)
    (hon : (fill.fillVisit progress visit).on world = (.ok next, after)) :
    ∃ filled bench,
      Site.run { templates? := some fill.given, scope := fill.ownScope visit }
          (rendering visit.name text fill.context (fill.ownScope visit))
          { disk := world.disk, loaded := progress.loaded } = (.done filled, bench) ∧
        after.disk = bench.disk ∧ next.loaded = bench.loaded ∧
        next.pending = (visit.path fill.source, filled) :: progress.pending := by
  simp only [fillVisit, Work.on_bind, Work.on_ask, hread, htext, fillText, hroute, renderFile, Work.on_disk,
    Site.render, Work.on_setDisk] at hon
  unfold ownScope
  cases hrun : Site.run
      { templates? := some fill.given, scope := scopeNextTo fill.source (visit.path fill.source) }
      (rendering visit.name text fill.context (scopeNextTo fill.source (visit.path fill.source)))
      { disk := world.disk, loaded := progress.loaded } with
  | mk ending bench =>
      rw [hrun] at hon
      cases ending with
      | done filled =>
          obtain ⟨hnext, rfl⟩ := Prod.mk.inj hon
          obtain rfl := Except.ok.inj hnext
          exact ⟨filled, bench, rfl, rfl, rfl, rfl⟩
      | failed | outside | exhausted => cases hon

/-- Any template that is read has names. -/
theorem templates_keep_any (disk : Disk) (name : String) :
    AnswerKeeps (fun _ => True) (fill.templates disk name) :=
  templates_keep fun _ _ _ _ _ _ => trivial

/-- **A file that was filled has come to what was foretold** for its original bytes, if they and its templates
are read as they were at any moment. -/
theorem fillVisit_intact {content : ByteArray} {next : Progress} {after : World}
    (h : InPlaceAt fill root world.disk) (hnames : ∀ s ∈ visit.names, IsName s)
    (hold : old.read (visit.path fill.source) = .ok content)
    (hbefore : WritesOnly (world.disk.MadeForSome targets) old world.disk)
    (htargets : ∀ target ∈ fill.askedBy progress visit world.disk, target ∈ targets)
    (hon : (fill.fillVisit progress visit).on world = (.ok next, after)) (hafter : Grown after.disk new)
    (hreads : ∀ disk, Between targets old new disk → fill.Reads old (fill.ownScope visit) visit disk)
    (hremembers : Remembers (fill.templates old) progress.loaded) :
    ∃ text?, fill.foretell old (fill.ownScope visit) visit = .ok text? ∧
      next.pending = (backlog fill.source [(visit, text?)]).reverse ++ progress.pending ∧
      Remembers (fill.templates old) next.loaded := by
  obtain ⟨⟨_, hwrites⟩, _⟩ := (fillVisit_inPlace progress h hnames).done_of_ok hon
  have hread : world.disk.read (visit.path fill.source) = .ok content :=
    (hreads world.disk ⟨hbefore, hwrites.grown.trans hafter⟩).read.trans hold
  cases htext : String.fromUTF8? content with
  | none =>
      simp only [fillVisit, Work.on_bind, Work.on_ask, hread, htext, passBinary, h.route_eq,
        Work.on_pure] at hon
      obtain rfl := Except.ok.inj (Prod.mk.inj hon).1
      exact ⟨none, by simp only [foretell, hold, htext], rfl, hremembers⟩
  | some text =>
      obtain ⟨filled, bench, hrun, hdisk, hloaded, hpending⟩ :=
        fillVisit_inPlace_done h.route_eq hread htext hon
      have hall : ∀ s ∈ root ++ visit.names, IsName s := fun s hs =>
        (List.mem_append.mp hs).elim (h.isName s) (hnames s)
      have hpath : Spells (visit.path fill.source) (root ++ visit.names) := by
        rw [h.source_eq, Visit.path_render hall]
        exact spells_render hall
      obtain ⟨directory, hdirectory, hscope⟩ := scopeNextTo_eq h.isName hpath
      rw [← h.source_eq] at hscope
      have htext' : old.readText (visit.path fill.source) = .ok text := by
        simp only [readText, hold, htext]
      have hasked : fill.askedBy progress visit world.disk =
          fill.asked progress visit.name text (fill.ownScope visit) world.disk := by
        simp only [askedBy, hread, htext, h.route_eq, ownScope]
      have hconsulted : fill.consultedBy old (fill.ownScope visit) visit =
          (rendering visit.name text fill.context (fill.ownScope visit)).consulted
            (fill.templates old) := by
        simp only [consultedBy, htext']
      have halike : Rendering.Alike (fun _ => True) Eq
          (rendering visit.name text fill.context (fill.ownScope visit))
          (rendering visit.name text fill.context (fill.ownScope visit)) :=
        rendering_alike fill.context (Or.inl rfl) fun _ hdocument =>
          Document.ofString_keeps hdocument fun _ _ => trivial
      obtain ⟨hsettled, hremembered⟩ := Site.settled_of_run targets old new (fill.templates old)
        hscope hdirectory halike h.sound
        (Path.render_place root ▸ h.canonical) (by intro _ hmem; cases hmem) hbefore
        (fun target htarget => htargets target (hasked ▸ htarget)) hrun (hdisk ▸ hafter)
        (fun name _ => templates_keep_any old name)
        (fun name hname disk hbetween => (hreads disk hbetween).templates name (hconsulted ▸ hname))
        hremembers
      refine ⟨some filled, ?_, hpending, hloaded ▸ hremembered⟩
      simp only [foretell, hold, htext, rendered, hsettled]
      rfl

/-- **Files that were filled have come to what was foretold** for their original bytes. -/
theorem fillVisits_intact (fill : Fill) {last : Progress} {after : World} (hsound : old.Sound)
    (hgather : gather given patterns old = .ok (root, visits)) (hsource : fill.source = root.render)
    (hreads : ∀ visit ∈ visits, ∀ disk, Between targets old new disk →
      fill.Reads old (fill.ownScope visit) visit disk) {rest : List Visit} (hrest : rest ⊆ visits)
    (h : InPlaceAt fill root world.disk)
    (hbefore : WritesOnly (world.disk.MadeForSome targets) old world.disk)
    (htargets : ∀ target ∈ fill.generated progress rest world, target ∈ targets)
    (hon : (rest.foldlM fill.fillVisit progress).on world = (.ok last, after))
    (hafter : Grown after.disk new) (hremembers : Remembers (fill.templates old) progress.loaded) :
    ∃ files, files.map Prod.fst = rest ∧
      (∀ file ∈ files, fill.foretell old (fill.ownScope file.1) file.1 = .ok file.2) ∧
      last.pending = (backlog fill.source files).reverse ++ progress.pending := by
  induction rest generalizing progress world with
  | nil =>
      obtain rfl := Except.ok.inj (Prod.mk.inj hon).1
      exact ⟨[], rfl, by simp, rfl⟩
  | cons visit rest ih =>
      have hvisit : visit ∈ visits := hrest List.mem_cons_self
      obtain ⟨content, _, hat, hfind⟩ := file_of_gather hsound hgather hvisit
      have hold : old.read (visit.path fill.source) = .ok content := by
        simp only [hsource, Disk.read, hfind]
      have hnames : ∀ other ∈ visit :: rest, ∀ s ∈ other.names, IsName s := by
        intro other hother s hs
        obtain ⟨_, _, hthere, _⟩ := file_of_gather hsound hgather (hrest hother)
        exact hsound.isName hthere s (List.mem_append_right _ hs)
      rw [List.foldlM_cons, Work.on_bind] at hon
      rw [generated] at htargets
      rcases hfirst : (fill.fillVisit progress visit).on world with ⟨failure | next, mid⟩
      · rw [hfirst] at hon
        cases hon
      · rw [hfirst] at hon htargets
        obtain ⟨⟨hmid, hwrites⟩, _⟩ :=
          (fillVisit_inPlace progress h (hnames visit List.mem_cons_self)).done_of_ok hfirst
        have hmidAt := h.grow hwrites.grown hmid
        have hthen := (fillVisits_inPlace hmidAt fun other hother =>
          hnames other (List.mem_cons_of_mem _ hother)).done_of_ok hon
        obtain ⟨text?, hforetold, hpending, hloaded⟩ := fillVisit_intact h
          (hnames visit List.mem_cons_self) hold hbefore
          (fun target htarget => htargets target (List.mem_append_left _ htarget)) hfirst
          (hthen.1.2.grown.trans hafter) (hreads visit hvisit) hremembers
        have hbefore' : WritesOnly (mid.disk.MadeForSome targets) old mid.disk := by
          refine hbefore.trans_mono hwrites (fun _ _ hmade => ?_) fun _ _ hmade => ?_
          · exact hmade.mono hwrites.grown fun _ hmem => hmem
          · exact hmade.2.mono (Grown.refl _) fun target htarget =>
              htargets target (List.mem_append_left _ htarget)
        obtain ⟨files, hfiles, hall, hlast⟩ := ih (fun other hother =>
          hrest (List.mem_cons_of_mem _ hother)) hmidAt hbefore'
          (fun target htarget => htargets target (List.mem_append_right _ htarget)) hon hloaded
        refine ⟨(visit, text?) :: files, by rw [List.map_cons, hfiles], ?_, ?_⟩
        · exact List.forall_mem_cons.mpr ⟨hforetold, hall⟩
        · rw [hlast, hpending, ← List.append_assoc, ← List.reverse_append, ← backlog_cons]

/-! ## The whole fill -/

variable {after : World}

/-- **Whether a fill in place has spared what it reads**: no path that a template asked for finds a file that is
filled or a template that such a file asks for, and no template that was missing is there in the end. -/
structure Spares (given : String) (patterns : List String) (vars : Variables) (old : Disk)
    (targets : List Path) (new : Disk) : Prop where
  files : ∀ root visits, gather given patterns old = .ok (root, visits) → ∀ visit ∈ visits,
    ∀ target ∈ targets, new.canonical target.render ≠ .ok (root ++ visit.names)
  templates : ∀ root visits, gather given patterns old = .ok (root, visits) → ∀ visit ∈ visits,
    ∀ name ∈ (plain given vars root).consultedBy old ((plain given vars root).ownScope visit) visit,
      ∀ path, Site.templatePath? given name = some path → ∀ there, old.canonical path = .ok there →
        ∀ target ∈ targets, new.canonical target.render ≠ .ok there
  missing : ∀ root visits, gather given patterns old = .ok (root, visits) → ∀ visit ∈ visits,
    ∀ name ∈ (plain given vars root).consultedBy old ((plain given vars root).ownScope visit) visit,
      (plain given vars root).templates old name = .error .missing →
        (plain given vars root).templates new name = .error .missing

variable {targets : List Path}

/-- What it has spared is read as it was, at any moment. -/
theorem Spares.reads {disk : Disk} (h : Spares given patterns vars old targets new) (hsound : old.Sound)
    (hgather : gather given patterns old = .ok (root, visits)) (hvisit : visit ∈ visits)
    (hbetween : Between targets old new disk) :
    (plain given vars root).Reads old ((plain given vars root).ownScope visit) visit disk := by
  obtain ⟨content, _, _, hfind⟩ := file_of_gather hsound hgather hvisit
  exact reads_between hbetween hfind (h.files root visits hgather visit hvisit) fun name hname =>
    ⟨h.missing root visits hgather visit hvisit name hname,
      h.templates root visits hgather visit hvisit name hname⟩

/-- A file that it has spared is the same, at any moment, and its path finds it. -/
theorem Spares.find_eq {disk : Disk} (h : Spares given patterns vars old targets new) (hsound : old.Sound)
    (hgather : gather given patterns old = .ok (root, visits)) (hvisit : visit ∈ visits)
    (hbetween : Between targets old new disk) :
    ∃ content executable, old.at? (root ++ visit.names) = some (.file content executable) ∧
      disk.find true (visit.path root.render) = .ok (root ++ visit.names, .file content executable) := by
  obtain ⟨content, executable, hat, hfind⟩ := file_of_gather hsound hgather hvisit
  have hsame := between_at?_eq hbetween (h.files root visits hgather visit hvisit) hat
  obtain ⟨content', executable', hfind'⟩ := find_file_grow hbetween.before.grown hfind
  rw [find_at? hfind', hat, Option.some.injEq] at hsame
  exact ⟨content, executable, hat, hsame ▸ hfind'⟩

/-- What is in a file when the texts are written back. -/
theorem FilledInPlace.at?_eq {files : List (Visit × Option String)} {file : Visit × Option String}
    {content : ByteArray} {executable : Bool} (h : FilledInPlace root files old new)
    (hsorted : (files.map fun file => file.1.names).Pairwise (· < ·)) (hfile : file ∈ files)
    (hat : old.at? (root ++ file.1.names) = some (.file content executable)) :
    new.at? (root ++ file.1.names) = some (.file (filledContent content file.2) executable) := by
  rcases file with ⟨visit, _ | text⟩
  · -- A file that is no text is nowhere among those that are written back.
    refine (h.kept _ fun other text hother heq => ?_).trans hat
    cases text_unique hsorted hfile hother (List.append_cancel_left heq)
  · obtain ⟨content', executable', hat', hnew⟩ := h.written visit text hfile
    obtain ⟨rfl, rfl⟩ := Entry.file.inj (Option.some.inj (hat.symm.trans hat'))
    exact hnew

/-- A template with a file that asks for another one to be written from a template, and includes that template. -/
def intactDisk : Disk where
  tree := [(["s"], .directory),
    (["s", "a"], .file "\x7b\x7b toFile('n', 't') \x7d\x7d\x7b% include 't' %\x7d".toUTF8 true),
    (["s", "t"], .file "1".toUTF8 false)]
  directory := []

/-- What there is when it was filled in place. -/
def intactAfter : World := ((fillDirectory "s" [] [] .inPlace).on { disk := intactDisk }).2

/-- Its files. -/
def intactVisits : List Visit :=
  [{ names := ["a"], place := ["s", "a"],
     entry := .file "\x7b\x7b toFile('n', 't') \x7d\x7d\x7b% include 't' %\x7d".toUTF8 true },
   { names := ["t"], place := ["s", "t"], entry := .file "1".toUTF8 false }]

end Stencil.Fill
