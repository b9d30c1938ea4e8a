import Stencil.Proofs.Files.Between
import Stencil.Proofs.Files.Site
import Stencil.Proofs.Template.Alike

/-!
# What a rendering comes to

If it is settled which templates there are, and every file that a rendering wants to write can be written,
then it is settled what the rendering comes to (`Rendering.settled`), and which templates it asks for on the
way (`Rendering.consulted`). No disk appears in that.

A rendering on a disk comes to the same as long as the templates that it asks for are read from the disk as
they are settled. If no files are asked for nothing moves, and it comes to the same in any case
(`Site.run_eq_settled`). If some are, the templates have to be the same in the middle of it, and what is
settled is what it comes to if it succeeds (`Site.settled_of_run`).
-/

namespace Stencil

open Template Files

namespace Template.Rendering

variable {named : String → Prop} {α β : Type} {templates : String → Except LoadFault Document}
  {r r' : Rendering α}

/-- What a rendering comes to, given the templates, if all files can be written. -/
def settled (templates : String → Except LoadFault Document) : Rendering α → Outcome α
  | .done a => .done a
  | .fail fault => .failed fault
  | .exhausted => .exhausted
  | .load name next => (next (templates name)).settled templates
  | .permit _ next => (next true).settled templates
  | .write _ _ next => (next true).settled templates

/-- The names of the templates that a rendering asks for, given the templates, if all files can
be written. -/
def consulted (templates : String → Except LoadFault Document) : Rendering α → List String
  | .done _ => []
  | .fail _ => []
  | .exhausted => []
  | .load name next => name :: (next (templates name)).consulted templates
  | .permit _ next => (next true).consulted templates
  | .write _ _ next => (next true).consulted templates

/-- Renderings that are alike come to the same, and ask for the same templates. -/
theorem Alike.settled_eq (h : Alike named Eq r r')
    (hkeeps : ∀ name ∈ r.consulted templates, AnswerKeeps named (templates name)) :
    r.settled templates = r'.settled templates ∧ r.consulted templates = r'.consulted templates := by
  induction h with
  | done h => exact ⟨h ▸ rfl, rfl⟩
  | fail | exhausted => exact ⟨rfl, rfl⟩
  | load name _ ih =>
      obtain ⟨hsettled, hconsulted⟩ := ih (templates name) (hkeeps name List.mem_cons_self)
        fun other hother => hkeeps other (List.mem_cons_of_mem _ hother)
      exact ⟨hsettled, congrArg (name :: ·) hconsulted⟩
  | permit _ _ _ _ ih => exact ih hkeeps
  | write _ _ _ _ _ ih => exact ih hkeeps

end Template.Rendering

namespace Files

/-- How a rendering ends on a disk if it comes to something. -/
def Ending.ofOutcome {α : Type} : Rendering.Outcome α → Ending α
  | .done a => .done a
  | .failed fault => .failed fault
  | .exhausted => .exhausted

/-- Whether the templates that were loaded are the given ones. -/
def Remembers (templates : String → Except LoadFault Document) (loaded : Entries Document) : Prop :=
  ∀ name document, Entries.get? name loaded = some document → templates name = .ok document

theorem Remembers.nil (templates : String → Except LoadFault Document) : Remembers templates [] :=
  fun _ _ h => absurd h (by simp)

theorem Remembers.put {templates : String → Except LoadFault Document} {loaded : Entries Document}
    {name : String} {document : Document} (h : Remembers templates loaded)
    (hname : templates name = .ok document) :
    Remembers templates (Entries.put name document loaded) := by
  intro other document' hget
  by_cases heq : other = name
  · rw [heq, Entries.get?_put_self, Option.some.injEq] at hget
    rw [heq, hname, hget]
  · rw [Entries.get?_put_of_ne heq] at hget
    exact h other document' hget

/-- Whether a disk comes between two others while files are written that are asked for. -/
structure Disk.Between (targets : List Path) (old new mid : Disk) : Prop where
  before : Disk.WritesOnly (mid.MadeForSome targets) old mid
  after : Disk.Grown mid new

namespace Site

variable {named : String → Prop} {α : Type} {templates : String → Except LoadFault Document}
  {site : Site} {bench : Workbench} {r : Rendering α}

/-- A template is loaded as it is given, if it is read so. -/
theorem load_eq {name : String} (hread : site.readTemplate bench.disk name = templates name)
    (hremembers : Remembers templates bench.loaded) :
    ∃ loaded, site.load bench name = (templates name, { bench with loaded }) ∧
      Remembers templates loaded := by
  unfold load
  cases hget : Entries.get? name bench.loaded with
  | some document => exact ⟨bench.loaded, by rw [hremembers name document hget], hremembers⟩
  | none =>
      rw [hread]
      cases hname : templates name with
      | error fault => exact ⟨bench.loaded, rfl, hremembers⟩
      | ok document => exact ⟨_, rfl, hremembers.put hname⟩

/-- **A rendering without files to write comes to what is settled**, and changes nothing. -/
theorem run_eq_settled (site : Site) (bench : Workbench) (hfile : ¬ named "toFile") (h : Rendering.Alike named Eq r r)
    (hkeeps : ∀ name ∈ r.consulted templates, AnswerKeeps named (templates name))
    (hreads : ∀ name ∈ r.consulted templates, site.readTemplate bench.disk name = templates name)
    (hremembers : Remembers templates bench.loaded) :
    ∃ loaded, site.run r bench = (.ofOutcome (r.settled templates), { bench with loaded }) ∧
      Remembers templates loaded := by
  induction r generalizing bench with
  | done | fail | exhausted => exact ⟨bench.loaded, rfl, hremembers⟩
  | load name next ih =>
      cases h with
      | load _ h =>
          obtain ⟨loaded, hload, hloaded⟩ := load_eq (hreads name List.mem_cons_self) hremembers
          obtain ⟨last, hrun, hlast⟩ := ih (templates name) { bench with loaded }
            (h _ (hkeeps name List.mem_cons_self))
            (fun other hother => hkeeps other (List.mem_cons_of_mem _ hother))
            (fun other hother => hreads other (List.mem_cons_of_mem _ hother)) hloaded
          refine ⟨last, ?_, hlast⟩
          rw [run, hload]
          exact hrun
  | permit path next =>
      cases h with
      | permit _ hnamed => exact absurd hnamed hfile
  | write path text next =>
      cases h with
      | write _ _ hnamed => exact absurd hnamed hfile

/-! ## While files are written -/

variable {targets : List Path} {old new : Disk} {after : Workbench} {root directory : Path}
  {room : Place} {a : α}

/-- **A rendering that succeeds has come to what is settled**, even if it has written files, as long as no
template that it asks for reads otherwise on any disk on the way. -/
theorem settled_of_run (targets : List Path) (old new : Disk)
    (templates : String → Except LoadFault Document) (hscope : site.scope = .within root directory) (hdirectory : directory.IsPlain)
    (h : Rendering.Alike (fun _ => True) Eq r r) (hsound : bench.disk.Sound)
    (hroot : bench.disk.canonical root.render = .ok room) (hpermitted : bench.Confined room)
    (hbefore : Disk.WritesOnly (bench.disk.MadeForSome targets) old bench.disk)
    (htargets : ∀ target ∈ site.written r bench, target ∈ targets)
    (hrun : site.run r bench = (.done a, after)) (hafter : Disk.Grown after.disk new)
    (hkeeps : ∀ name ∈ r.consulted templates, AnswerKeeps (fun _ => True) (templates name))
    (hreads : ∀ name ∈ r.consulted templates, ∀ mid, Disk.Between targets old new mid →
      site.readTemplate mid name = templates name)
    (hremembers : Remembers templates bench.loaded) :
    r.settled templates = .done a ∧ Remembers templates after.loaded := by
  induction r generalizing bench with
  | done =>
      obtain ⟨⟨rfl⟩, rfl⟩ := Prod.mk.inj hrun
      exact ⟨rfl, hremembers⟩
  | fail | exhausted => cases hrun
  | load name next ih =>
      cases h with
      | load _ h =>
          have hend : Disk.Grown bench.disk new := by
            obtain ⟨_, hwrites⟩ := site.run_writesOnly bench hscope hdirectory (.load name next) hsound
              hroot hpermitted
            rw [hrun] at hwrites
            exact hwrites.grown.trans hafter
          obtain ⟨loaded, hload, hloaded⟩ :=
            load_eq (hreads name List.mem_cons_self bench.disk ⟨hbefore, hend⟩) hremembers
          rw [run, hload] at hrun
          rw [written, hload] at htargets
          exact @ih (templates name) { bench with loaded } (h _ (hkeeps name List.mem_cons_self)) hsound
            hroot hpermitted hbefore htargets hrun
            (fun other hother => hkeeps other (List.mem_cons_of_mem _ hother))
            (fun other hother => hreads other (List.mem_cons_of_mem _ hother)) hloaded
  | permit path next ih =>
      cases h with
      | permit _ _ _ h =>
          simp only [run, written, hscope] at hrun htargets
          cases htarget : target? bench.disk root directory path with
          | none =>
              rw [htarget] at hrun
              cases hrun
          | some target =>
              rw [htarget] at hrun htargets
              refine @ih true { bench with permitted := target :: bench.permitted } h hsound hroot
                (fun other hother => ?_) hbefore htargets hrun hkeeps hreads hremembers
              rcases List.mem_cons.mp hother with rfl | hother
              · exact exists_of_target? hsound hdirectory hroot htarget
              · exact hpermitted other hother
  | write path text next ih =>
      cases h with
      | write _ _ _ hno h =>
          obtain ⟨hmid, heq, hwrites⟩ := site.write_writesOnly hsound hpermitted path text
          simp only [run, written] at hrun htargets
          have hloaded : (site.write bench path text).2.loaded = bench.loaded := by
            rw [write_eq]
            split <;> rfl
          cases hanswer : (site.write bench path text).1 with
          | false =>
              -- What could not be written would have ended the rendering.
              obtain ⟨fault, hfail, _⟩ := hno
              rw [hanswer, hfail] at hrun
              cases hrun
          | true =>
              rw [hanswer] at hrun htargets
              refine ih true h hmid (Disk.canonical_grow hwrites.grown hroot)
                (hpermitted.grow heq hwrites) ?_
                (fun target htarget => htargets target (List.mem_append_right _ htarget)) hrun hkeeps
                hreads (hloaded ▸ hremembers)
              refine hbefore.trans_mono hwrites (fun place entry hmade => ?_) fun place entry hmade => ?_
              · exact hmade.mono hwrites.grown fun _ hmem => hmem
              · exact hmade.2.mono (Disk.Grown.refl _) fun target htarget =>
                  htargets target (List.mem_append_left _ htarget)

end Site

end Files

end Stencil
