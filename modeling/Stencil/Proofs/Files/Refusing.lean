import Mathlib
import Stencil.Proofs.Files.Settled
import Stencil.Proofs.Template.Evaluation

/-!
# Refused paths

A template that asks for a file outside of its scope is refused, and the whole rendering is to be reported as
one that left its scope. Whoever refuses cannot end the rendering, though: to an evaluation a refusal is a
fault like any other, which goes through every macro, loop and template around the call and could be wrapped
up, changed or swallowed on its way. So the refusal is noted, and when the rendering is over and has failed,
the notes are looked at.

`Site.follow` is this way of running a rendering. It takes down all that happens, and a refused request is
answered as if nothing could be written. `Site.run` ends a rendering at once instead. That they come to the same
(`follow_cases`) rests on one fact about evaluations: whatever is refused, nothing happens any more.
-/

namespace Stencil.Files

open Template

/-- Something that happens while a rendering is followed. -/
inductive Event where
  | loaded (name : String)
  /-- A file may be written. -/
  | allowed (path : String)
  /-- A file may not be written, because it is outside of the scope. -/
  | refused (path : String)
  /-- A file may not be written, because none may. -/
  | barred (path : String)
  | written (path : String)
  deriving DecidableEq, Inhabited

/-- The path that an event refuses. -/
def Event.refusal? : Event → Option String
  | .refused path => some path
  | _ => none

/-- A rendering that was followed: how it ended as far as the evaluation knows, what has become of the disk,
and what happened. -/
structure Followed (α : Type) where
  outcome : Rendering.Outcome α
  bench : Workbench
  events : List Event

namespace Followed

variable {α : Type}

/-- Puts an event before all others. -/
def after (event : Event) (followed : Followed α) : Followed α :=
  { followed with events := event :: followed.events }

/-- How a rendering is said to have ended: one that failed after a refusal has left its scope. -/
def ending (followed : Followed α) : Ending α :=
  match followed.outcome, (followed.events.filterMap Event.refusal?).getLast? with
  | .failed _, some path => .outside path
  | outcome, _ => .ofOutcome outcome

end Followed

namespace Site

variable {α β : Type}

/-- Follows a rendering to where the evaluation ends it. -/
def follow (site : Site) : Rendering α → Workbench → Followed α
  | .done a, bench => ⟨.done a, bench, []⟩
  | .fail fault, bench => ⟨.failed fault, bench, []⟩
  | .exhausted, bench => ⟨.exhausted, bench, []⟩
  | .load name next, bench =>
    (site.follow (next (site.load bench name).1) (site.load bench name).2).after (.loaded name)
  | .permit path next, bench =>
    match site.scope with
    | .nowhere => (site.follow (next false) bench).after (.barred path)
    | .within root directory =>
      match target? bench.disk root directory path with
      | none => (site.follow (next false) bench).after (.refused path)
      | some target =>
        (site.follow (next true) { bench with permitted := target :: bench.permitted }).after
          (.allowed path)
  | .write path text next, bench =>
    (site.follow (next (site.write bench path text).1) (site.write bench path text).2).after
      (.written path)

/-- Whether a path is outside of the scope of a site. -/
def Refuses (site : Site) (disk : Disk) (path : String) : Prop :=
  ∃ root directory, site.scope = .within root directory ∧
    ∀ target, Path.confine root directory (Path.ofString path) = some target →
      disk.resolvesWithin root target = false

theorem target?_eq_none_iff {disk : Disk} {root directory : Path} {path : String} :
    target? disk root directory path = none ↔
      ∀ target, Path.confine root directory (Path.ofString path) = some target →
        disk.resolvesWithin root target = false := by
  unfold target?
  cases Path.confine root directory (Path.ofString path) with
  | none => simp
  | some target => cases h : disk.resolvesWithin root target <;> simp [h]

end Site

/-- **Whether the last thing that happened is that a path was refused**, the first that was. The disk is as it
was when the path was asked for. -/
structure Followed.EndsRefused {α : Type} (site : Site) (followed : Followed α) (path : String) : Prop where
  failed : ∃ fault, followed.outcome = .failed fault
  last : ∃ front, followed.events = front ++ [.refused path] ∧ ∀ other, .refused other ∉ front
  refuses : site.Refuses followed.bench.disk path

namespace Followed

variable {α : Type} {site : Site} {followed : Followed α} {path : String} {event : Event}

theorem EndsRefused.after (h : followed.EndsRefused site path) (hevent : ∀ other, event ≠ .refused other) :
    (followed.after event).EndsRefused site path where
  failed := h.failed
  refuses := h.refuses
  last := by
    obtain ⟨front, hevents, hfirst⟩ := h.last
    refine ⟨event :: front, congrArg (event :: ·) hevents, fun other hother => ?_⟩
    rcases List.mem_cons.mp hother with heq | hmem
    · exact hevent other heq.symm
    · exact hfirst other hmem

theorem EndsRefused.ending_eq (h : followed.EndsRefused site path) : followed.ending = .outside path := by
  obtain ⟨fault, hfailed⟩ := h.failed
  obtain ⟨front, hevents, _⟩ := h.last
  unfold ending
  simp only [hfailed, hevents, List.filterMap_append, List.filterMap_cons, Event.refusal?,
    List.filterMap_nil, List.getLast?_concat]

/-- There is only one path that can be refused in the end. -/
theorem EndsRefused.eq_of_mem {other : String} (h : followed.EndsRefused site path)
    (hother : .refused other ∈ followed.events) : other = path := by
  obtain ⟨front, hevents, hfirst⟩ := h.last
  rw [hevents] at hother
  rcases List.mem_append.mp hother with hmem | hmem
  · exact absurd hmem (hfirst other)
  · exact Event.refused.inj (List.mem_singleton.mp hmem)

theorem ending_of_none_refused (h : ∀ other, .refused other ∉ followed.events) :
    followed.ending = .ofOutcome followed.outcome := by
  have hnone : followed.events.filterMap Event.refusal? = [] := by
    refine List.filterMap_eq_nil_iff.mpr fun event hevent => ?_
    cases event with
    | refused other => exact absurd hevent (h other)
    | loaded | allowed | barred | written => rfl
  unfold ending
  rw [hnone, List.getLast?_nil]
  split
  · contradiction
  · rfl

end Followed

namespace Site

variable {α β : Type} {site : Site} {r : Rendering α}

/-- **Either nothing is refused**, and a rendering ends as the evaluation ends it, **or something is**, and then
nothing happens any more and the rendering has left its scope. -/
theorem follow_cases (site : Site) (h : Rendering.Alike (fun _ => True) Eq r r) (bench : Workbench) :
    ((∀ path, .refused path ∉ (site.follow r bench).events) ∧
      site.run r bench = (.ofOutcome (site.follow r bench).outcome, (site.follow r bench).bench)) ∨
    ∃ path, (site.follow r bench).EndsRefused site path ∧
      site.run r bench = (.outside path, (site.follow r bench).bench) := by
  -- An event that refuses nothing leaves it at that.
  have hafter : ∀ {followed : Followed α} {result : Ending α × Workbench} {event : Event},
      (∀ other, event ≠ .refused other) →
      ((∀ path, .refused path ∉ followed.events) ∧ result = (.ofOutcome followed.outcome, followed.bench) ∨
        ∃ path, followed.EndsRefused site path ∧ result = (.outside path, followed.bench)) →
      ((∀ path, .refused path ∉ (followed.after event).events) ∧
          result = (.ofOutcome (followed.after event).outcome, (followed.after event).bench) ∨
        ∃ path, (followed.after event).EndsRefused site path ∧
          result = (.outside path, (followed.after event).bench)) := by
    rintro followed result event hevent (⟨hnone, hresult⟩ | ⟨path, hends, hresult⟩)
    · refine Or.inl ⟨fun path hpath => ?_, hresult⟩
      rcases List.mem_cons.mp hpath with heq | hmem
      · exact hevent path heq.symm
      · exact hnone path hmem
    · exact Or.inr ⟨path, hends.after hevent, hresult⟩
  induction r generalizing bench with
  | done | fail | exhausted => exact Or.inl ⟨fun _ => List.not_mem_nil, rfl⟩
  | load name next ih =>
      cases h with
      | load _ h =>
          rw [run, follow]
          refine hafter (by simp) (ih _ (h _ fun document _ => ?_) _)
          exact document.keeps_of_forall fun _ => trivial
  | permit path next ih =>
      cases h with
      | permit _ _ hno h =>
          obtain ⟨fault, hfail, _⟩ := hno
          cases hscope : site.scope with
          | nowhere =>
              simp only [run, follow, hscope, hfail]
              exact hafter (by simp) (Or.inl ⟨fun _ => List.not_mem_nil, rfl⟩)
          | within root directory =>
              cases htarget : target? bench.disk root directory path with
              | none =>
                  simp only [run, follow, hscope, htarget, hfail]
                  refine Or.inr ⟨path, ⟨⟨fault, rfl⟩, ⟨[], rfl, fun _ => List.not_mem_nil⟩, ?_⟩, rfl⟩
                  exact ⟨root, directory, hscope, target?_eq_none_iff.mp htarget⟩
              | some target =>
                  simp only [run, follow, hscope, htarget]
                  exact hafter (by simp) (ih true h _)
  | write path text next ih =>
      cases h with
      | write _ _ _ hno h =>
          obtain ⟨fault, hfail, _⟩ := hno
          have hrun : site.run (.write path text next) bench =
            site.run (next (site.write bench path text).1) (site.write bench path text).2 := rfl
          rw [hrun, follow]
          refine hafter (by simp) ?_
          cases (site.write bench path text).1 with
          | false =>
              rw [hfail]
              exact Or.inl ⟨fun _ => List.not_mem_nil, rfl⟩
          | true => exact ih true h _

/-- **A call of `toFile`** where a writer can be seen asks for leave first. With it the macro or template is
rendered, and then the file is written; without it the call fails. -/
theorem toFile_asks {fuel : Nat} {m : Machine} {path name label : String} {safe safe' : Bool}
    (data? : Option Datum)
    (hwriter : m.frames.findSome? (Run.frameLookup? m.store writerName) = some (.writer label)) :
    ∃ given?, Run.callDatum (fuel + 1) (.function .toFile)
        (.text path safe :: .text name safe' :: data?.toList) m =
      .permit path fun allowed => (if allowed then do
          let text ← Run.renderNamed fuel name given?
          if ← Run.write path text then pure (.ofString "") else Run.raise (.fileNotWritten path)
        else Run.raise .filesUnsupported : Run Datum) m := by
  have hread : ∃ given?, Reading.run (do
      let path ← Reading.required Reading.asText
      let name ← Reading.required Reading.asText
      let data? ← Reading.optional Reading.asAny
      pure (path, name, data?)) (.text path safe :: .text name safe' :: data?.toList) =
        .ok (path, name, given?) := by
    cases data? with
    | none => exact ⟨none, rfl⟩
    | some d => cases d <;> exact ⟨_, rfl⟩
  obtain ⟨given?, hread⟩ := hread
  have hlookup : Run.lookup? writerName m = .done (some (.writer label), m) := by
    rw [Run.lookup?_apply, hwriter]
    rfl
  refine ⟨given?, ?_⟩
  unfold Run.callDatum
  simp only [hread]
  show (Run.lookup? writerName m).bind _ = _
  rw [hlookup]
  rfl

/-- A call of `toFile` that is refused is the end, whatever was to come after it. -/
theorem follow_toFile {fuel : Nat} {m : Machine} {bench : Workbench} {path name label : String}
    {safe safe' : Bool} (data? : Option Datum) (next : Datum × Machine → Rendering β)
    (hwriter : m.frames.findSome? (Run.frameLookup? m.store writerName) = some (.writer label))
    (hrefuses : site.Refuses bench.disk path) :
    site.follow ((Run.callDatum (fuel + 1) (.function .toFile)
        (.text path safe :: .text name safe' :: data?.toList) m).bind next) bench =
      ⟨.failed { cause := .filesUnsupported }, bench, [.refused path]⟩ := by
  obtain ⟨given?, hasks⟩ := toFile_asks data? hwriter
  obtain ⟨root, directory, hscope, houtside⟩ := hrefuses
  rw [hasks, Rendering.bind, follow]
  simp only [hscope, target?_eq_none_iff.mpr houtside]
  rfl

/-- **A rendering is reported to have left its scope if and only if a path was refused**, and then with that
path: it is the only one, and with it all ends, since nothing is loaded, allowed or written after it. A call of
`toFile` with a path outside of the scope is refused before anything else is done for it. Whatever fails for
another reason is reported as that. -/
theorem render_outside_iff (site : Site) (name text : String) (context : Value) (bench : Workbench) :
    site.render name text context bench =
      ((site.follow (rendering name text context site.scope) bench).ending,
        (site.follow (rendering name text context site.scope) bench).bench) ∧
    (∀ path, (site.render name text context bench).1 = .outside path ↔
      .refused path ∈ (site.follow (rendering name text context site.scope) bench).events) ∧
    (∀ path, .refused path ∈ (site.follow (rendering name text context site.scope) bench).events →
      (site.follow (rendering name text context site.scope) bench).EndsRefused site path) ∧
    ∀ (fuel : Nat) (m : Machine) (path macroName label : String) (safe safe' : Bool) (data? : Option Datum)
      (next : Datum × Machine → Rendering String) (now : Workbench),
      m.frames.findSome? (Run.frameLookup? m.store writerName) = some (.writer label) →
      site.Refuses now.disk path →
      site.follow ((Run.callDatum (fuel + 1) (.function .toFile)
          (.text path safe :: .text macroName safe' :: data?.toList) m).bind next) now =
        ⟨.failed { cause := .filesUnsupported }, now, [.refused path]⟩ := by
  have halike : Rendering.Alike (fun _ => True) Eq (rendering name text context site.scope)
      (rendering name text context site.scope) :=
    rendering_alike context (Or.inl rfl) fun document _ => document.keeps_of_forall fun _ => trivial
  refine ⟨?_, ?_, ?_, fun _ _ _ _ _ _ _ data? next _ => follow_toFile data? next⟩
  all_goals rcases site.follow_cases halike bench with ⟨hnone, hrun⟩ | ⟨refused, hends, hrun⟩
  · rw [render, hrun, Followed.ending_of_none_refused hnone]
  · rw [render, hrun, hends.ending_eq]
  · intro path
    rw [render, hrun]
    refine ⟨fun houtside => ?_, fun hmem => absurd hmem (hnone path)⟩
    cases hout : (site.follow (rendering name text context site.scope) bench).outcome <;>
      rw [hout] at houtside <;> cases houtside
  · intro path
    rw [render, hrun]
    constructor
    · rintro ⟨rfl⟩
      obtain ⟨front, hevents, _⟩ := hends.last
      exact hevents ▸ List.mem_append_right _ (List.mem_singleton.mpr rfl)
    · intro hmem
      rw [hends.eq_of_mem hmem]
  · exact fun path hmem => absurd hmem (hnone path)
  · exact fun path hmem => hends.eq_of_mem hmem ▸ hends

end Site

end Stencil.Files
