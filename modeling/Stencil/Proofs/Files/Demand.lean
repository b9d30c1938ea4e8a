import Mathlib
import Stencil.Files.Site
import Stencil.Proofs.Template.Enough

/-!
# Renderings that end

A template that renders others by their names starts an evaluation afresh, and nothing counts how many of them
are nested: the limit on frames holds inside of one evaluation only. So whether a rendering ends is a question
of what it loads. If that is bounded, however many levels it is given, there is a number of levels with which it
ends, and from there on more levels make no difference; and if it ends, it is bounded
(`Site.render_ends_iff`).

What is loaded counts as often as it is asked for, although a template is read only once. A template that
includes itself asks for no more than one file, and never ends.
-/

namespace Stencil.Files

open Template

namespace Site

variable {α β : Type} {site : Site}

/-- How much text there is in what is answered to a request for a template, and one for the template. -/
noncomputable def amount : Except LoadFault Document → Nat
  | .ok document => document.size + 1
  | .error _ => 0

/-- How much text a rendering asks for, and how many templates. -/
noncomputable def demand (site : Site) : Rendering α → Workbench → Nat
  | .done _, _ => 0
  | .fail _, _ => 0
  | .exhausted, _ => 0
  | .load name next, bench =>
    amount (site.load bench name).1 + site.demand (next (site.load bench name).1) (site.load bench name).2
  | .permit path next, bench =>
    match site.scope with
    | .nowhere => site.demand (next false) bench
    | .within root directory =>
      match target? bench.disk root directory path with
      | none => 0
      | some target => site.demand (next true) { bench with permitted := target :: bench.permitted }
  | .write path text next, bench =>
    site.demand (next (site.write bench path text).1) (site.write bench path text).2

/-- **Two renderings, one of which may be exhausted earlier**: either it is, and asked for no more than the
other, or they come to the same end. -/
theorem run_upto {full : Prop} {size loads : Nat} {post : Nat → α → Prop} {r r' : Rendering α}
    (h : Rendering.Upto full size post loads r r') (bench : Workbench)
    (hloads : site.demand r bench ≤ loads) (hsize : site.demand r bench ≤ size) :
    ((site.run r bench).1 = .exhausted ∧ ¬ full ∧ site.demand r bench ≤ site.demand r' bench) ∨
      ((site.run r bench).1 ≠ .exhausted ∧ site.run r bench = site.run r' bench ∧
        site.demand r bench = site.demand r' bench) := by
  induction h generalizing bench with
  | done | fail => exact Or.inr ⟨by simp [run], rfl, rfl⟩
  | exhausted hfull => exact Or.inl ⟨rfl, hfull, Nat.zero_le _⟩
  | @load loads name _ _ _ _ ihfault ih =>
      simp only [demand] at hloads hsize ⊢
      cases hanswer : (site.load bench name).1 with
      | error fault =>
          simp only [run, hanswer, amount, Nat.zero_add] at hloads hsize ⊢
          exact ihfault fault _ hloads hsize
      | ok document =>
          simp only [run, hanswer, amount] at hloads hsize ⊢
          obtain ⟨left, hleft⟩ : ∃ left, loads = left + 1 := ⟨loads - 1, by omega⟩
          rcases ih left document hleft (by omega) (site.load bench name).2 (by omega) (by omega) with
            ⟨hrun, hfull, hle⟩ | ⟨hends, hrun, heq⟩
          · exact Or.inl ⟨hrun, hfull, Nat.add_le_add_left hle _⟩
          · exact Or.inr ⟨hends, hrun, by rw [heq]⟩
  | permit path _ ih =>
      simp only [run, demand] at hloads hsize ⊢
      cases hscope : site.scope with
      | nowhere =>
          simp only [hscope] at hloads hsize ⊢
          exact ih false bench hloads hsize
      | within root directory =>
          simp only [hscope] at hloads hsize ⊢
          cases htarget : target? bench.disk root directory path with
          | none => exact Or.inr ⟨by simp, rfl, rfl⟩
          | some target =>
              simp only [htarget] at hloads hsize ⊢
              exact ih true _ hloads hsize
  | write path text _ ih =>
      simp only [run, demand] at hloads hsize ⊢
      exact ih _ _ hloads hsize

/-! ## More levels -/

/-- The limits on a rendering that asks for no more than a total. -/
noncomputable def limitsOn (document : Document) (total : Nat) : Limits :=
  { size := document.size + total + 1, loads := total, frames := 0 }

/-- A rendering that is given more levels, and enough of them if that is known. -/
theorem run_deeper {full : Prop} {document : Document} {bench : Workbench} {depth depth' total : Nat}
    (data : Datum) (hle : depth ≤ depth')
    (hfull : full → (limitsOn document total).fresh.levels + 2 * (limitsOn document total).size + 10 ≤ depth)
    (htotal : site.demand (document.rendering depth data) bench ≤ total) :
    ((site.run (document.rendering depth data) bench).1 = .exhausted ∧ ¬ full ∧
        site.demand (document.rendering depth data) bench ≤
          site.demand (document.rendering depth' data) bench) ∨
      ((site.run (document.rendering depth data) bench).1 ≠ .exhausted ∧
        site.run (document.rendering depth data) bench = site.run (document.rendering depth' data) bench ∧
        site.demand (document.rendering depth data) bench =
          site.demand (document.rendering depth' data) bench) := by
  have hsize : document.size ≤ (limitsOn document total).size := by
    simp only [limitsOn]
    omega
  have hpositive : 0 < (limitsOn document total).size := by
    simp only [limitsOn]
    omega
  have hupto := document.rendering_upto data hsize hpositive hle hfull
  refine run_upto hupto bench htotal (Nat.le_trans htotal ?_)
  simp only [limitsOn]
  omega

/-- What was rendered to its end within some levels is the same within more. -/
theorem run_eq_of_le {document : Document} {data : Datum} {bench : Workbench} {depth depth' : Nat}
    (hle : depth ≤ depth') (hends : (site.run (document.rendering depth data) bench).1 ≠ .exhausted) :
    site.run (document.rendering depth' data) bench = site.run (document.rendering depth data) bench ∧
      site.demand (document.rendering depth' data) bench =
        site.demand (document.rendering depth data) bench := by
  rcases run_deeper data hle False.elim (Nat.le_refl _) with ⟨hexhausted, -, -⟩ | ⟨-, hrun, hdemand⟩
  · exact absurd hexhausted hends
  · exact ⟨hrun.symm, hdemand.symm⟩

/-- With more levels, no less is asked for. -/
theorem demand_le_of_le {document : Document} (data : Datum) (bench : Workbench) {depth depth' : Nat}
    (hle : depth ≤ depth') : site.demand (document.rendering depth data) bench ≤
      site.demand (document.rendering depth' data) bench := by
  rcases run_deeper data hle False.elim (Nat.le_refl _) with ⟨-, -, hle⟩ | ⟨-, -, heq⟩
  · exact hle
  · exact Nat.le_of_eq heq

/-- **A rendering ends within some levels exactly if what it asks for is bounded**, however many it is given. -/
theorem exists_ends_iff (document : Document) (data : Datum) (bench : Workbench) :
    (∃ depth, (site.run (document.rendering depth data) bench).1 ≠ .exhausted) ↔
      ∃ total, ∀ depth, site.demand (document.rendering depth data) bench ≤ total := by
  constructor
  · rintro ⟨depth, hends⟩
    refine ⟨site.demand (document.rendering depth data) bench, fun other => ?_⟩
    rcases Nat.le_total other depth with hle | hle
    · exact demand_le_of_le data bench hle
    · exact Nat.le_of_eq (run_eq_of_le hle hends).2
  · rintro ⟨total, htotal⟩
    refine ⟨(limitsOn document total).fresh.levels + 2 * (limitsOn document total).size + 10, ?_⟩
    have henough : True → (limitsOn document total).fresh.levels + 2 * (limitsOn document total).size + 10 ≤
        (limitsOn document total).fresh.levels + 2 * (limitsOn document total).size + 10 :=
      fun _ => Nat.le_refl _
    rcases run_deeper data (Nat.le_refl _) henough (htotal _) with ⟨-, hfull, -⟩ | ⟨hends, -, -⟩
    · exact absurd trivial hfull
    · exact hends

/-! ## Circles -/

/-- The text `\x7b\x7b include('name') \x7d\x7d`. -/
def including (name : String) : Statement :=
  .print (.call (.variable "include") [.positional (.literal (.text name))])

/-- Whether a template starts by including one of some others. -/
def StartsIn (names : String → Prop) (document : Document) : Prop :=
  ∃ next rest, names next ∧ document.body = including next :: rest

/-- **Whether some templates include each other in a circle**: each starts by including one of them. -/
structure Circle (site : Site) (disk : Disk) (names : String → Prop) : Prop where
  next : ∀ name, names name → ∃ document, site.readTemplate disk name = .ok document ∧ StartsIn names document
  /-- No function has one of the names, and no file is written by them. -/
  free : ∀ name, names name → Run.builtin? name = none ∧ name ≠ writerName

/-- Whether data say nothing of some templates, and leave `include` what it is. -/
def Unaware (names : String → Prop) (data : Datum) : Prop :=
  ∀ name, names name ∨ name = "include" → data.attribute? name = none

/-- Whether a workbench has not loaded anything else by the names of a circle. -/
structure Holds (bench : Workbench) (disk : Disk) (names : String → Prop) : Prop where
  disk_eq : bench.disk = disk
  loaded : ∀ name document, names name → Entries.get? name bench.loaded = some document →
    StartsIn names document

/-- Whether a rendering is exhausted. -/
def Exhausts (site : Site) (r : Rendering α) (bench : Workbench) : Prop :=
  (site.run r bench).1 = .exhausted

theorem Exhausts.bind {r : Rendering α} (f : α → Rendering β) {bench : Workbench}
    (h : site.Exhausts r bench) : site.Exhausts (r.bind f) bench := by
  unfold Exhausts at h ⊢
  induction r generalizing bench with
  | done a => simp [run] at h
  | fail fault => simp [run] at h
  | exhausted => rfl
  | load name next ih => exact ih _ h
  | permit path next ih =>
      simp only [run, Rendering.bind] at h ⊢
      split at h
      · exact ih _ h
      · split at h
        · simp at h
        · exact ih _ h
  | write path text next ih => exact ih _ h

theorem Exhausts.mapFault (f : Template.Fault → Template.Fault) {r : Rendering α} {bench : Workbench}
    (h : site.Exhausts r bench) : site.Exhausts (r.mapFault f) bench := by
  unfold Exhausts at h ⊢
  induction r generalizing bench with
  | done a => simp [run] at h
  | fail fault => simp [run] at h
  | exhausted => rfl
  | load name next ih => exact ih _ h
  | permit path next ih =>
      simp only [run, Rendering.mapFault] at h ⊢
      split at h
      · exact ih _ h
      · split at h
        · simp at h
        · exact ih _ h
  | write path text next ih => exact ih _ h

theorem Exhausts.load {name : String} {next : Except LoadFault Document → Rendering α} {bench : Workbench}
    (h : site.Exhausts (next (site.load bench name).1) (site.load bench name).2) :
    site.Exhausts (.load name next) bench := h

section Circling

variable {disk : Disk} {names : String → Prop} {bench : Workbench} {m : Machine} {next : String} {fuel : Nat}

theorem Circle.load (hcircle : site.Circle disk names) (hbench : Holds bench disk names) (hnext : names next) :
    ∃ document, (site.load bench next).1 = .ok document ∧ StartsIn names document ∧
      Holds (site.load bench next).2 disk names := by
  unfold Site.load
  cases hloaded : Entries.get? next bench.loaded with
  | some document => exact ⟨document, rfl, hbench.loaded next document hnext hloaded, hbench⟩
  | none =>
      obtain ⟨document, hread, hstarts⟩ := hcircle.next next hnext
      simp only [hbench.disk_eq, hread]
      refine ⟨document, rfl, hstarts, rfl, fun name other hname hother => ?_⟩
      by_cases heq : name = next
      · rw [heq, Entries.get?_put_self] at hother
        exact Option.some.inj hother ▸ hstarts
      · rw [Entries.get?_put_of_ne heq] at hother
        exact hbench.loaded name other hname hother

/-- Data of a template that is rendered by its name alone. -/
theorem Circle.freshData (hcircle : site.Circle disk names) (m : Machine) :
    ∃ data, Run.freshData none m = .done (data, m) ∧ Unaware names data := by
  have hfresh : Run.freshData none m = (Run.lookup? writerName m).bind fun result =>
      .done (Datum.ofPairs ([] ++ [(.ofString writerName, result.1.getD .undefined)]), result.2) := rfl
  rw [hfresh, Run.lookup?_apply]
  refine ⟨_, rfl, fun name hname => ?_⟩
  have hne : name ≠ writerName := by
    rcases hname with hname | rfl
    · exact (hcircle.free name hname).2
    · decide
  rw [Datum.attribute?_ofPairs_append, if_neg hne]
  rfl

/-- Whether every template of a circle that is evaluated with so many levels is exhausted. -/
def Endless (site : Site) (disk : Disk) (names : String → Prop) (fuel : Nat) : Prop :=
  ∀ (document : Document) (data : Datum) (m : Machine) (bench : Workbench), StartsIn names document →
    Unaware names data → Holds bench disk names → site.Exhausts (Run.renderDocument fuel document data m) bench

theorem renderLoaded_exhausts (hcircle : site.Circle disk names) (hbench : Holds bench disk names)
    (hnext : names next) (hdeep : ∀ less < fuel, site.Endless disk names less) :
    site.Exhausts (Run.renderLoaded fuel next none m) bench := by
  cases fuel with
  | zero => rfl
  | succ fuel =>
      obtain ⟨document, hanswer, hstarts, hbench'⟩ := hcircle.load hbench hnext
      obtain ⟨data, hfresh, hunaware⟩ := hcircle.freshData m
      have hexhausts := hdeep fuel (Nat.lt_succ_self _) document data m _ hstarts hunaware hbench'
      have hrun : Run.renderLoaded (fuel + 1) next none m = .load next fun answer =>
          ((match answer with
            | .ok document => pure document
            | .error fault => fun _ => Rendering.loadFault next fault : Run Document) m).bind fun result =>
              (Run.freshData none result.2).bind fun fresh =>
                Run.renderDocument fuel result.1 fresh.1 fresh.2 := rfl
      rw [hrun]
      refine Exhausts.load ?_
      rw [hanswer]
      show site.Exhausts ((Run.freshData none m).bind fun fresh =>
        Run.renderDocument fuel document fresh.1 fresh.2) _
      rw [hfresh]
      exact hexhausts

theorem renderNamed_exhausts (hcircle : site.Circle disk names) (hbench : Holds bench disk names)
    (hnext : names next) (hdeep : ∀ less < fuel, site.Endless disk names less)
    (hlookup : Run.lookup? next m = .done (none, m)) :
    site.Exhausts (Run.renderNamed fuel next none m) bench := by
  cases fuel with
  | zero => rfl
  | succ fuel =>
      have hrun : Run.renderNamed (fuel + 1) next none m = Run.renderLoaded fuel next none m := by
        show (Run.lookup? next m).bind _ = _
        rw [hlookup]
        rfl
      rw [hrun]
      exact renderLoaded_exhausts hcircle hbench hnext fun less hless => hdeep less (by omega)

theorem include_exhausts (hcircle : site.Circle disk names) (hbench : Holds bench disk names)
    (hnext : names next) (hdeep : ∀ less < fuel, site.Endless disk names less)
    (hlookup : Run.lookup? next m = .done (none, m))
    (hinclude : Run.lookup? "include" m = .done (some (.function .include), m)) :
    site.Exhausts (Run.statement fuel (including next) m) bench := by
  match fuel with
  | 0 => rfl
  | 1 => rfl
  | 2 => rfl
  | 3 => rfl
  | less + 4 =>
      have hcall : Run.call (less + 2) (.variable "include") [.positional (.literal (.text next))] none m =
          (Run.renderNamed less next none m).bind fun result => .done (.ofString result.1, result.2) := by
        show (Run.lookup? "include" m).bind _ = _
        rw [hinclude]
        rfl
      have hnamed : site.Exhausts (Run.renderNamed less next none m) bench :=
        renderNamed_exhausts hcircle hbench hnext (fun fewer hfewer => hdeep fewer (by omega)) hlookup
      have hexhausts : site.Exhausts (Run.call (less + 2) (.variable "include")
          [.positional (.literal (.text next))] none m) bench := by
        rw [hcall]
        exact hnamed.bind _
      exact hexhausts.bind _

theorem segment_exhausts (hcircle : site.Circle disk names) (hbench : Holds bench disk names)
    (hnext : names next) (hdeep : ∀ less < fuel, site.Endless disk names less) {data : Datum}
    (hframes : m.frames = [{ backdrop := .data data }]) (hunaware : Unaware names data) (name : String)
    (rest : List Statement) : site.Exhausts (Run.segment fuel name (including next :: rest) m) bench := by
  cases fuel with
  | zero => rfl
  | succ fuel =>
      have hlookup : ∀ name', names name' ∨ name' = "include" → ∀ m' : Machine, m'.frames = m.frames →
          Run.lookup? name' m' = .done ((Run.builtin? name').map .function, m') := by
        intro name' hname' m' hm'
        rw [Run.lookup?_apply, hm', hframes]
        simp [Run.frameLookup?, hunaware name' hname']
      have hnone : ∀ m' : Machine, m'.frames = m.frames → Run.lookup? next m' = .done (none, m') := by
        intro m' hm'
        rw [hlookup next (Or.inl hnext) m' hm', (hcircle.free next hnext).1]
        rfl
      unfold Run.segment
      refine Exhausts.bind (r := (Run.runAll (Run.statement fuel) (including next :: rest)
        { m with template := name, parent? := none }).mapFault _) _ (Exhausts.mapFault _ ?_)
      refine Exhausts.bind _ (include_exhausts hcircle hbench hnext (fun less hless => hdeep less (by omega)) ?_ ?_)
      · exact hnone _ rfl
      · exact hlookup "include" (Or.inr rfl) _ rfl

theorem endless (hcircle : site.Circle disk names) (fuel : Nat) : site.Endless disk names fuel := by
  induction fuel using Nat.strongRecOn with
  | ind fuel ih =>
      rintro document data m bench ⟨next, rest, hnext, hbody⟩ hunaware hbench
      cases fuel with
      | zero => rfl
      | succ fuel =>
          unfold Run.renderDocument
          rw [hbody]
          refine Exhausts.bind (r := Run.segment fuel document.name (including next :: rest) _) _ ?_
          exact segment_exhausts hcircle hbench hnext (fun less hless => ih less (by omega)) rfl hunaware _ _

end Circling

/-! ## Whole files -/

/-- What a file does that has a text, with evaluations nested no deeper than so many levels. -/
def renderingWithin (site : Site) (depth : Nat) (name text : String) (context : Value) : Rendering String :=
  match Document.ofString name text with
  | .ok document => document.rendering depth (Datum.ofContext site.scope context)
  | .error fault => .fail fault

/-- **Rendering a file ends exactly if what it loads is bounded**, however many levels its evaluations are
given, and then any more levels make no difference. If it starts with a circle of templates that include
each other, it never ends. -/
theorem render_ends_iff (site : Site) (name text : String) (context : Value) (bench : Workbench) :
    site.render name text context bench = site.run (site.renderingWithin maxDepth name text context) bench ∧
    ((∃ depth, (site.run (site.renderingWithin depth name text context) bench).1 ≠ .exhausted) ↔
      ∃ total, ∀ depth, site.demand (site.renderingWithin depth name text context) bench ≤ total) ∧
    (∀ depth more, (site.run (site.renderingWithin depth name text context) bench).1 ≠ .exhausted →
      depth ≤ more → site.run (site.renderingWithin more name text context) bench =
        site.run (site.renderingWithin depth name text context) bench) ∧
    ∀ (names : String → Prop) (document : Document), Document.ofString name text = .ok document →
      StartsIn names document → site.Circle bench.disk names → bench.loaded = [] →
      Unaware names (Datum.ofContext site.scope context) →
      ∀ depth, (site.run (site.renderingWithin depth name text context) bench).1 = .exhausted := by
  refine ⟨rfl, ?_⟩
  unfold renderingWithin
  cases Document.ofString name text with
  | error fault =>
      refine ⟨iff_of_true ⟨0, by simp [run]⟩ ⟨0, fun _ => Nat.le_refl _⟩, fun _ _ _ _ => rfl, ?_⟩
      exact fun _ _ hdocument => by cases hdocument
  | ok document =>
      refine ⟨exists_ends_iff document _ bench, fun _ _ hends hle => (run_eq_of_le hle hends).1, ?_⟩
      intro names document' hdocument hstarts hcircle hloaded hunaware depth
      obtain rfl := Except.ok.inj hdocument
      have hbench : Holds bench bench.disk names := ⟨rfl, fun _ _ _ h => by simp [hloaded] at h⟩
      exact (endless hcircle depth document _ {} bench hstarts hunaware hbench).bind _

/-- Templates in a directory `t`, where no file may be written. -/
def mirrorSite : Site := { templates? := some "t", scope := .nowhere }

/-- A directory `t` with a file that includes itself. -/
def mirror : Workbench where
  disk := { directory := [], tree := [(["t"], .directory),
    (["t", "a"], .file "\x7b\x7b include('a') \x7d\x7d".toUTF8 false)] }

/-- The file that includes itself never ends. -/
theorem render_ends_iff_mirror :
    ¬ ∃ depth, (mirrorSite.run (mirrorSite.renderingWithin depth "a" "\x7b\x7b include('a') \x7d\x7d" (.map []))
      mirror).1 ≠ .exhausted := by
  rintro ⟨depth, hends⟩
  have hdocument : Document.ofString "a" "\x7b\x7b include('a') \x7d\x7d" =
      .ok { name := "a", body := [including "a"] } := by cbv
  have hstarts : StartsIn (· = "a") { name := "a", body := [including "a"] } := ⟨"a", [], rfl, rfl⟩
  have hread : mirrorSite.readTemplate mirror.disk "a" = .ok { name := "a", body := [including "a"] } := by
    have hpath : mirrorSite.templates?.bind (templatePath? · "a") = some "t/a" := by decide +kernel
    have htext : mirror.disk.readText "t/a" = .ok "\x7b\x7b include('a') \x7d\x7d" := by decide +kernel
    simp only [readTemplate, hpath, htext, hdocument]
  have hcircle : mirrorSite.Circle mirror.disk (· = "a") :=
    ⟨fun name hname => ⟨_, hname ▸ hread, hstarts⟩, fun name hname => hname ▸ ⟨rfl, by decide⟩⟩
  have hunaware : Unaware (· = "a") (Datum.ofContext mirrorSite.scope (.map [])) := by
    rintro name hname
    have hne : name ≠ writerName := by rcases hname with rfl | rfl <;> decide
    exact (Datum.attribute?_ofPairs_append [] writerName name _).trans (if_neg hne)
  refine hends ?_
  exact (render_ends_iff mirrorSite "a" _ (.map []) mirror).2.2.2 _ _ hdocument hstarts hcircle rfl hunaware depth

end Site

end Stencil.Files
