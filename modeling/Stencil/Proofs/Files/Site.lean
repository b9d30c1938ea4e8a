import Stencil.Proofs.Files.Confined
import Stencil.Proofs.Path.Plain

/-!
# What a rendering writes

Whatever a template does, and however many others it loads on the way, all that changes on the disk is
that the files are written which it asked to write and had leave for, and directories are made around
them; and all of that lies within the root (`Site.run_writesOnly`). Where nothing may be written
nothing changes (`Site.run_nowhere`).

The induction is on the rendering, a request at a time. What it carries along is that the root is
still found where it was, and that every path there was leave for is confined to it: leave is given on
an earlier disk than that on which it is used.
-/

namespace Stencil.Files

open Template (Scope Rendering)

/-- Whether something was made for one of some paths. -/
def Disk.MadeForSome (disk : Disk) (targets : List Path) (place : Place) (entry : Entry) : Prop :=
  ∃ target ∈ targets, disk.MadeFor target.render place entry

theorem Disk.MadeForSome.mono {disk new : Disk} {targets targets' : List Path} {place : Place}
    {entry : Entry}
    (h : disk.MadeForSome targets place entry) (hgrown : Grown disk new)
    (htargets : ∀ target ∈ targets, target ∈ targets') : new.MadeForSome targets' place entry := by
  obtain ⟨target, hmem, hmade⟩ := h
  exact ⟨target, htargets _ hmem, hmade.mono hgrown⟩

/-- Whether all paths that there is leave for are confined to a room. -/
def Workbench.Confined (bench : Workbench) (room : Place) : Prop :=
  ∀ target ∈ bench.permitted, ∃ names : Place, target = .root :: names.map Part.name ∧
    (∀ s ∈ names, IsName s) ∧ bench.disk.Confined room names

theorem Workbench.Confined.grow {bench bench' : Workbench} {room : Place}
    {room' : Place → Entry → Prop}
    (h : bench.Confined room) (hpermitted : bench'.permitted = bench.permitted)
    (hwrites : Disk.WritesOnly room' bench.disk bench'.disk) : bench'.Confined room := by
  intro target htarget
  obtain ⟨names, rfl, hnames, hconfined⟩ := h target (hpermitted ▸ htarget)
  exact ⟨names, rfl, hnames, hconfined.grow hwrites⟩

namespace Site

/-- The path that is written for a request, if there was leave for it. -/
def granted? (site : Site) (bench : Workbench) (path : String) : Option Path :=
  match site.scope with
  | .nowhere => none
  | .within root directory =>
    (Path.confine root directory (Path.ofString path)).filter fun target =>
      bench.permitted.contains target

/-- The paths that a rendering writes, one after the other. -/
def written {α : Type} (site : Site) : Rendering α → Workbench → List Path
  | .done _, _ => []
  | .fail _, _ => []
  | .exhausted, _ => []
  | .load name next, bench => site.written (next (site.load bench name).1) (site.load bench name).2
  | .permit path next, bench =>
    match site.scope with
    | .nowhere => site.written (next false) bench
    | .within root directory =>
      match target? bench.disk root directory path with
      | none => []
      | some target => site.written (next true) { bench with permitted := target :: bench.permitted }
  | .write path text next, bench =>
    (site.granted? bench path).toList ++
      site.written (next (site.write bench path text).1) (site.write bench path text).2

variable {α : Type} {site : Site} {bench : Workbench} {root directory : Path} {room : Place}

@[simp] theorem load_disk (site : Site) (bench : Workbench) (name : String) :
    (site.load bench name).2.disk = bench.disk := by
  unfold load
  split
  · rfl
  · split <;> rfl

@[simp] theorem load_permitted (site : Site) (bench : Workbench) (name : String) :
    (site.load bench name).2.permitted = bench.permitted := by
  unfold load
  split
  · rfl
  · split <;> rfl

/-- A request without leave changes nothing, and one with leave writes its path. -/
theorem write_eq (site : Site) (bench : Workbench) (path text : String) :
    site.write bench path text =
      match site.granted? bench path with
      | none => (false, bench)
      | some target =>
        ((bench.disk.writeInside target.render text.toUTF8).2.toBool,
          { bench with disk := (bench.disk.writeInside target.render text.toUTF8).1 }) := by
  unfold write granted?
  cases site.scope with
  | nowhere => rfl
  | within root directory =>
      simp only
      cases Path.confine root directory (Path.ofString path) with
      | none => rfl
      | some target =>
          by_cases h : bench.permitted.contains target = true
          · rw [Option.filter_some_pos h]
            simp only [if_pos h]
          · rw [Option.filter_some_neg (by simpa using h)]
            simp only [if_neg h]

theorem mem_permitted_of_granted? {path : String} {target : Path}
    (h : site.granted? bench path = some target) : target ∈ bench.permitted := by
  unfold granted? at h
  split at h
  · exact absurd h (by simp)
  · exact List.contains_iff_mem.mp (Option.filter_eq_some_iff.mp h).2

/-! ## From request to request -/

/-- A path that leave is given for is confined. -/
theorem exists_of_target? {disk : Disk} {path : String} {target : Path} (hsound : disk.Sound)
    (hdirectory : directory.IsPlain) (hroot : disk.canonical root.render = .ok room)
    (h : target? disk root directory path = some target) :
    ∃ names : Place, target = .root :: names.map Part.name ∧ (∀ s ∈ names, IsName s) ∧
      disk.Confined room names := by
  unfold target? at h
  split at h
  · exact absurd h (by simp)
  · rename_i target' hconfine
    split at h
    · rename_i hwithin
      rw [Option.some.injEq] at h
      subst h
      obtain ⟨names, rfl, hnames⟩ := Path.confine_isPlain hdirectory hconfine
      exact ⟨names, rfl, hnames, hsound.confined hnames hroot hwithin⟩
    · exact absurd h (by simp)

/-- Whatever one request to write changes lies within the room. -/
theorem write_writesOnly (hsound : bench.disk.Sound) (hpermitted : bench.Confined room)
    (path text : String) :
    (site.write bench path text).2.disk.Sound ∧ (site.write bench path text).2.permitted =
      bench.permitted ∧
      Disk.WritesOnly (fun place entry => place.isWithin room = true ∧
          (site.write bench path text).2.disk.MadeForSome
            (site.granted? bench path).toList place entry)
        bench.disk (site.write bench path text).2.disk := by
  rw [write_eq]
  cases hgranted : site.granted? bench path with
  | none => exact ⟨hsound, rfl, Disk.WritesOnly.refl _⟩
  | some target =>
      obtain ⟨names, rfl, hnames, hconfined⟩ := hpermitted target (mem_permitted_of_granted? hgranted)
      have hpath : Spells (Path.render (.root :: names.map Part.name)) names :=
        Path.render_place names ▸ spells_render hnames
      obtain ⟨hnew, hwrites⟩ := hsound.writeInside hpath text.toUTF8
      refine ⟨hnew, rfl, (hconfined.writesOnly hsound hpath hwrites).mono ?_⟩
      exact fun place entry h => ⟨h.1, .root :: names.map Part.name, by simp, h.2⟩

/-- **A rendering writes within the root only**, and only what it asked for and had leave for. -/
theorem run_writesOnly (site : Site) (bench : Workbench)
    (hscope : site.scope = .within root directory) (hdirectory : directory.IsPlain)
    (rendering : Rendering α) (hsound : bench.disk.Sound)
    (hroot : bench.disk.canonical root.render = .ok room)
    (hpermitted : bench.Confined room) :
    (site.run rendering bench).2.disk.Sound ∧
      Disk.WritesOnly (fun place entry => place.isWithin room = true ∧
          (site.run rendering bench).2.disk.MadeForSome (site.written rendering bench) place entry)
        bench.disk (site.run rendering bench).2.disk := by
  induction rendering generalizing bench with
  | done | fail | exhausted => exact ⟨hsound, Disk.WritesOnly.refl _⟩
  | load name next ih =>
      simp only [run, written]
      have hdisk := site.load_disk bench name
      have hsame : Disk.WritesOnly (fun _ _ => False) bench.disk (site.load bench name).2.disk :=
        hdisk.symm ▸ Disk.WritesOnly.refl _
      have hconfined : (site.load bench name).2.Confined room :=
        hpermitted.grow (site.load_permitted bench name) hsame
      have hrest := ih (site.load bench name).1 _ (hdisk.symm ▸ hsound) (hdisk.symm ▸ hroot) hconfined
      rwa [hdisk] at hrest
  | permit path next ih =>
      simp only [run, written, hscope]
      cases htarget : target? bench.disk root directory path with
      | none => exact ⟨hsound, Disk.WritesOnly.refl _⟩
      | some target =>
          refine ih true _ hsound hroot ?_
          intro other hother
          rcases List.mem_cons.mp hother with rfl | hother
          · exact exists_of_target? hsound hdirectory hroot htarget
          · exact hpermitted other hother
  | write path text next ih =>
      simp only [run, written]
      obtain ⟨hmid, heq, hwrites⟩ := site.write_writesOnly hsound hpermitted path text
      obtain ⟨hnew, hrest⟩ :=
        ih (site.write bench path text).1 _ hmid (Disk.canonical_grow hwrites.grown hroot)
        (hpermitted.grow heq hwrites)
      refine ⟨hnew, hwrites.trans_mono hrest (fun place entry h => ?_) fun place entry h => ?_⟩
      · exact ⟨h.1, h.2.mono hrest.grown fun _ hmem => List.mem_append_left _ hmem⟩
      · exact ⟨h.1, h.2.mono (Disk.Grown.refl _) fun _ hmem => List.mem_append_right _ hmem⟩

/-- Where nothing may be written nothing changes. -/
theorem run_nowhere (site : Site) (bench : Workbench) (hscope : site.scope = .nowhere)
    (rendering : Rendering α) :
    (site.run rendering bench).2.disk = bench.disk := by
  induction rendering generalizing bench with
  | done | fail | exhausted => rfl
  | load name next ih =>
      simp only [run]
      rw [ih, load_disk]
  | permit path next ih =>
      simp only [run, hscope]
      exact ih false bench
  | write path text next ih =>
      simp only [run]
      rw [ih, write_eq, granted?, hscope]

end Site

end Stencil.Files
