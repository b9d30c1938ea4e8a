import Mathlib
import Stencil.Proofs.Binding
import Stencil.Proofs.Sorting
import Stencil.Proofs.Work
import Stencil.Sources

/-!
# The order of the variables

Variables keep their order from where they are read on: binding leaves them in front as they are, and the defaults
follow in the order in which they are declared. But what is read is a value, and the map in a value is sorted. So the
order in which the keys are written is lost before there are any variables (`Variables.order_of_written`): they are
sorted by name, whether they are given in place or in a file, and that is the order in which they are written only if
the keys were written in this order.
-/

namespace Stencil

namespace Entries

variable {α : Type} {entries acc : Entries α} {name : String} {value : α}

/-- A new name is put among the others, which stay. -/
theorem insert_perm (h : name ∉ names entries) : (insert name value entries).Perm ((name, value) :: entries) := by
  induction entries with
  | nil => exact .refl _
  | cons entry rest ih =>
      obtain ⟨key, old⟩ := entry
      obtain ⟨hne, hrest⟩ := not_or.mp (mt List.mem_cons.mpr h)
      unfold insert
      split
      · exact .refl _
      · rw [if_neg (Ne.symm hne)]
        exact ((ih hrest).cons _).trans (.swap _ _ _)

/-- **Sorting keeps what is there**, if no name is there twice. -/
theorem sorted_perm (h : (names entries).Nodup) : (sorted entries).Perm entries := by
  suffices hall : ∀ acc : Entries α, (names (acc ++ entries)).Nodup →
      (entries.foldl (fun acc entry => insert entry.1 entry.2 acc) acc).Perm (acc ++ entries) from hall [] h
  -- On what is still to be put in; what has been put in has names of its own.
  induction entries with
  | nil => exact fun acc _ => by rw [List.append_nil]; exact .refl acc
  | cons entry rest ih =>
      intro acc hdistinct
      obtain ⟨name, value⟩ := entry
      have hnew : name ∉ names acc := by
        intro hmem
        rw [names, List.map_append, List.nodup_append] at hdistinct
        exact hdistinct.2.2 _ hmem _ List.mem_cons_self rfl
      have hmiddle : (insert name value acc ++ rest).Perm (acc ++ (name, value) :: rest) :=
        ((insert_perm hnew).append_right rest).trans List.perm_middle.symm
      have hrest : (names (insert name value acc ++ rest)).Nodup := (hmiddle.map Prod.fst).nodup_iff.mpr hdistinct
      exact (ih (List.nodup_cons.mp h).2 _ hrest).trans hmiddle

/-- Sorting changes nothing only where nothing has to be changed. -/
theorem sorted_eq_self_iff (h : (names entries).Nodup) : sorted entries = entries ↔ entries.Pairwise (·.1 < ·.1) := by
  constructor
  · intro heq
    rw [← heq]
    exact sorted_sorted entries
  · intro hsorted
    exact (sorted_perm h).eq_of_pairwise (fun _ _ _ _ hab hba => absurd hab (lt_asymm hba)) (sorted_sorted entries)
      hsorted

end Entries

namespace Yaml

/-- The entries of a mapping as they are written. -/
def Node.written? : Node → Option (Entries Value)
  | .mapping tag entries => if TagKind.ofTag tag = .own then none else entryValues? entries
  | .anchored _ node => node.written?
  | _ => none

/-- The entries of the mapping in a text as they are written. -/
def written? (text : String) : Option (Entries Value) := do (← Node.ofString? text).written?

/-- The value of a mapping has its entries sorted. -/
theorem Node.value?_of_written? {read : Entries Value} (node : Node) (h : node.written? = some read) :
    node.value? = some (.map (Entries.sorted read)) := by
  cases node with
  | mapping tag entries =>
      rw [written?] at h
      split at h
      · cases h
      · rename_i hown
        rw [value?, if_neg hown, h]
        rfl
  | anchored id node =>
      rw [written?] at h
      rw [value?]
      exact value?_of_written? node h
  | _ => cases h

theorem read?_of_written? {text : String} {read : Entries Value} (h : written? text = some read) :
    read? text = some (.map (Entries.sorted read)) := by
  obtain ⟨node, hnode, hread⟩ := Option.bind_eq_some_iff.mp h
  exact Option.bind_eq_some_iff.mpr ⟨node, hnode, node.value?_of_written? hread⟩

end Yaml

namespace Variables

variable {text : String} {vars : Variables}

theorem inlineVariables?_of_read? (h : Yaml.read? text = some (.map vars)) : inlineVariables? text = some vars := by
  rw [inlineVariables?, h]

theorem parse_of_read? (h : Yaml.read? text = some (.map vars)) : Variables.parse text = .ok vars := by
  rw [Variables.parse, h]

/-- Variables that are in a file are read from it. -/
theorem readVariablesFile_of_read? {path : String} {world : World} (h : Yaml.read? text = some (.map vars))
    (hname : (Path.ofString path).extension? = some "yaml" ∨ (Path.ofString path).extension? = some "yml")
    (hfile : world.disk.readText path = .ok text) : (readVariablesFile path).on world = (.ok vars, world) := by
  unfold readVariablesFile
  rcases hname with hname | hname <;> simp [hname, Work.on_bind, Work.on_ask, hfile, parse_of_read? h]

/-- **Variables are sorted by name, in whichever order they are written**, and bound in that order, with the defaults
behind them in the order in which they are declared. -/
theorem order_of_written {read : Entries Value} (h : Yaml.written? text = some read)
    (hdistinct : (Entries.names read).Nodup) :
    ∃ vars : Variables, vars.Perm read ∧ vars.Pairwise (·.1 < ·.1) ∧ (vars = read ↔ read.Pairwise (·.1 < ·.1)) ∧
      Variables.parse text = .ok vars ∧ (∀ world, (loadVariables text).on world = (.ok vars, world)) ∧
      (∀ path world,
        (Path.ofString path).extension? = some "yaml" ∨ (Path.ofString path).extension? = some "yml" →
        world.disk.readText path = .ok text →
        (readVariablesFile path).on world = (.ok vars, world) ∧
          (inlineVariables? path = none → Text.isAllBlank path = false → world.disk.hasFile path = true →
            (loadVariables path).on world = (.ok vars, world))) ∧
      ∀ manifest bound, vars.bind manifest = .ok bound →
        bound = vars ++ defaults vars manifest.declarations ∧
          Entries.names (defaults vars manifest.declarations) = absent vars manifest.declarations := by
  have hread := Yaml.read?_of_written? h
  refine ⟨Entries.sorted read, Entries.sorted_perm hdistinct, Entries.sorted_sorted read,
    Entries.sorted_eq_self_iff hdistinct, parse_of_read? hread, fun world => ?_, fun path world hname hfile => ?_,
    fun manifest bound hbind => ?_⟩
  · -- A mapping is taken as it is given, whichever files there are.
    rw [loadVariables, inlineVariables?_of_read? hread]
    rfl
  · have hwork := readVariablesFile_of_read? hread hname hfile
    refine ⟨hwork, fun hinline hblank hthere => ?_⟩
    rw [loadVariables, hinline]
    simpa [Work.on_bind, hblank, hthere] using hwork
  · obtain ⟨hunbroken, hbound⟩ := bind_eq_ok_iff.mp hbind
    exact ⟨hbound, hunbroken.names_defaults⟩

/-- Two variables, not in the order of their names. -/
def backwardsText : String := "b: 1\na: 2\n"

/-- A disk with these variables in a file. -/
def backwardsWorld : World where
  disk := { directory := [], tree := [(["v.yaml"], .file backwardsText.toUTF8 false)] }

/-- A manifest that declares a variable with a default. -/
def flagManifest : Manifest :=
  { name := "a", description := "", templateVersion := "1.0.0", manifestVersion := "v1", authors := [], license := "",
    configuration := { ignorePaths := [], postCloneCommands := [] },
    declarations :=
      [{ name := "C", description := "", default? := some (.bool true), sample := .bool true, validate := true }] }

theorem order_of_written_backwards :
    ∃ read vars bound, Yaml.written? backwardsText = some read ∧ Entries.names read = ["b", "a"] ∧
      Variables.parse backwardsText = .ok vars ∧ Entries.names vars = ["a", "b"] ∧ vars ≠ read ∧
      (loadVariables "v.yaml").on backwardsWorld = (.ok vars, backwardsWorld) ∧
      vars.bind flagManifest = .ok bound ∧ bound = vars ++ defaults vars flagManifest.declarations ∧
      Entries.names bound = ["a", "b", "C"] := by
  have hnames : (Yaml.written? backwardsText).map Entries.names = some ["b", "a"] := by decide +kernel
  obtain ⟨read, hread, hkeys⟩ := Option.map_eq_some_iff.mp hnames
  obtain ⟨vars, hperm, hsorted, hsame, hparse, -, hfile, hbind⟩ := order_of_written hread (by rw [hkeys]; decide)
  -- The keys are not written in ascending order, so the order changes.
  have hnotSorted : ¬ read.Pairwise (·.1 < ·.1) := by
    intro hpairs
    have hlt : (Entries.names read).Pairwise (· < ·) := List.pairwise_map.mpr hpairs
    rw [hkeys] at hlt
    exact absurd hlt (by decide)
  obtain ⟨-, hload⟩ := hfile "v.yaml" backwardsWorld (Or.inl (by decide +kernel)) (by decide +kernel)
  have hinline : inlineVariables? "v.yaml" = none := by
    have hnone : (inlineVariables? "v.yaml").isNone = true := by decide +kernel
    exact Option.isNone_iff_eq_none.mp hnone
  have hbound : (Variables.parse backwardsText).toOption.map (fun vars : Variables =>
      (Entries.names vars, (vars.bind flagManifest).toOption.map Entries.names)) =
      some (["a", "b"], some ["a", "b", "C"]) := by decide +kernel
  rw [hparse] at hbound
  obtain ⟨hvars, hmap⟩ := Prod.mk.inj (Option.some.inj hbound)
  cases hdone : vars.bind flagManifest with
  | error fault =>
      rw [hdone] at hmap
      cases hmap
  | ok bound =>
      rw [hdone] at hmap
      exact ⟨read, vars, bound, hread, hkeys, hparse, hvars, mt hsame.mp hnotSorted,
        hload hinline (by decide +kernel) (by decide +kernel), hdone, (hbind _ _ hdone).1, Option.some.inj hmap⟩

end Variables

end Stencil
