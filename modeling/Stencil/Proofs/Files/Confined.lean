import Stencil.Files.Site
import Stencil.Proofs.Files.Writing

/-!
# Paths that stay within a room

Before a file is written, a site looks at the deepest directory around it that there is, and whether
that lies within the root when links are followed. When the file is written at last, other files may
have been written in between, and directories made.

That does not matter because of what the look has found. The path falls into a front that leads to a
place within the root, and names behind it at which there is no link (`Confined`). Writing makes no
links, and a front goes on leading to the same place, so the path stays confined for good
(`Confined.grow`); and whatever is made for a confined path lies within the room
(`Confined.writesOnly`).
-/

namespace Stencil.Files

namespace Place

/-- The paths of some names and those around it, the innermost first. -/
theorem cons_outer (names : Place) :
    (.root :: names.map Part.name) :: Path.outer (.root :: names.map Part.name) =
      (List.range (names.length + 1)).reverse.map fun n => .root :: (names.take n).map Part.name := by
  rw [outer_eq, List.range_succ, List.reverse_append, List.reverse_singleton, List.singleton_append,
    List.map_cons, List.take_length]

end Place

/-- What is found first, counting down, comes after nothing that could have been found. -/
theorem find?_reverse_range {p : Nat → Bool} {count n : Nat}
    (h : (List.range count).reverse.find? p = some n) :
    n < count ∧ p n = true ∧ ∀ m, n < m → m < count → p m = false := by
  induction count with
  | zero => exact absurd h (by simp)
  | succ count ih =>
      rw [List.range_succ, List.reverse_append, List.reverse_singleton, List.singleton_append,
        List.find?_cons] at h
      cases hp : p count with
      | true =>
          rw [hp, Option.some.injEq] at h
          subst h
          exact ⟨Nat.lt_succ_self _, hp, fun m hm hm' => by omega⟩
      | false =>
          rw [hp] at h
          obtain ⟨hlt, hpn, hmore⟩ := ih h
          refine ⟨Nat.lt_succ_of_lt hlt, hpn, fun m hm hm' => ?_⟩
          by_cases hcount : m = count
          · exact hcount ▸ hp
          · exact hmore m hm (by omega)

namespace Disk

variable {disk new : Disk} {followLast : Bool} {room names place : Place} {entry : Entry}

/-- In front of something there is something, too. -/
theorem has_front {front : Place} (hsound : disk.Sound) (hnames : ∀ s ∈ names, IsName s)
    (hfront : front <+: names) (h : disk.has (Place.render names) = true) :
    disk.has (Place.render front) = true := by
  obtain ⟨more, rfl⟩ := hfront
  by_cases hmore : more = []
  · rwa [hmore, List.append_nil] at h
  · obtain ⟨place, entry, hfind⟩ := has_iff.mp h
    obtain ⟨hnull, ends, hleads⟩ := (find_names_eq_ok hnames).mp hfind
    rw [List.map_append] at hleads
    obtain ⟨location, hfrontLeads, hholds⟩ :=
      hleads.front hsound (by simpa using hmore) (holds_root disk) front.isEmpty
    obtain ⟨found, hat, _⟩ := holds_iff.mp hholds
    obtain ⟨inner, entry?, ends'⟩ := location
    obtain rfl : entry? = some found := hfrontLeads.entry_eq.trans hat
    refine has_iff.mpr ⟨inner, found, ?_⟩
    refine (find_names_eq_ok fun s hs => hnames s (List.mem_append_left _ hs)).mpr
      ⟨?_, ends', hfrontLeads⟩
    exact fun s hs => hnull s (List.mem_append_left _ hs)

/-- Something that is right inside of what a path finds has an entry behind the path. -/
theorem hasEntry_concat {front : Place} {s : String} (hsound : disk.Sound)
    (hnames : ∀ t ∈ front, IsName t)
    (hfront : disk.canonical (Place.render front) = .ok place)
    (hat : disk.at? (place ++ [s]) = some entry) :
    disk.hasEntry (Place.render (front ++ [s])) = true := by
  have hs : IsStorable s := hsound.storable hat s (by simp)
  obtain ⟨found, hfind⟩ := canonical_eq_ok.mp hfront
  obtain ⟨hnull, ends, hleads⟩ := (find_names_eq_ok hnames).mp hfind
  obtain ⟨found', hfound', hdir⟩ := holds_iff.mp (hsound.outer hat)
  obtain rfl : found = found' := Option.some.inj ((find_at? hfind).symm.trans hfound')
  have hlast : Leads disk.tree false 0 place [.name s] false ⟨place ++ [s], some entry, false⟩ :=
    Sound.leads_names hsound place [s] hat (Or.inr ⟨rfl, fun _ => rfl⟩)
  refine hasEntry_iff.mpr ⟨place ++ [s], entry, ?_⟩
  refine (find_names_eq_ok fun t ht => ?_).mpr ⟨fun t ht => ?_, false, ?_⟩
  · rcases List.mem_append.mp ht with ht | ht
    · exact hnames t ht
    · exact List.mem_singleton.mp ht ▸ hs.toIsName
  · rcases List.mem_append.mp ht with ht | ht
    · exact hnull t ht
    · exact List.mem_singleton.mp ht ▸ hs.noNull
  · rw [List.map_append, List.isEmpty_eq_false_iff.mpr (by simp)]
    exact hleads.append rfl hdir (by simp) hlast

/-- **A path that stays within a room**: its front leads there, and behind it there is no link. -/
def Confined (disk : Disk) (room names : Place) : Prop :=
  ∃ front rest inner, names = front ++ rest ∧ disk.canonical (Place.render front) = .ok inner ∧
    inner.isWithin room = true ∧
    ∀ more, more ≠ [] → more <+: rest → ∀ target, disk.at? (inner ++ more) ≠ some (.link target)

namespace Confined

/-- Writing does not lead a path out of a room. -/
theorem grow {room' : Place → Entry → Prop} (h : disk.Confined room names)
    (hwrites : WritesOnly room' disk new) : new.Confined room names := by
  obtain ⟨front, rest, inner, hnames, hfront, hin, hlinks⟩ := h
  refine ⟨front, rest, inner, hnames, canonical_grow hwrites.grown hfront, hin, ?_⟩
  intro more hne hmore target hat
  exact hlinks more hne hmore target (hwrites.link_of_link hat)

/-- What a confined path finds is within the room. -/
theorem isWithin {path : String} (h : disk.Confined room names) (hpath : Spells path names)
    (hcanonical : disk.canonical path = .ok place) : place.isWithin room = true := by
  obtain ⟨front, rest, inner, rfl, hfront, hin, hlinks⟩ := h
  have hnames : ∀ s ∈ front, IsName s := fun s hs => hpath.isName s (List.mem_append_left _ hs)
  obtain ⟨found, hfind⟩ := canonical_eq_ok.mp hcanonical
  obtain ⟨_, ends, hleads⟩ := (find_spells_eq_ok hpath).mp hfind
  obtain ⟨found', hfind'⟩ := canonical_eq_ok.mp hfront
  obtain ⟨_, ends', hleads'⟩ := (find_names_eq_ok hnames).mp hfind'
  by_cases hrest : rest = []
  · subst hrest
    rw [List.append_nil] at hleads
    obtain rfl : place = inner := hleads'.place_unique hleads
    exact hin
  · rw [List.map_append] at hleads
    obtain ⟨_, _, hmore⟩ := hleads'.rest (by simp) (by simpa using hrest) hleads
    have hplace := hmore.place_of_names _ fun more hne hmore target =>
      hlinks more hne hmore target
    simp only at hplace
    rw [hplace]
    exact Place.isWithin_trans (Place.isWithin_append inner rest) hin

/-- A front of a path finds something already, or it stays within the room as well. -/
theorem has_or_front {front : Place} (hsound : disk.Sound) (h : disk.Confined room names)
    (hnames : ∀ s ∈ names, IsName s) (hfront : front <+: names) :
    disk.has (Place.render front) = true ∨ disk.Confined room front := by
  obtain ⟨first, rest, inner, rfl, hfirst, hin, hlinks⟩ := h
  rcases List.prefix_or_prefix_of_prefix hfront (List.prefix_append first rest) with hshort |
    ⟨more, rfl⟩
  · obtain ⟨found, hfind⟩ := canonical_eq_ok.mp hfirst
    refine Or.inl (has_front hsound (fun s hs => hnames s (List.mem_append_left _ hs)) hshort ?_)
    exact has_iff.mpr ⟨inner, found, hfind⟩
  · refine Or.inr ⟨first, more, inner, rfl, hfirst, hin, fun deeper hne hdeeper => ?_⟩
    exact hlinks deeper hne (hdeeper.trans ((List.prefix_append_right_inj first).mp hfront))

/-- **What is made for a confined path is made within the room.** -/
theorem writesOnly {path : String} (hsound : disk.Sound) (h : disk.Confined room names)
    (hpath : Spells path names) (hwrites : WritesOnly (new.MadeFor path) disk new) :
    WritesOnly (fun place entry => place.isWithin room = true ∧ new.MadeFor path place entry)
      disk new := by
  have hnew : new.Confined room names := h.grow hwrites
  refine ⟨hwrites.directory_eq, fun place => ?_⟩
  rcases hwrites.changed place with heq | ⟨entry, hat, hfresh, hmade⟩
  · exact Or.inl heq
  refine Or.inr ⟨entry, hat, hfresh, ?_, hmade⟩
  rcases hmade with ⟨_, hcanonical⟩ | ⟨rfl, text, htext, hcanonical⟩
  · exact hnew.isWithin hpath hcanonical
  · obtain ⟨outer, houter, rfl⟩ := List.mem_map.mp htext
    rw [hpath.parts_eq] at houter
    obtain ⟨n, _, rfl⟩ := Place.mem_outer_iff.mp houter
    rw [Path.render_place] at hcanonical
    have hfront : ∀ s ∈ names.take n, IsName s := fun s hs => hpath.isName s (List.mem_of_mem_take hs)
    rcases h.has_or_front hsound hpath.isName (List.take_prefix n names) with hhas | hconfined
    · -- The directory would have been there before.
      obtain ⟨place', found, hfind⟩ := has_iff.mp hhas
      have hcanonical' := canonical_grow hwrites.grown (canonical_eq_ok.mpr ⟨found, hfind⟩)
      rw [hcanonical, Except.ok.injEq] at hcanonical'
      rw [hcanonical', find_at? hfind] at hfresh
      exact absurd hfresh (by intro h; cases h)
    · exact (hconfined.grow hwrites).isWithin (spells_render hfront) hcanonical

end Confined

/-- What is found when it is looked whether a path is within a root. -/
theorem exists_of_resolvesWithin {root : Path} (hroot : disk.canonical root.render = .ok room)
    (h : disk.resolvesWithin root (.root :: names.map .name) = true) :
    ∃ front rest inner, names = front ++ rest ∧ disk.canonical (Place.render front) = .ok inner ∧
      inner.isWithin room = true ∧
      ∀ s more, rest = s :: more → disk.hasEntry (Place.render (front ++ [s])) = false := by
  unfold resolvesWithin at h
  rw [hroot, Place.cons_outer, List.find?_map] at h
  simp only at h
  cases hfind : (List.range (names.length + 1)).reverse.find?
      ((fun path : Path => disk.hasEntry path.render) ∘ fun n =>
        .root :: (names.take n).map Part.name) with
  | none =>
      rw [hfind] at h
      exact absurd h (by simp)
  | some n =>
      rw [hfind] at h
      obtain ⟨_, _, hmissing⟩ := find?_reverse_range hfind
      simp only [Option.map_some, Path.render_place] at h
      cases hcanonical : disk.canonical (Place.render (names.take n)) with
      | error fault => simp [hcanonical] at h
      | ok inner =>
          rw [hcanonical] at h
          refine ⟨names.take n, names.drop n, inner, (List.take_append_drop n names).symm,
            hcanonical, h, ?_⟩
          intro s more hdrop
          have hlen : n + 1 < names.length + 1 := by
            have hlength := congrArg List.length hdrop
            rw [List.length_drop, List.length_cons] at hlength
            omega
          have hno := hmissing (n + 1) (Nat.lt_succ_self n) hlen
          rwa [Function.comp, List.take_add, hdrop, Path.render_place] at hno

/-- **A path that was found to be within a root is confined to it.** -/
theorem Sound.confined (hsound : disk.Sound) (hnames : ∀ s ∈ names, IsName s) {root : Path}
    (hroot : disk.canonical root.render = .ok room)
    (h : disk.resolvesWithin root (.root :: names.map .name) = true) : disk.Confined room names := by
  obtain ⟨front, rest, inner, rfl, hfront, hin, hmissing⟩ := exists_of_resolvesWithin hroot h
  refine ⟨front, rest, inner, rfl, hfront, hin, fun more hne hmore target hlink => ?_⟩
  cases more with
  | nil => exact hne rfl
  | cons s deeper =>
      obtain ⟨behind, hrest⟩ := hmore
      -- Nothing at all is right behind the front, so nothing is further behind it.
      have hnone : disk.at? (inner ++ [s]) = none := by
        cases hat : disk.at? (inner ++ [s]) with
        | none => rfl
        | some entry =>
            have hentry :=
              hasEntry_concat hsound (fun t ht => hnames t (List.mem_append_left _ ht)) hfront hat
            rw [hmissing s (deeper ++ behind) (by simp [← hrest])] at hentry
            exact absurd hentry (by simp)
      have hinner : Place.isWithin (inner ++ s :: deeper) (inner ++ [s]) = true := by
        simpa using Place.isWithin_append (inner ++ [s]) deeper
      rw [hsound.at?_within_eq_none hnone hinner] at hlink
      exact absurd hlink (by simp)

end Disk

end Stencil.Files
