import Mathlib.Data.List.DropRight
import Stencil.Clone

/-!
# The names of repositories

A repository has its name from its URL, and so has the directory of a clone if nobody gives it another one. A URL
ends with the part that names it; `.git` may stand behind that, and slashes behind both, as often as one likes
(`UrlParts`). Every URL can be taken apart like this, and the name is the part, or a fixed word where the part is
empty (`exists_urlParts`, `UrlParts.nameOf_url`). How often the two endings stand there is of no account, and that
is why a URL can be spelled in several ways (`RespelledAs`) and means the same directory in all of them
(`name_of_respelled`).
-/

namespace Stencil.Repository

/-! ## Endings that are dropped -/

section Endings

variable {ending kept chars : List Char}

/-- An ending, so many times. -/
def repeated (ending : List Char) (times : Nat) : List Char := (List.replicate times ending).flatten

@[simp] theorem repeated_zero (ending : List Char) : repeated ending 0 = [] := rfl

theorem repeated_succ (ending : List Char) (times : Nat) :
    repeated ending (times + 1) = repeated ending times ++ ending := by
  rw [repeated, List.replicate_succ', List.flatten_append, List.flatten_singleton, repeated]

theorem repeated_singleton (c : Char) (times : Nat) : repeated [c] times = List.replicate times c := by
  induction times with
  | zero => rfl
  | succ times ih => rw [repeated_succ, ih, List.replicate_succ']

theorem length_repeated_le (hne : ending ≠ []) (times : Nat) : times ≤ (repeated ending times).length := by
  have hpos : 0 < ending.length := List.length_pos_iff.mpr hne
  induction times with
  | zero => exact Nat.zero_le _
  | succ times ih =>
      rw [repeated_succ, List.length_append]
      omega

/-- With enough steps, all of the beginnings are dropped and nothing else is. -/
theorem go_repeated {front rest : List Char} (hrest : ¬ front <+: rest) (times spare : Nat) :
    dropEnding.go front (times + spare) ((List.replicate times front).flatten ++ rest) = rest := by
  induction times with
  | zero =>
      rw [List.replicate_zero, List.flatten_nil, List.nil_append, Nat.zero_add]
      cases spare with
      | zero => rfl
      | succ spare => rw [dropEnding.go, if_neg (by rwa [List.isPrefixOf_iff_prefix])]
  | succ times ih =>
      rw [Nat.add_right_comm, dropEnding.go, List.replicate_succ, List.flatten_cons, List.append_assoc,
        if_pos (List.isPrefixOf_iff_prefix.mpr (List.prefix_append _ _)), List.drop_left, ih]

/-- **An ending is dropped as often as it stands there.** -/
theorem dropEnding_append_repeated (hne : ending ≠ []) (hkept : ¬ ending <:+ kept) (times : Nat) :
    dropEnding ending (kept ++ repeated ending times) = kept := by
  have hreverse : (kept ++ repeated ending times).reverse =
      (List.replicate times ending.reverse).flatten ++ kept.reverse := by
    rw [List.reverse_append, repeated, List.reverse_flatten, List.map_replicate, List.reverse_replicate]
  have henough : times ≤ (kept ++ repeated ending times).length := by
    rw [List.length_append]
    exact Nat.le_add_left_of_le (length_repeated_le hne times)
  obtain ⟨spare, hspare⟩ := Nat.exists_eq_add_of_le henough
  rw [dropEnding, hspare, hreverse, go_repeated (by rwa [List.reverse_prefix]), List.reverse_reverse]

/-- What is left when an ending is dropped as often as it stands there. -/
theorem exists_repeated (hne : ending ≠ []) (chars : List Char) :
    ∃ kept times, chars = kept ++ repeated ending times ∧ ¬ ending <:+ kept := by
  -- By the length, since an ending has any number of characters.
  induction hlength : chars.length using Nat.strong_induction_on generalizing chars with
  | _ length ih =>
      by_cases hends : ending <:+ chars
      · obtain ⟨front, rfl⟩ := hends
        have hshorter : front.length < length := by
          have hpos : 0 < ending.length := List.length_pos_iff.mpr hne
          rw [← hlength, List.length_append]
          omega
        obtain ⟨kept, times, rfl, hkept⟩ := ih front.length hshorter front rfl
        exact ⟨kept, times + 1, by rw [repeated_succ, List.append_assoc], hkept⟩
      · exact ⟨chars, 0, by simp, hends⟩

end Endings

/-! ## URLs, taken apart -/

/-- What may stand behind the name of a repository. -/
def gitEnding : List Char := ['.', 'g', 'i', 't']

/-- Whether a character stands between the parts of a URL. -/
def isDivider (c : Char) : Bool := c = '/' || c = ':'

/-- **A URL, taken apart**: what is in front of the part that names the repository, this part, how often `.git`
stands behind it, and how many slashes are at the end. -/
structure UrlParts where
  front : List Char
  part : List Char
  gits : Nat
  slashes : Nat
  front_ends : ∀ c ∈ front.getLast?, isDivider c = true
  part_plain : ∀ c ∈ part, isDivider c = false
  part_bare : ¬ gitEnding <:+ part
  /-- All of the slashes at the end are counted. -/
  path_bare : ¬ ['/'] <:+ front ++ part ++ repeated gitEnding gits

namespace UrlParts

/-- The URL without the slashes at its end. -/
def path (parts : UrlParts) : List Char := parts.front ++ parts.part ++ repeated gitEnding parts.gits

/-- The URL. -/
def url (parts : UrlParts) : String := String.ofList (parts.path ++ repeated ['/'] parts.slashes)

/-- What the repository is called: its part, or a fixed word. -/
def name (parts : UrlParts) : String := if parts.part = [] then "template" else String.ofList parts.part

/-- No divider is in the last part of a URL, nor in what stands behind it. -/
theorem plain_last (parts : UrlParts) :
    ∀ c ∈ parts.part ++ repeated gitEnding parts.gits, isDivider c = false := by
  have hgit : ∀ c ∈ gitEnding, isDivider c = false := by simp [gitEnding, isDivider]
  intro c hc
  rcases List.mem_append.mp hc with hpart | hrepeated
  · exact parts.part_plain c hpart
  · obtain ⟨ending, hending, hmem⟩ := List.mem_flatten.mp hrepeated
    obtain rfl := List.eq_of_mem_replicate hending
    exact hgit c hmem

/-- Behind the last divider of a URL there are its part and the endings of that. -/
theorem rtakeWhile_path (parts : UrlParts) :
    parts.path.rtakeWhile (fun c => !isDivider c) = parts.part ++ repeated gitEnding parts.gits := by
  have hfront : parts.front.rtakeWhile (fun c => !isDivider c) = [] := by
    -- The front ends in a divider, if it is not empty.
    refine List.rtakeWhile_eq_nil_iff.mpr fun hne => ?_
    simp [parts.front_ends _ (List.getLast_mem_getLast? hne)]
  rw [path, List.append_assoc, List.rtakeWhile, List.reverse_append, List.takeWhile_append_of_pos,
    List.reverse_append, List.reverse_reverse]
  · rw [show (parts.front.reverse.takeWhile _).reverse = [] from hfront, List.nil_append]
  · intro c hc
    simp [parts.plain_last c (List.mem_reverse.mp hc)]

/-- **A repository is called what the parts of its URL say.** -/
theorem nameOf_url (parts : UrlParts) : nameOf parts.url = parts.name := by
  have hbare : ¬ ['/'] <:+ parts.path := parts.path_bare
  have hpath : dropEnding ['/'] parts.url.toList = parts.path := by
    rw [url, String.toList_ofList, dropEnding_append_repeated (by simp) hbare]
  have hlast : (parts.path.reverse.takeWhile fun c => c ≠ '/' && c ≠ ':').reverse =
      parts.part ++ repeated gitEnding parts.gits := by
    rw [← parts.rtakeWhile_path, List.rtakeWhile]
    congr
    funext c
    simp [isDivider]
  rw [nameOf, hpath, hlast, show ['.', 'g', 'i', 't'] = gitEnding from rfl,
    dropEnding_append_repeated (by decide) parts.part_bare, name]
  simp only [List.isEmpty_iff]

/-- The URL with other slashes at its end. -/
def withSlashes (parts : UrlParts) (slashes : Nat) : UrlParts := { parts with slashes }

/-- The URL with `.git` once more, and with slashes behind that. -/
def withGit (parts : UrlParts) (slashes : Nat) : UrlParts :=
  { parts with
    gits := parts.gits + 1
    slashes
    path_bare := by
      rw [repeated_succ, ← List.append_assoc]
      exact fun hends => absurd (List.suffix_of_suffix_length_le hends (List.suffix_append _ gitEnding)
        (by decide)) (by decide) }

theorem url_withSlashes (parts : UrlParts) (slashes : Nat) :
    (parts.withSlashes (parts.slashes + slashes)).url =
      parts.url ++ String.ofList (List.replicate slashes '/') := by
  rw [url, url, ← String.ofList_append]
  simp [withSlashes, path, repeated_singleton]

theorem url_withGit (parts : UrlParts) (slashes : Nat) (hnone : parts.slashes = 0) :
    (parts.withGit slashes).url = parts.url ++ ".git" ++ String.ofList (List.replicate slashes '/') := by
  rw [url, url, show ".git" = String.ofList gitEnding from rfl, ← String.ofList_append, ← String.ofList_append]
  simp [withGit, path, repeated_singleton, repeated_succ, hnone]

/-- A URL that ends in no slash has none to count. -/
theorem slashes_eq_zero (parts : UrlParts) (h : ¬ ['/'] <:+ parts.url.toList) : parts.slashes = 0 := by
  cases hslashes : parts.slashes with
  | zero => rfl
  | succ slashes =>
      refine absurd ?_ h
      rw [url, String.toList_ofList, hslashes, repeated_succ, ← List.append_assoc]
      exact List.suffix_append _ _

end UrlParts

/-- **Every URL can be taken apart.** -/
theorem exists_urlParts (url : String) : ∃ parts : UrlParts, parts.url = url := by
  -- The slashes are cut off first: behind them there may be no `.git`, but in front of them there may.
  obtain ⟨path, slashes, hurl, hpath⟩ := exists_repeated (by simp : ['/'] ≠ []) url.toList
  obtain ⟨part, gits, hlast, hpart⟩ :=
    exists_repeated (by decide : gitEnding ≠ []) (path.rtakeWhile fun c => !isDivider c)
  have hwhole : path.rdropWhile (fun c => !isDivider c) ++ part ++ repeated gitEnding gits = path := by
    rw [List.append_assoc, ← hlast, List.rdropWhile_append_rtakeWhile]
  have hends : ∀ c ∈ (path.rdropWhile fun c => !isDivider c).getLast?, isDivider c = true := by
    intro c hc
    obtain ⟨hne, rfl⟩ := List.mem_getLast?_eq_getLast hc
    simpa using List.rdropWhile_last_not _ _ hne
  have hplain : ∀ c ∈ part, isDivider c = false := by
    intro c hc
    have hmem : c ∈ path.rtakeWhile fun c => !isDivider c := hlast ▸ List.mem_append_left _ hc
    simpa using List.mem_rtakeWhile_imp hmem
  refine ⟨⟨_, part, gits, slashes, hends, hplain, hpart, hwhole.symm ▸ hpath⟩, ?_⟩
  show String.ofList (path.rdropWhile _ ++ part ++ repeated gitEnding gits ++ repeated ['/'] slashes) = url
  rw [hwhole, ← hurl, String.ofList_toList]

/-! ## Spellings -/

/-- **Another spelling of a URL**: with slashes behind it, or with `.git` and slashes behind it if it does not end
in a slash. -/
inductive RespelledAs (url : String) : String → Prop where
  | slashes (times : Nat) : RespelledAs url (url ++ String.ofList (List.replicate times '/'))
  | git (times : Nat) : ¬ ['/'] <:+ url.toList →
      RespelledAs url (url ++ ".git" ++ String.ofList (List.replicate times '/'))

/-- Another spelling has the same part. -/
theorem RespelledAs.exists_parts {url other : String} (h : RespelledAs url other) :
    ∃ parts parts' : UrlParts, parts.url = url ∧ parts'.url = other ∧ parts'.part = parts.part := by
  obtain ⟨parts, rfl⟩ := exists_urlParts url
  cases h with
  | slashes times => exact ⟨parts, _, rfl, parts.url_withSlashes times, rfl⟩
  | git times hnone => exact ⟨parts, _, rfl, parts.url_withGit times (parts.slashes_eq_zero hnone), rfl⟩

theorem RespelledAs.nameOf_eq {url other : String} (h : RespelledAs url other) :
    nameOf other = nameOf url := by
  obtain ⟨parts, parts', rfl, rfl, hpart⟩ := h.exists_parts
  rw [UrlParts.nameOf_url, UrlParts.nameOf_url, UrlParts.name, UrlParts.name, hpart]

/-- The fixed word and every part of a URL can be names. -/
theorem UrlParts.name_plain (parts : UrlParts) :
    parts.name ≠ "" ∧ (∀ c ∈ parts.name.toList, isDivider c = false) ∧
      ¬ gitEnding <:+ parts.name.toList := by
  unfold name
  split
  · exact ⟨by decide, by simp [isDivider], by decide⟩
  · rename_i hne
    rw [String.toList_ofList]
    refine ⟨fun hempty => hne ?_, parts.part_plain, parts.part_bare⟩
    simpa using congrArg String.toList hempty

/-- **The name of a repository does not depend on how its URL is spelled.** It is the part of the URL that names
it, or a fixed word, and so it is never empty, has no divider in it and does not end in `.git`. Neither it nor the
directory of a clone changes with slashes behind the URL, or `.git` and slashes where there are no slashes. -/
theorem name_of_respelled (repository : Repository) :
    (∃ parts : UrlParts, parts.url = repository.url ∧ repository.name = parts.name) ∧
    repository.name ≠ "" ∧ '/' ∉ repository.name.toList ∧ ':' ∉ repository.name.toList ∧
    ¬ ".git".toList <:+ repository.name.toList ∧
    ∀ url, RespelledAs repository.url url →
      ({ repository with url } : Repository).name = repository.name ∧
      ∀ clone : Clone, clone.repository = repository →
        ({ clone with repository := { repository with url } } : Clone).destination = clone.destination := by
  obtain ⟨parts, hurl⟩ := exists_urlParts repository.url
  have hname : repository.name = parts.name := by rw [Repository.name, ← hurl, parts.nameOf_url]
  obtain ⟨hne, hplain, hbare⟩ := parts.name_plain
  rw [hname]
  refine ⟨⟨parts, hurl, rfl⟩, hne, fun hslash => ?_, fun hcolon => ?_, hbare, fun url hspelled => ?_⟩
  · exact absurd (hplain _ hslash) (by decide)
  · exact absurd (hplain _ hcolon) (by decide)
  · have hsame : ({ repository with url } : Repository).name = repository.name := hspelled.nameOf_eq
    refine ⟨hsame.trans hname, ?_⟩
    rintro clone rfl
    rw [Clone.destination, Clone.destination, hsame]

/-- A URL of a host without an ending, and with slashes behind `.git`. -/
theorem name_of_respelled_host :
    ({ url := "git@x.org:u/a.b" } : Repository).name = "a.b" ∧
      RespelledAs "git@x.org:u/a.b" "git@x.org:u/a.b.git//" ∧
      ({ url := "git@x.org:u/a.b.git//" } : Repository).name = "a.b" := by
  have hspelled : RespelledAs "git@x.org:u/a.b" "git@x.org:u/a.b.git//" := .git 2 (by decide +kernel)
  have hname : ({ url := "git@x.org:u/a.b" } : Repository).name = "a.b" := by decide +kernel
  obtain ⟨_, _, _, _, _, hsame⟩ := name_of_respelled { url := "git@x.org:u/a.b" }
  exact ⟨hname, hspelled, (hsame _ hspelled).1.trans hname⟩

end Stencil.Repository
