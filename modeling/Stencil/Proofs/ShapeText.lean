import Stencil.Proofs.Checking
import Stencil.Proofs.Defaults
import Stencil.Proofs.Fitting

/-!
# Different shapes read differently

The text of a shape is a few indented lines, and no two shapes have the same (`Shape.render_injective`) unless a
key holds a line break. Indentation has little to do with it, since a key may start with blanks and may hold
anything that stands in such a text. What counts is how lines end. A line that opens something, or says all, ends
in one of nine ways (`Shape.Opening`); a line that closes a map ends in a mark in which none of those end. And no
opening has a colon in it, so the key of an entry is what stands in front of the last colon of its line.

A shape is therefore read off the front of a text, whatever follows (`Shape.ReadOff`). That is by induction on the
shape, and in a map by induction on its entries.
-/

namespace Stencil

/-! ## Cutting at a mark -/

namespace Text

variable {mark : Char} {front other rest more : List Char}

/-- What stands before the first mark is known, and so is what stands behind it. -/
theorem eq_of_first_mark (hfront : mark ∉ front) (hother : mark ∉ other)
    (h : front ++ mark :: rest = other ++ mark :: more) : front = other ∧ rest = more := by
  induction front generalizing other with
  | nil =>
      cases other with
      | nil => exact ⟨rfl, (List.cons.inj h).2⟩
      | cons c other => exact absurd ((List.cons.inj h).1 ▸ List.mem_cons_self) hother
  | cons c front ih =>
      cases other with
      | nil => exact absurd ((List.cons.inj h).1 ▸ List.mem_cons_self) hfront
      | cons d other =>
          obtain ⟨rfl, htail⟩ := List.cons.inj h
          obtain ⟨rfl, rfl⟩ := ih (fun hmem => hfront (List.mem_cons_of_mem c hmem))
            (fun hmem => hother (List.mem_cons_of_mem c hmem)) htail
          exact ⟨rfl, rfl⟩

/-- What stands behind the last mark is known, and so is what stands before it. -/
theorem eq_of_last_mark (hrest : mark ∉ rest) (hmore : mark ∉ more)
    (h : front ++ mark :: rest = other ++ mark :: more) : front = other ∧ rest = more := by
  have hreverse : rest.reverse ++ mark :: front.reverse = more.reverse ++ mark :: other.reverse := by
    simpa using congrArg List.reverse h
  obtain ⟨hback, hfront⟩ := eq_of_first_mark (by simpa using hrest) (by simpa using hmore) hreverse
  exact ⟨List.reverse_injective hfront, List.reverse_injective hback⟩

end Text

namespace Shape

/-- Whether all keys in a shape, at any depth, are free of line breaks. -/
inductive OneLine : Shape → Prop
  | text : OneLine .text
  | integer : OneLine .integer
  | decimal : OneLine .decimal
  | boolean : OneLine .boolean
  | unknown : OneLine .unknown
  | bare : OneLine (.list none)
  | list {element : Shape} (h : OneLine element) : OneLine (.list (some element))
  | map {entries : List (String × Shape)} (hkeys : ∀ entry ∈ entries, '\n' ∉ entry.1.toList)
    (hshapes : ∀ entry ∈ entries, OneLine entry.2) : OneLine (.map entries)

/-! ## First lines -/

/-- What the first line of the text of a shape says. -/
inductive Opening where
  | text
  | integer
  | decimal
  | boolean
  | unknown
  | bareList
  | bareMap
  | list
  | map
  deriving DecidableEq

/-- What a shape opens with. -/
def opening : Shape → Opening
  | .text => .text
  | .integer => .integer
  | .decimal => .decimal
  | .boolean => .boolean
  | .unknown => .unknown
  | .list none => .bareList
  | .list (some _) => .list
  | .map [] => .bareMap
  | .map (_ :: _) => .map

/-- The text of a first line. -/
def Opening.line : Opening → String
  | .text => "string"
  | .integer => "integer"
  | .decimal => "decimal"
  | .boolean => "boolean"
  | .unknown => "unknown"
  | .bareList => "list"
  | .bareMap => "map"
  | .list => "list ["
  | .map => "map \x7b"

theorem Opening.line_injective {first second : Opening} (h : first.line.toList = second.line.toList) :
    first = second := by
  cases first <;> cases second <;> first | rfl | exact absurd h (by decide)

theorem Opening.no_break (o : Opening) : '\n' ∉ o.line.toList := by
  cases o <;> decide

theorem Opening.no_colon (o : Opening) : ':' ∉ o.line.toList := by
  cases o <;> decide

/-- No first line ends in the mark that closes a map. -/
theorem Opening.getLast?_ne (o : Opening) : o.line.toList.getLast? ≠ some '\x7d' := by
  cases o <;> decide

theorem Opening.line_ne_nil (o : Opening) : o.line.toList ≠ [] := by
  cases o <;> decide

/-- What stands behind the first line of the text of a shape, if more follows on a line of its own. -/
def behind (level : Nat) (more : List Char) : Shape → List Char
  | .list (some element) =>
    (indent (level + 1)).toList ++ ((renderAt (level + 1) element).toList ++
      '\n' :: ((indent level).toList ++ ']' :: '\n' :: more))
  | .map (entry :: entries) =>
    (renderEntries (level + 1) (entry :: entries)).toList ++ ((indent level).toList ++ '\x7d' :: '\n' :: more)
  | _ => more

/-- **The text of a shape starts with its opening.** -/
theorem toList_renderAt (level : Nat) (shape : Shape) (more : List Char) :
    (renderAt level shape).toList ++ '\n' :: more = shape.opening.line.toList ++ '\n' :: shape.behind level more := by
  cases shape with
  | list element? =>
      cases element? with
      | none => simp [renderAt, tag, opening, Opening.line, behind]
      | some element => simp [renderAt, opening, Opening.line, behind]
  | map entries =>
      cases entries with
      | nil => simp [renderAt, tag, opening, Opening.line, behind]
      | cons entry entries => simp [renderAt, opening, Opening.line, behind]
  | _ => simp [renderAt, tag, opening, Opening.line, behind]

/-! ## The lines of a map -/

/-- The line in which an entry starts. -/
def entryLine (level : Nat) (key : String) (o : Opening) : List Char :=
  (indent level).toList ++ (key.toList ++ ':' :: ' ' :: o.line.toList)

/-- The line that closes a map. -/
def closeLine (level : Nat) : List Char := (indent level).toList ++ ['\x7d']

/-- The text of entries starts with the line of the first. -/
theorem toList_renderEntries (level : Nat) (key : String) (shape : Shape) (rest : List (String × Shape))
    (more : List Char) :
    (renderEntries level ((key, shape) :: rest)).toList ++ more =
      entryLine level key shape.opening ++ '\n' :: shape.behind level ((renderEntries level rest).toList ++ more) := by
  have hshape := toList_renderAt level shape ((renderEntries level rest).toList ++ more)
  rw [renderEntries, entryLine]
  simp only [String.toList_append, List.append_assoc, List.cons_append]
  simpa using hshape

theorem indent_no_break (level : Nat) : '\n' ∉ (indent level).toList := by
  simp [indent]

theorem entryLine_no_break {key : String} (hkey : '\n' ∉ key.toList) (level : Nat) (o : Opening) :
    '\n' ∉ entryLine level key o := by
  have hindent := indent_no_break level
  have hopening := o.no_break
  simp [entryLine, hkey, hindent, hopening]

theorem closeLine_no_break (level : Nat) : '\n' ∉ closeLine level := by
  have hindent := indent_no_break level
  simp [closeLine, hindent]

/-- The line of an entry closes nothing. -/
theorem entryLine_ne_closeLine {level outer : Nat} {key : String} {o : Opening} :
    entryLine level key o ≠ closeLine outer := by
  intro h
  -- One line ends as an opening does, the other in the mark.
  obtain ⟨front, c, hline⟩ := List.eq_nil_or_concat o.line.toList |>.resolve_left o.line_ne_nil
  have hlast := congrArg List.getLast? h
  have hmark := o.getLast?_ne
  rw [entryLine, closeLine, hline] at hlast
  rw [hline] at hmark
  simp [List.getLast?_append, List.getLast?_cons] at hlast hmark
  exact hmark hlast

/-- The last colon of the line stands behind the key. -/
theorem entryLine_injective {level : Nat} {key other : String} {o o' : Opening}
    (h : entryLine level key o = entryLine level other o') : key = other ∧ o = o' := by
  have hcolon (o : Opening) : ':' ∉ ' ' :: o.line.toList := by
    have hnone := o.no_colon
    simp [hnone]
  obtain ⟨hkey, hopening⟩ := Text.eq_of_last_mark (hcolon o) (hcolon o') (List.append_cancel_left h)
  exact ⟨String.toList_inj.mp hkey, Opening.line_injective (List.cons.inj hopening).2⟩

/-! ## Reading a shape off a text -/

/-- Whether a shape is known from a text that starts with it, and where its text ends. -/
def ReadOff (s : Shape) : Prop :=
  ∀ {t : Shape} {level : Nat} {rest more : List Char}, t.OneLine →
    (renderAt level s).toList ++ '\n' :: rest = (renderAt level t).toList ++ '\n' :: more → s = t ∧ rest = more

/-- Texts that start with shapes start with their openings. -/
theorem opening_eq_of_renderAt {s t : Shape} {level : Nat} {rest more : List Char}
    (h : (renderAt level s).toList ++ '\n' :: rest = (renderAt level t).toList ++ '\n' :: more) :
    s.opening = t.opening ∧ s.behind level rest = t.behind level more := by
  rw [toList_renderAt, toList_renderAt] at h
  obtain ⟨hline, hbehind⟩ := Text.eq_of_first_mark s.opening.no_break t.opening.no_break h
  exact ⟨Opening.line_injective hline, hbehind⟩

/-- **Entries are known from a text that starts with them** and closes the map, if the shapes in them are. -/
theorem renderEntries_injective {entries others : List (String × Shape)} {level outer : Nat} {rest more : List Char}
    (hkeys : ∀ entry ∈ entries, '\n' ∉ entry.1.toList) (hread : ∀ entry ∈ entries, ReadOff entry.2)
    (hotherKeys : ∀ entry ∈ others, '\n' ∉ entry.1.toList) (hothers : ∀ entry ∈ others, OneLine entry.2)
    (h : (renderEntries level entries).toList ++ (closeLine outer ++ '\n' :: rest) =
      (renderEntries level others).toList ++ (closeLine outer ++ '\n' :: more)) :
    entries = others ∧ rest = more := by
  have hclose := closeLine_no_break outer
  induction entries generalizing others with
  | nil =>
      cases others with
      | nil => exact ⟨rfl, (Text.eq_of_first_mark hclose hclose (List.append_cancel_left h)).2⟩
      | cons other others =>
          have hline := entryLine_no_break (List.forall_mem_cons.mp hotherKeys).1 level other.2.opening
          rw [toList_renderEntries] at h
          obtain ⟨hsame, -⟩ := Text.eq_of_first_mark hclose hline h
          exact absurd hsame.symm entryLine_ne_closeLine
  | cons entry entries ih =>
      obtain ⟨hkey, hkeys⟩ := List.forall_mem_cons.mp hkeys
      obtain ⟨hshape, hread⟩ := List.forall_mem_cons.mp hread
      have hline := entryLine_no_break hkey level entry.2.opening
      rw [toList_renderEntries] at h
      cases others with
      | nil =>
          obtain ⟨hsame, -⟩ := Text.eq_of_first_mark hline hclose h
          exact absurd hsame entryLine_ne_closeLine
      | cons other others =>
          obtain ⟨hotherKey, hotherKeys⟩ := List.forall_mem_cons.mp hotherKeys
          obtain ⟨hother, hothers⟩ := List.forall_mem_cons.mp hothers
          rw [toList_renderEntries] at h
          have hotherLine := entryLine_no_break hotherKey level other.2.opening
          obtain ⟨hsame, hbehind⟩ := Text.eq_of_first_mark hline hotherLine h
          obtain ⟨hkeySame, hopening⟩ := entryLine_injective hsame
          -- What is behind the line, put behind the opening again, starts with the first shape.
          have hfirst : (renderAt level entry.2).toList ++ '\n' ::
                ((renderEntries level entries).toList ++ (closeLine outer ++ '\n' :: rest)) =
              (renderAt level other.2).toList ++ '\n' ::
                ((renderEntries level others).toList ++ (closeLine outer ++ '\n' :: more)) := by
            rw [toList_renderAt, toList_renderAt, hopening, hbehind]
          obtain ⟨hshapeSame, hrest⟩ := hshape hother hfirst
          obtain ⟨rfl, hmore⟩ := ih hkeys hread hotherKeys hothers hrest
          exact ⟨by rw [Prod.ext hkeySame hshapeSame], hmore⟩

/-- A shape that is all in its opening is known from it. -/
theorem eq_of_opening {s t : Shape} (h : s.opening = t.opening) (hlist : s.opening ≠ .list)
    (hmap : s.opening ≠ .map) : s = t := by
  rcases s with _ | _ | _ | _ | (_ | element) | (_ | ⟨entry, entries⟩) | _ <;>
    rcases t with _ | _ | _ | _ | (_ | other) | (_ | ⟨other, others⟩) | _ <;>
    first
      | rfl
      | exact absurd rfl hlist
      | exact absurd rfl hmap
      | cases h

theorem exists_of_opening_list {t : Shape} (h : t.opening = .list) : ∃ element, t = .list (some element) := by
  cases t with
  | list element? =>
      cases element? with
      | none => cases h
      | some element => exact ⟨element, rfl⟩
  | map entries => cases entries <;> cases h
  | _ => cases h

theorem exists_of_opening_map {t : Shape} (h : t.opening = .map) : ∃ entry entries, t = .map (entry :: entries) := by
  cases t with
  | list element? => cases element? <;> cases h
  | map entries =>
      cases entries with
      | nil => cases h
      | cons entry entries => exact ⟨entry, entries, rfl⟩
  | _ => cases h

/-- **A shape whose keys are free of line breaks is read off a text that starts with it.** -/
theorem OneLine.readOff {s : Shape} (hs : s.OneLine) : s.ReadOff := by
  induction hs with
  | text | integer | decimal | boolean | unknown | bare =>
      intro t level rest more _ h
      obtain ⟨hopening, hbehind⟩ := opening_eq_of_renderAt h
      obtain rfl := eq_of_opening hopening (by decide) (by decide)
      exact ⟨rfl, hbehind⟩
  | @list element _ ih =>
      intro t level rest more ht h
      obtain ⟨hopening, hbehind⟩ := opening_eq_of_renderAt h
      obtain ⟨other, rfl⟩ := exists_of_opening_list hopening.symm
      cases ht with
      | list hother =>
      -- Behind the opening stands the element, and behind that a line with the mark that closes the list.
      obtain ⟨rfl, hclose⟩ := ih hother (List.append_cancel_left hbehind)
      have hmark := List.append_cancel_left hclose
      exact ⟨rfl, (List.cons.inj (List.cons.inj hmark).2).2⟩
  | @map entries hkeys _ ih =>
      intro t level rest more ht h
      obtain ⟨hopening, hbehind⟩ := opening_eq_of_renderAt h
      cases entries with
      | nil =>
          obtain rfl := eq_of_opening hopening (by decide) (by decide)
          exact ⟨rfl, hbehind⟩
      | cons entry entries =>
          obtain ⟨other, others, rfl⟩ := exists_of_opening_map hopening.symm
          cases ht with
          | map hotherKeys hothers =>
          -- Both have entries, which go on up to the mark that closes the map.
          have hentries : (renderEntries (level + 1) (entry :: entries)).toList ++ (closeLine level ++ '\n' :: rest) =
              (renderEntries (level + 1) (other :: others)).toList ++ (closeLine level ++ '\n' :: more) := by
            simpa [closeLine, behind] using hbehind
          obtain ⟨hsame, hrest⟩ := renderEntries_injective hkeys ih hotherKeys hothers hentries
          exact ⟨by rw [hsame], hrest⟩

/-- **Different shapes read differently.** -/
theorem eq_of_render {s t : Shape} (hs : s.OneLine) (ht : t.OneLine) (h : s.render = t.render) : s = t := by
  have hline : (renderAt 0 s).toList ++ '\n' :: [] = (renderAt 0 t).toList ++ '\n' :: [] :=
    congrArg (fun text : String => text.toList ++ ['\n']) h
  exact (hs.readOff ht hline).1

/-- Every shape has a text. -/
theorem render_ne_empty (s : Shape) : s.render ≠ "" := by
  intro h
  have htext := toList_renderAt 0 s []
  rw [show renderAt 0 s = "" from h] at htext
  obtain ⟨hline, -⟩ := Text.eq_of_first_mark (by simp) s.opening.no_break htext
  exact s.opening.line_ne_nil hline.symm

end Shape

/-! ## The texts of values -/

open Variables (valueOf? Unbroken)

namespace Value

/-- Whether all keys in a value, at any depth, are free of line breaks. -/
inductive OneLine : Value → Prop
  | null : OneLine .null
  | bool (b : Bool) : OneLine (.bool b)
  | integer (n : Int) : OneLine (.integer n)
  | decimal (x : Float) : OneLine (.decimal x)
  | text (s : String) : OneLine (.text s)
  | list {items : List Value} (h : ∀ item ∈ items, OneLine item) : OneLine (.list items)
  | map {entries : List (String × Value)} (hkeys : ∀ entry ∈ entries, '\n' ∉ entry.1.toList)
    (hvalues : ∀ entry ∈ entries, OneLine entry.2) : OneLine (.map entries)

/-- What stands among the shapes of entries is the shape of one of them. -/
theorem exists_of_mem_entriesOf? {entries : List (String × Value)} {shapes : List (String × Shape)}
    (h : Shape.entriesOf? entries = some shapes) {key : String} {shape : Shape} (hmem : (key, shape) ∈ shapes) :
    ∃ value, (key, value) ∈ entries ∧ Shape.of? value = some shape := by
  induction entries generalizing shapes with
  | nil =>
      cases h
      cases hmem
  | cons entry rest ih =>
      obtain ⟨first, value⟩ := entry
      rw [Shape.entriesOf?] at h
      split at h
      · cases h
      rename_i hknown
      obtain ⟨more, hmore, rfl⟩ := Option.map_eq_some_iff.mp h
      rcases List.mem_cons.mp hmem with heq | hmem
      · obtain ⟨rfl, rfl⟩ := Prod.mk.inj heq
        cases hshape : Shape.of? value with
        | none =>
            rw [hshape] at hknown
            exact absurd rfl hknown
        | some shape => exact ⟨value, List.mem_cons_self, hshape⟩
      · obtain ⟨value', hvalue', hshape⟩ := ih hmore hmem
        exact ⟨value', List.mem_cons_of_mem _ hvalue', hshape⟩

/-- A value without line breaks in its keys has a shape without any. -/
theorem OneLine.shape {value : Value} {shape : Shape} (h : value.OneLine) (hshape : Shape.of? value = some shape) :
    shape.OneLine := by
  induction h generalizing shape with
  | null => cases hshape
  | bool => cases hshape; exact .boolean
  | integer => cases hshape; exact .integer
  | decimal => cases hshape; exact .decimal
  | text => cases hshape; exact .text
  | list hitems ih =>
      cases Shape.of?_eq_some_iff.mp hshape with
      | bare => exact .bare
      | untypedList => exact .list .unknown
      | list hfirst => exact .list (ih _ List.mem_cons_self hfirst)
  | map hkeys hvalues ih =>
      cases Shape.of?_eq_some_iff.mp hshape with
      | untypedMap => exact .unknown
      | map hshapes =>
          refine .map (fun entry hentry => ?_) fun entry hentry => ?_
          · obtain ⟨value, hvalue, -⟩ := exists_of_mem_entriesOf? hshapes hentry
            exact hkeys _ hvalue
          · obtain ⟨value, hvalue, hof⟩ := exists_of_mem_entriesOf? hshapes hentry
            exact ih _ hvalue hof

/-- Only `null` has no shape. -/
theorem of?_eq_none_iff {value : Value} : Shape.of? value = none ↔ value = .null := by
  constructor
  · intro h
    cases value with
    | null => rfl
    | list items => cases items <;> cases h
    | map entries =>
        rw [Shape.of?] at h
        split at h <;> cases h
    | _ => cases h
  · rintro rfl
    rfl

/-- **Values that read the same have one shape**, or are both `null`. -/
theorem of?_eq_of_shapeText {a b : Value} (ha : a.OneLine) (hb : b.OneLine) (h : a.shapeText = b.shapeText) :
    Shape.of? a = Shape.of? b := by
  unfold shapeText at h
  cases hshape : Shape.of? a with
  | none =>
      cases hother : Shape.of? b with
      | none => rfl
      | some other =>
          rw [hshape, hother] at h
          exact absurd h.symm other.render_ne_empty
  | some shape =>
      cases hother : Shape.of? b with
      | none =>
          rw [hshape, hother] at h
          exact absurd h shape.render_ne_empty
      | some other =>
          rw [hshape, hother] at h
          rw [Shape.eq_of_render (ha.shape hshape) (hb.shape hother) h]

/-- **A value that does not fit what is expected reads differently**, if nothing in what is expected is untyped. -/
theorem shapeText_ne_of_not_fits {sample value : Value} (hsample : sample.Sorted) (hvalue : value.Sorted)
    (hknown : ∀ shape, Shape.of? sample = some shape → shape.Known) (hsampleLine : sample.OneLine)
    (hvalueLine : value.OneLine) (h : sample.fits value = false) : value.shapeText ≠ sample.shapeText := by
  intro hsame
  have hof := of?_eq_of_shapeText hvalueLine hsampleLine hsame
  -- With one shape, which accepts itself, the value fits after all.
  have hfits : sample.fits value = true := by
    cases hshape : Shape.of? sample with
    | none =>
        rw [hshape] at hof
        rw [of?_eq_none_iff.mp hshape, of?_eq_none_iff.mp hof]
        rfl
    | some shape =>
        rw [hshape] at hof
        have hself := (hknown shape hshape).accepts_self
        exact (fits_iff_describes hsample hvalue (Shape.of?_eq_some_iff.mp hshape) (hknown shape hshape)).mpr
          ⟨shape, Shape.of?_eq_some_iff.mp hof, hself⟩
  rw [h] at hfits
  cases hfits

end Value

/-! ## What is reported -/

/-- Whether all values in a manifest are sorted. -/
def Manifest.Sorted (manifest : Manifest) : Prop :=
  ∀ d ∈ manifest.declarations, d.sample.Sorted ∧ ∀ value, d.default? = some value → value.Sorted

/-- What a name stands for is sorted. -/
theorem Variables.sorted_of_valueOf? {vars : Variables} {ds : List Declaration} {name : String} {value : Value}
    (hvars : ∀ entry ∈ vars, entry.2.Sorted)
    (hds : ∀ d ∈ ds, ∀ value, d.default? = some value → value.Sorted)
    (h : valueOf? vars ds name = some value) : value.Sorted := by
  rcases Option.or_eq_some_iff.mp h with hgiven | ⟨-, hdefault⟩
  · exact hvars _ (Entries.mem_of_get? hgiven)
  · obtain ⟨d, hd, hvalue⟩ := Option.bind_eq_some_iff.mp hdefault
    exact hds d (List.mem_of_find?_eq_some hd) value hvalue

/-- **Different shapes read differently.** So where a variable, or a default, is reported to be of the wrong type, the
type that it has and the one that it must have are told by different texts. -/
theorem reported_types_differ :
    (∀ s t : Shape, s.OneLine → t.OneLine → s.render = t.render → s = t) ∧
    (∀ (vars : Variables) (manifest : Manifest) (name actual required : String),
      (∀ entry ∈ vars, entry.2.Sorted) → manifest.Sorted →
      vars.bind manifest = .error (.wrongType name actual required) →
      ∃ front d rest value, manifest.declarations = front ++ d :: rest ∧ Unbroken vars front ∧ d.name = name ∧
        valueOf? vars (front ++ [d]) name = some value ∧ actual = value.shapeText ∧
        required = d.sample.shapeText ∧
        ((∀ shape, Shape.of? d.sample = some shape → shape.Known) → d.sample.OneLine → value.OneLine →
          actual ≠ required)) ∧
    ∀ (text : String) (supported : List String) (violations : List Violation) (owner actual required : String),
      Manifest.parse text supported = .error (.violations violations) →
      .defaultMismatch owner actual required ∈ violations →
      ∃ draft d sample value, Manifest.Draft.ofString? text = some draft ∧ d ∈ draft.declarations ∧ d.name = owner ∧
        d.sample? = some sample ∧ d.default? = some value ∧ actual = value.shapeText ∧
        required = sample.shapeText ∧
        ((∀ shape, Shape.of? sample = some shape → shape.Known) → sample.OneLine → value.OneLine →
          actual ≠ required) := by
  refine ⟨fun s t hs ht h => Shape.eq_of_render hs ht h, ?_, ?_⟩
  · intro vars manifest name actual required hvars hmanifest hfault
    obtain ⟨front, d, rest, hsplit, hfront, hbreaks⟩ := Variables.bind_eq_error_iff.mp hfault
    cases hbreaks with
    | @wrongType value _ hvalue hfits =>
        have hmem : ∀ e ∈ front ++ [d], e ∈ manifest.declarations := by
          intro e he
          rw [hsplit, List.append_cons]
          exact List.mem_append_left rest he
        have hsample := (hmanifest d (hmem d (by simp))).1
        have hsorted := Variables.sorted_of_valueOf? hvars (fun e he => (hmanifest e (hmem e he)).2) hvalue
        exact ⟨front, d, rest, value, hsplit, hfront, rfl, hvalue, rfl, rfl, fun hknown hline hvalueLine =>
          Value.shapeText_ne_of_not_fits hsample hsorted hknown hline hvalueLine hfits⟩
  · intro text supported violations owner actual required hparse hreported
    obtain ⟨draft, rule, hdraft, hbroken⟩ := Manifest.broken_of_parse hparse hreported
    cases hbroken with
    | @default i d sample value hd hsample hvalue hfits =>
        have hmem := List.mem_of_getElem? hd
        have hsorted := Manifest.Draft.sorted_of_ofString? hdraft d hmem
        exact ⟨draft, d, sample, value, hdraft, hmem, rfl, hsample, hvalue, rfl, rfl, fun hknown hline hvalueLine =>
          Value.shapeText_ne_of_not_fits (hsorted.sample _ hsample) (hsorted.default _ hvalue) hknown hline hvalueLine
            hfits⟩

/-- An example with a key that could be mistaken for an entry. -/
def oddKey : Value := .map [("a: b", .integer 1)]

/-- The shape of `oddKey`. -/
def oddKeyShape : Shape := .map [("a: b", .integer)]

/-- What is given for it. -/
def plainKey : Value := .map [("a", .integer 1)]

/-- A manifest with one variable, whose example is `oddKey`. -/
def oddKeyManifest : Manifest :=
  { name := "a", description := "", templateVersion := "1.0.0", manifestVersion := "v1", authors := [], license := "",
    configuration := { ignorePaths := [], postCloneCommands := [] },
    declarations := [{ name := "n", description := "", default? := none, sample := oddKey, validate := true }] }

/-- A manifest with a default that does not fit its example, and with little else. -/
def wrongDefaultText : String := "variables:\n- name: n\n  default: 1\n  example: x\n"

theorem oneLine_entry {key : String} (hkey : '\n' ∉ key.toList) : (Value.map [(key, .integer 1)]).OneLine :=
  .map (by simpa using hkey) (by simpa using .integer 1)

theorem sorted_entry (key : String) : (Value.map [(key, .integer 1)]).Sorted :=
  .map (List.pairwise_singleton _ _) (by simpa using .integer 1)

/-- Where it declares an example and a default, these are a text and an integer. -/
theorem wrongDefault_draft {draft : Manifest.Draft} (h : Manifest.Draft.ofString? wrongDefaultText = some draft)
    {d : Declaration.Draft} (hd : d ∈ draft.declarations) {sample value : Value} (hsample : d.sample? = some sample)
    (hvalue : d.default? = some value) : (∃ text, sample = .text text) ∧ ∃ n, value = .integer n := by
  have hall : (Manifest.Draft.ofString? wrongDefaultText).map (fun draft => draft.declarations.all fun d =>
      d.sample?.all (Value.text "").fits && d.default?.all (Value.integer 0).fits) = some true := by decide +kernel
  rw [h, Option.map_some, Option.some.injEq, List.all_eq_true] at hall
  obtain ⟨htext, hinteger⟩ : (Value.text "").fits sample = true ∧ (Value.integer 0).fits value = true := by
    simpa [hsample, hvalue] using hall d hd
  constructor
  · cases sample with
    | text text => exact ⟨text, rfl⟩
    | _ => cases htext
  · cases value with
    | integer n => exact ⟨n, rfl⟩
    | _ => cases hinteger

theorem reported_types_differ_oddKey :
    Shape.render oddKeyShape ≠ Shape.render (.map [("a", .integer)]) ∧
      Variables.bind oddKeyManifest [("n", plainKey)] =
        .error (.wrongType "n" plainKey.shapeText oddKey.shapeText) ∧
      plainKey.shapeText ≠ oddKey.shapeText ∧
      ∃ violations actual required, Manifest.parse wrongDefaultText ["v1"] = .error (.violations violations) ∧
        .defaultMismatch "n" actual required ∈ violations ∧ actual ≠ required := by
  obtain ⟨hshapes, hbind, hparse⟩ := reported_types_differ
  have hodd : oddKeyShape.OneLine := .map (by simp) (by simpa using .integer)
  have hplain : (Shape.map [("a", .integer)]).OneLine := .map (by simp) (by simpa using .integer)
  have hknown : oddKeyShape.Known := .map (by simpa using .integer)
  have hwrong : Variables.bind oddKeyManifest [("n", plainKey)] =
      .error (.wrongType "n" plainKey.shapeText oddKey.shapeText) := rfl
  refine ⟨fun h => ?_, hwrong, ?_, ?_⟩
  · exact absurd (hshapes _ _ hodd hplain h) (by simp [oddKeyShape])
  · have hvars : ∀ entry ∈ [("n", plainKey)], entry.2.Sorted := by simpa [plainKey] using sorted_entry "a"
    have hmanifest : oddKeyManifest.Sorted := by
      simpa [Manifest.Sorted, oddKeyManifest, oddKey] using sorted_entry "a: b"
    obtain ⟨front, d, rest, value, hsplit, -, -, hvalue, -, -, hdiffer⟩ := hbind _ _ _ _ _ hvars hmanifest hwrong
    -- There is one declaration, so it is the one that is meant.
    obtain ⟨rfl, hd⟩ := List.append_eq_singleton_iff.mp hsplit.symm |>.resolve_right (by simp)
    obtain ⟨rfl, rfl⟩ := List.cons.inj hd
    cases hvalue
    refine hdiffer ?_ (oneLine_entry (by decide)) (oneLine_entry (by decide))
    rintro shape hshape
    cases hshape
    exact hknown
  · have hreported : (Manifest.parse wrongDefaultText ["v1"]).map (fun _ => ()) = .error (.violations
        [.missingRootField "name", .missingRootField "template_version", .missingRootField "manifest_version",
          .defaultMismatch "n" "integer" "string"]) := by decide +kernel
    obtain ⟨violations, hfault, hmem⟩ : ∃ violations, Manifest.parse wrongDefaultText ["v1"] =
        .error (.violations violations) ∧ .defaultMismatch "n" "integer" "string" ∈ violations := by
      cases hparsed : Manifest.parse wrongDefaultText ["v1"] with
      | ok => rw [hparsed] at hreported; cases hreported
      | error fault =>
          rw [hparsed] at hreported
          cases hreported
          exact ⟨_, rfl, by simp⟩
    obtain ⟨draft, d, sample, value, hdraft, hd, -, hsample, hvalue, -, -, hdiffer⟩ := hparse _ _ _ _ _ _ hfault hmem
    obtain ⟨⟨text, rfl⟩, n, rfl⟩ := wrongDefault_draft hdraft hd hsample hvalue
    refine ⟨violations, _, _, hfault, hmem, hdiffer ?_ (.text text) (.integer n)⟩
    rintro shape hshape
    cases hshape
    exact .text

end Stencil
