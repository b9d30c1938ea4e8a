import Stencil.Proofs.Template.Grammar

/-!
# The names in the text of a template

Every name that a template looks up is a part of its text: what is read is taken off the front, so what is
left is the end of the text all the time, and a name is a piece of that. So a template whose text does not
mention a name never looks it up.
-/

namespace Stencil.Template

/-- Whether a text has a word in it, be it as part of another word. -/
def Mentions (text word : String) : Prop := word.toList <:+: text.toList

instance (text word : String) : Decidable (Mentions text word) :=
  inferInstanceAs (Decidable (word.toList <:+: text.toList))

namespace Lexer

/-! ## What is left is the end -/

theorem takeSign_suffix (chars : List Char) : (takeSign chars).2 <:+ chars := by
  unfold takeSign
  split
  · exact List.suffix_cons _ _
  · exact List.suffix_cons _ _
  · exact List.suffix_refl _

theorem skipSpaces_suffix (chars : List Char) : skipSpaces chars <:+ chars := List.dropWhile_suffix _

theorem takeWord_suffix {word chars rest : List Char} (h : takeWord word chars = some rest) :
    rest <:+ chars := by
  unfold takeWord at h
  split at h
  · exact Option.some.inj h ▸ List.drop_suffix _ _
  · cases h

theorem cutAtOpening_suffix {chars rest : List Char} {opening : Opening}
    (h : (cutAtOpening chars).2 = some (opening, rest)) : rest <:+ chars := by
  fun_induction cutAtOpening chars with
  | case1 rest' | case2 rest' | case3 rest' =>
      obtain ⟨_, rfl⟩ := Prod.mk.inj (Option.some.inj h)
      exact (List.suffix_cons _ _).trans (List.suffix_cons _ _)
  | case4 c chars _ _ _ lead found heq ih =>
      rw [heq] at ih
      exact (ih h).trans (List.suffix_cons _ _)
  | case5 => cases h

theorem cutAtPair_suffix {a b : Char} {chars before rest : List Char}
    (h : cutAtPair a b chars = some (before, rest)) : rest <:+ chars := by
  fun_induction cutAtPair a b chars generalizing before with
  | case1 c d chars _ =>
      obtain ⟨_, rfl⟩ := Prod.mk.inj (Option.some.inj h)
      exact (List.suffix_cons _ _).trans (List.suffix_cons _ _)
  | case2 c d chars _ ih =>
      obtain ⟨⟨inner, rest'⟩, hinner, heq⟩ := Option.map_eq_some_iff.mp h
      obtain ⟨_, rfl⟩ := Prod.mk.inj heq
      exact (ih hinner).trans (List.suffix_cons _ _)
  | case3 => cases h

theorem takeTag_suffix {word : String} {chars rest : List Char} {trim : Trim}
    (h : takeTag word chars = some (trim, rest)) : rest <:+ chars := by
  obtain ⟨behind, hword, h⟩ := Option.bind_eq_some_iff.mp h
  obtain ⟨last, hclose, h⟩ := Option.bind_eq_some_iff.mp h
  obtain ⟨_, rfl⟩ := Prod.mk.inj (Option.some.inj h)
  have hbehind := (takeWord_suffix hword).trans (skipSpaces_suffix chars)
  have hsign := (takeSign_suffix (skipSpaces behind)).trans (skipSpaces_suffix behind)
  exact ((takeWord_suffix hclose).trans hsign).trans hbehind

theorem takeRaw_suffix {chars raw rest : List Char} {before behind : Trim}
    (h : takeRaw chars = some (raw, before, behind, rest)) : rest <:+ chars := by
  fun_induction takeRaw chars generalizing raw with
  | case1 chars before' inner hsign behind' rest' htag =>
      obtain ⟨rfl, rfl, rfl, rfl⟩ := by simpa using h
      have hinner : inner <:+ chars := by simpa [hsign] using takeSign_suffix chars
      exact (((takeTag_suffix htag).trans hinner).trans (List.suffix_cons _ _)).trans (List.suffix_cons _ _)
  | case2 chars _ _ _ _ ih =>
      obtain ⟨⟨raw', more⟩, hraw, heq⟩ := Option.map_eq_some_iff.mp h
      obtain ⟨_, rfl⟩ := Prod.mk.inj heq
      exact ((ih hraw).trans (List.suffix_cons _ _)).trans (List.suffix_cons _ _)
  | case3 c chars _ ih =>
      obtain ⟨⟨raw', more⟩, hraw, heq⟩ := Option.map_eq_some_iff.mp h
      obtain ⟨_, rfl⟩ := Prod.mk.inj heq
      exact (ih hraw).trans (List.suffix_cons _ _)
  | case4 => cases h

theorem closing?_suffix {close chars rest : List Char} {trim : Trim}
    (h : closing? close chars = some (trim, rest)) : rest <:+ chars := by
  obtain ⟨rest', hword, heq⟩ := Option.map_eq_some_iff.mp h
  obtain ⟨_, rfl⟩ := Prod.mk.inj heq
  exact (takeWord_suffix hword).trans (takeSign_suffix chars)

/-! ## Tokens -/

theorem takeNumber_suffix (place : NumberPlace) (chars : List Char) :
    (takeNumber place chars).2.2 <:+ chars := by
  fun_induction takeNumber place chars with
  | case1 => exact List.suffix_refl _
  | case2 place c chars _ next _ number last rest heq ih =>
      rw [heq] at ih
      exact ih.trans (List.suffix_cons _ _)
  | case3 => exact List.suffix_refl _

/-- Whether something else than a name was read, and what is left is the end of the characters. -/
def NoName (chars : List Char) (result : Except Cause (Token × List Char)) : Prop :=
  Yields (fun read => read.2 <:+ chars ∧ ∀ text, read.1 ≠ .name text) result

theorem NoName.of_suffix {inner chars : List Char} {result : Except Cause (Token × List Char)}
    (h : NoName inner result) (hsuffix : inner <:+ chars) : NoName chars result :=
  h.mono fun _ hread => ⟨hread.1.trans hsuffix, hread.2⟩

theorem integerToken_noName {base : Nat} {digits : List Char} {rest chars : List Char}
    (h : rest <:+ chars) :
    NoName chars ((integerToken base digits).map fun token => (token, rest)) := by
  have htoken : Yields (fun token => ∀ text, token ≠ .name text) (integerToken base digits) := by
    unfold integerToken
    split
    · split
      · simp
      · trivial
    · trivial
  exact htoken.map fun token htoken => ⟨h, htoken⟩

theorem basedNumber_noName (base : Nat) (chars : List Char) : NoName chars (basedNumber base chars) := by
  unfold basedNumber
  dsimp only
  split
  · trivial
  · exact integerToken_noName (List.dropWhile_suffix _)

theorem number_noName (chars : List Char) : NoName chars (number chars) := by
  have hbased : ∀ (base : Nat) (a b : Char) (rest : List Char),
      NoName (a :: b :: rest) (basedNumber base rest) := fun base a b rest =>
    (basedNumber_noName base rest).of_suffix ((List.suffix_cons _ _).trans (List.suffix_cons _ _))
  unfold number
  split
  · exact hbased 16 _ _ _
  · exact hbased 16 _ _ _
  · exact hbased 8 _ _ _
  · exact hbased 8 _ _ _
  · exact hbased 2 _ _ _
  · exact hbased 2 _ _ _
  · have hrest := takeNumber_suffix .whole chars
    dsimp only
    split
    · trivial
    · split
      · exact integerToken_noName hrest
      · split
        · exact ⟨hrest, fun text h => by cases h⟩
        · trivial

theorem takeQuoted_suffix {quote : Char} {chars inner rest : List Char}
    (h : takeQuoted quote chars = some (inner, rest)) : rest <:+ chars := by
  fun_induction takeQuoted quote chars generalizing inner with
  | case1 => cases h
  | case2 c chars ih =>
      obtain ⟨⟨inner', rest'⟩, hinner, heq⟩ := Option.map_eq_some_iff.mp h
      obtain ⟨_, rfl⟩ := Prod.mk.inj heq
      exact ((ih hinner).trans (List.suffix_cons _ _)).trans (List.suffix_cons _ _)
  | case3 chars =>
      obtain ⟨_, rfl⟩ := Prod.mk.inj (Option.some.inj h)
      exact List.suffix_cons _ _
  | case4 c chars _ _ ih =>
      obtain ⟨⟨inner', rest'⟩, hinner, heq⟩ := Option.map_eq_some_iff.mp h
      obtain ⟨_, rfl⟩ := Prod.mk.inj heq
      exact (ih hinner).trans (List.suffix_cons _ _)

theorem quoted_noName (quote : Char) (chars : List Char) : NoName chars (quoted quote chars) := by
  unfold quoted
  split
  · trivial
  · rename_i hquoted
    split
    · exact ⟨takeQuoted_suffix hquoted, fun text h => by cases h⟩
    · trivial

/-- A name begins the characters that it is read from. -/
theorem inner_yields (chars : List Char) :
    Yields (fun read => read.2 <:+ chars ∧ ∀ text, read.1 = .name text → text.toList <+: chars)
      (inner chars) := by
  have hother : ∀ {result}, NoName chars result → Yields (fun read : Token × List Char =>
      read.2 <:+ chars ∧ ∀ text, read.1 = .name text → text.toList <+: chars) result := fun h =>
    h.mono fun read hread => ⟨hread.1, fun text heq => absurd heq (hread.2 text)⟩
  unfold inner
  split
  · trivial
  · rename_i c rest
    split
    · exact hother ⟨List.drop_suffix _ _, fun text h => by cases h⟩
    split
    · exact hother ((quoted_noName c rest).of_suffix (List.suffix_cons _ _))
    split
    · exact hother ⟨List.suffix_cons _ _, fun text h => by cases h⟩
    split
    · exact hother (number_noName _)
    split
    · refine ⟨List.dropWhile_suffix _, fun text h => ?_⟩
      obtain rfl := Token.name.inj h
      rw [String.toList_ofList]
      exact List.takeWhile_prefix _
    · trivial

/-! ## Whole texts -/

/-- Whether all names among tokens are parts of characters. -/
def NamesIn (chars : List Char) (tokens : Tokens) : Prop :=
  ∀ text, .name text ∈ tokens.tokens → text.toList <:+: chars

namespace NamesIn

variable {chars inner : List Char} {tokens : Tokens}

theorem none {cause? : Option Cause} : NamesIn chars { tokens := [], cause? } :=
  fun _ h => absurd h (by simp)

theorem of_suffix (h : NamesIn inner tokens) (hsuffix : inner <:+ chars) : NamesIn chars tokens :=
  fun text htext => (h text htext).trans hsuffix.isInfix

theorem emit {token : Token} (htoken : ∀ text, token = .name text → text.toList <:+: chars)
    (h : NamesIn chars tokens) : NamesIn chars (emit token tokens) := by
  intro text htext
  rcases List.mem_cons.mp htext with heq | htext
  · exact htoken text heq.symm
  · exact h text htext

theorem emitData {lead : List Char} (h : NamesIn chars tokens) :
    NamesIn chars (emitData lead tokens) := by
  unfold Lexer.emitData
  split
  · exact h
  · exact h.emit fun _ heq => by cases heq

end NamesIn

/-- Every name among the tokens of a text is a part of it. -/
theorem scan_namesIn (fuel : Nat) (place : Place) (chars : List Char) :
    NamesIn chars (scan fuel place chars) := by
  induction fuel generalizing place chars with
  | zero => exact .none
  | succ fuel ih =>
      cases place with
      | outside trim =>
          have hchars : (if trim = .drop then Text.trimLeft chars else chars) <:+ chars := by
            split
            · exact List.dropWhile_suffix _
            · exact List.suffix_refl _
          unfold scan
          refine NamesIn.of_suffix ?_ hchars
          generalize (if trim = .drop then Text.trimLeft chars else chars) = chars
          dsimp only
          split
          · exact NamesIn.none.emitData
          · rename_i lead opening rest hcut
            have hrest : rest <:+ chars := cutAtOpening_suffix (congrArg Prod.snd hcut)
            have hinside : (takeSign rest).2 <:+ chars := (takeSign_suffix rest).trans hrest
            refine NamesIn.emitData ?_
            generalize (takeSign rest).2 = inside at hinside
            cases opening with
            | expression => exact ((ih _ _).of_suffix hinside).emit fun _ heq => by cases heq
            | comment =>
                dsimp only
                split
                · rename_i hcomment
                  exact (ih _ _).of_suffix ((cutAtPair_suffix hcomment).trans hinside)
                · exact .none
            | statement =>
                dsimp only
                split
                · rename_i front rest htag
                  split
                  · rename_i hraw
                    refine NamesIn.emitData ((ih _ _).of_suffix ?_)
                    exact ((takeRaw_suffix hraw).trans (takeTag_suffix htag)).trans hinside
                  · exact .none
                · exact ((ih _ _).of_suffix hinside).emit fun _ heq => by cases heq
      | inside expression brackets =>
          unfold scan
          refine NamesIn.of_suffix ?_ (skipSpaces_suffix chars)
          generalize skipSpaces chars = chars
          split
          · exact .none
          dsimp only
          split
          · rename_i hclosing
            split at hclosing
            · exact ((ih _ _).of_suffix (closing?_suffix hclosing)).emit fun _ heq => by
                split at heq <;> cases heq
            · cases hclosing
          · split
            · rename_i token rest hinner
              have hread := (inner_yields chars).of_ok hinner
              exact ((ih _ _).of_suffix hread.1).emit fun text heq => (hread.2 text heq).isInfix
            · exact .none

end Lexer

/-- **A template looks up no name that its text does not mention.** -/
theorem Document.ofString_keeps {named : String → Prop} {name text : String} {document : Document}
    (h : Document.ofString name text = .ok document) (hnamed : ∀ word, Mentions text word → named word) :
    document.Keeps named := by
  have hstart : Cursor.Keeps named
      { rest := (Tokens.ofString text).tokens, cause? := (Tokens.ofString text).cause? } := by
    intro token htoken word hword
    exact hnamed word (Lexer.scan_namesIn _ _ _ word (hword ▸ htoken))
  have hbody := (Grammar.StatementsRead.all (4 * (Tokens.ofString text).tokens.length + 1000)).statements
    {} [] _ hstart
  unfold Document.ofString at h
  dsimp only at h
  split at h
  · rename_i body cursor hrun
    obtain rfl := Except.ok.inj h
    exact (hbody.of_ok hrun).1
  · cases h

end Stencil.Template
