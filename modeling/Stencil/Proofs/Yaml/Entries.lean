import Stencil.Proofs.Yaml.Alone
import Stencil.Proofs.Yaml.Layout
import Stencil.Proofs.Yaml.Quoted

/-!
# The entries of a block

How a block of keys and scalars, one entry a line, is read: for each kind of entry, where the lexer
stands afterwards and which tokens it has added. Between entries the lexer rests before the next one
(`Lexer.Rests`), whatever blanks, empty lines and comments there are; a scalar behind a colon or a
hyphen leads from one such rest to the next, however it is written.
-/

namespace Stencil.Yaml

namespace Lexer

variable {lexer lexer' lexer'' : Lexer}

/-! ## Rounds -/

/-- Some rounds lead from one state to another, no more of them than characters are taken. -/
def Leads (lexer lexer' : Lexer) : Prop :=
  ∃ rounds, rounds + lexer'.cursor.rest.length ≤ lexer.cursor.rest.length ∧
    ∀ fuel, run? (fuel + rounds) lexer = run? fuel lexer'

theorem Leads.refl (lexer : Lexer) : lexer.Leads lexer := ⟨0, by omega, fun _ => rfl⟩

theorem Leads.trans (h : lexer.Leads lexer') (h' : lexer'.Leads lexer'') : lexer.Leads lexer'' := by
  obtain ⟨rounds, hle, hrun⟩ := h
  obtain ⟨rounds', hle', hrun'⟩ := h'
  refine ⟨rounds' + rounds, by omega, fun fuel => ?_⟩
  rw [← Nat.add_assoc, hrun, hrun']

theorem leads_of_round {ready : Lexer} {c : Char} (hready : lexer.ready? = some ready)
    (hpeek : ready.cursor.peek? = some c) (hnext : ready.next? c = some lexer')
    (hlength : lexer'.cursor.rest.length < lexer.cursor.rest.length) : lexer.Leads lexer' := by
  refine ⟨1, by omega, fun fuel => ?_⟩
  rw [run?_succ, hready]
  simp [hpeek, hnext]

/-! ## Between entries -/

/-- Blanks, line ends and comments are all that is in front of what is left, which stands in a column
where a key may start; the key that may have started before is forgotten. -/
structure Rests (lexer : Lexer) (rest : List Char) (column : Nat) (tokens : List Token) (indent : Int)
    (outer : List Int) : Prop where
  skipped : ∃ index line, (skipBlanks (lexer.cursor.rest.length + 1) lexer).forgetKeys? =
    some ⟨⟨rest, index, line, column⟩, tokens, [none], true, indent, outer⟩
  length_le : rest.length ≤ lexer.cursor.rest.length

section

variable {limit column column' : Nat} {rest rest' : List Char} {tokens : List Token}
  {keyStart : Option KeyStart} {index line : Nat} {allowed : Bool} {indent : Int} {outer : List Int}

/-- On a later line the start of a key is forgotten, if no key had to come. -/
theorem forgetKeys?_line {cursor : Cursor}
    (hkey : ∀ key, keyStart = some key → key.required = false ∧ key.cursor.line < cursor.line) :
    forgetKeys? ⟨cursor, tokens, [keyStart], allowed, indent, outer⟩ =
      some ⟨cursor, tokens, [none], allowed, indent, outer⟩ := by
  cases keyStart with
  | none => rfl
  | some key =>
    obtain ⟨hrequired, hline⟩ := hkey key rfl
    simp [forgetKeys?, hrequired, hline]

/-- At the start of a line or behind it. -/
theorem rests_of_settles (h : Settles limit column rest column' rest')
    (hkey : ∀ key, keyStart = some key → key.required = false ∧ key.cursor.line < line) :
    Rests ⟨⟨rest, index, line, column⟩, tokens, [keyStart], true, indent, outer⟩ rest' column' tokens
      indent outer := by
  obtain ⟨index', line', hline, heq⟩ := skipBlanks_settles h index line tokens keyStart
    indent outer (Nat.lt_succ_self rest.length)
  refine ⟨⟨index', line', ?_⟩, h.length_le⟩
  rw [heq]
  exact forgetKeys?_line fun key hk => ⟨(hkey key hk).1, by have := (hkey key hk).2; dsimp only; omega⟩

/-- At the end of a line. -/
theorem rests_of_lineEnd (h : Settles limit 0 rest column' rest')
    (hkey : ∀ key, keyStart = some key → key.required = false ∧ key.cursor.line ≤ line) :
    Rests ⟨⟨'\n' :: rest, index, line, column⟩, tokens, [keyStart], allowed, indent, outer⟩ rest'
      column' tokens indent outer := by
  have hskip : skipBlanks (('\n' :: rest).length + 1)
      ⟨⟨'\n' :: rest, index, line, column⟩, tokens, [keyStart], allowed, indent, outer⟩ =
      skipBlanks (rest.length + 1)
        ⟨⟨rest, index + 1, line + 1, 0⟩, tokens, [keyStart], true, indent, outer⟩ := by
    rw [skipBlanks]
    simp [Cursor.isAt, Cursor.peek?, Cursor.skipWhile, Cursor.span, Cursor.skip, inFlow,
      Cursor.lineEnd?, isBreak]
  obtain ⟨hskipped, hlength⟩ : Rests
      ⟨⟨rest, index + 1, line + 1, 0⟩, tokens, [keyStart], true, indent, outer⟩ rest' column' tokens indent
      outer :=
    rests_of_settles h fun key hk => ⟨(hkey key hk).1, by have := (hkey key hk).2; omega⟩
  refine ⟨?_, by simp only [List.length_cons] at hlength ⊢; omega⟩
  rw [hskip]
  exact hskipped

/-- Before a comment at the end of a line. -/
theorem rests_of_comment {text : List Char} (htext : ∀ c ∈ text, isBreakOrEnd (some c) = false)
    (h : Settles limit 0 rest column' rest') :
    Rests ⟨⟨'#' :: text ++ '\n' :: rest, index, line, column⟩, tokens, [none], allowed, indent, outer⟩
      rest' column' tokens indent outer := by
  have htake : (text ++ '\n' :: rest).takeWhile (fun c => !isBreakOrEnd (some c)) = text := by
    rw [List.takeWhile_append_of_pos (by simpa using htext)]
    simp [isBreakOrEnd, isBreak]
  have hhash : isBreakOrEnd (some '#') = false := rfl
  have hskip : skipBlanks (('#' :: text ++ '\n' :: rest).length + 1)
      ⟨⟨'#' :: text ++ '\n' :: rest, index, line, column⟩, tokens, [none], allowed, indent, outer⟩ =
      skipBlanks ('#' :: text ++ '\n' :: rest).length
        ⟨⟨rest, index + (text.length + 1) + 1, line + 1, 0⟩, tokens, [none], true, indent, outer⟩ := by
    rw [skipBlanks]
    simp [Cursor.isAt, Cursor.peek?, Cursor.skipWhile, Cursor.span, Cursor.skip, inFlow, htake, hhash,
      Cursor.lineEnd?, isBreak]
  obtain ⟨index', line', -, heq⟩ := skipBlanks_settles h (index + (text.length + 1) + 1)
    (line + 1) tokens none indent outer
    (show _ < ('#' :: text ++ '\n' :: rest).length by simp; omega)
  refine ⟨⟨index', line', ?_⟩, by have := h.length_le; simp; omega⟩
  rw [hskip, heq]
  rfl

end

/-! ## Blocks -/

/-- Blocks that are right of a column are closed. -/
def Closes (column : Nat) (tokens : List Token) (indent : Int) (outer : List Int)
    (tokens' : List Token) (indent' : Int) (outer' : List Int) : Prop :=
  ∀ cursor, closeBlocks column outer ⟨cursor, tokens, [none], true, indent, outer⟩ =
    ⟨cursor, tokens', [none], true, indent', outer'⟩

/-- A block goes on in its column, or starts in a column right of the one around it. -/
inductive Opens (start : Token) (column : Nat) :
    List Token → Int → List Int → List Token → List Int → Prop where
  | same {tokens : List Token} {outer : List Int} :
      Opens start column tokens column outer tokens outer
  | inner {tokens : List Token} {indent : Int} {outer : List Int} : indent < column →
      Opens start column tokens indent outer (start :: tokens) (indent :: outer)

theorem closeTo_of_le {column : Int} (h : lexer.indent ≤ column) : lexer.closeTo column = lexer := by
  unfold closeTo closeBlocks
  cases lexer.outerIndents <;> simp [h]

variable {rest : List Char} {column : Nat} {tokens tokens₁ tokens₂ : List Token} {indent indent₁ : Int}
  {outer outer₁ outer₂ : List Int}

theorem Rests.ready? (h : lexer.Rests rest column tokens indent outer)
    (hclose : Closes column tokens indent outer tokens₁ indent₁ outer₁) :
    ∃ index line, lexer.ready? =
      some ⟨⟨rest, index, line, column⟩, tokens₁, [none], true, indent₁, outer₁⟩ := by
  obtain ⟨index, line, heq⟩ := h.skipped
  refine ⟨index, line, ?_⟩
  rw [Lexer.ready?, heq]
  exact congrArg some (hclose _)

theorem next?_inside {c : Char} (h : lexer.cursor.column ≠ 0) :
    lexer.next? c = lexer.markOrScalar? c := by
  simp [next?, Cursor.isMarker, h]

/-! ## Keys -/

/-- The characters of the keys of a block. -/
def isKeyChar (c : Char) : Bool := ('a' ≤ c && c ≤ 'z') || c = '_'

/-- The keys of a block. -/
def IsKey (key : List Char) : Prop := key ≠ [] ∧ key.length ≤ 1024 ∧ ∀ c ∈ key, isKeyChar c = true

instance (key : List Char) : Decidable (IsKey key) :=
  decidable_of_iff (key ≠ [] ∧ key.length ≤ 1024 ∧ key.all isKeyChar = true)
    (by rw [IsKey, List.all_eq_true])

theorem isBlankOrEnd_of_isKeyChar {c : Char} (h : isKeyChar c = true) :
    isBlankOrEnd (some c) = false := by
  cases hend : isBlankOrEnd (some c) with
  | false => rfl
  | true =>
    have hor : c = ' ' ∨ c = '\t' ∨ c = '\r' ∨ c = '\n' ∨ c = '\u0085' ∨ c = '\u2028' ∨ c = '\u2029' ∨
        c = '\x00' := by
      simpa [isBlankOrEnd, isBlank, isBreak, or_assoc] using hend
    rcases hor with rfl | rfl | rfl | rfl | rfl | rfl | rfl | rfl <;> simp [isKeyChar] at h

/-- A key is read up to its colon. -/
theorem plainWord?_key {fuel : Nat} {acc key : List Char} {cursor : Cursor}
    (hkey : ∀ c ∈ key, isKeyChar c = true) (hrest : cursor.rest = key ++ ':' :: rest)
    (hend : isBlankOrEnd rest.head? = true) (hfuel : key.length < fuel) :
    plainWord? false fuel acc cursor = some (key.reverse ++ acc, cursor.skip key.length) := by
  induction key generalizing fuel acc cursor with
  | nil =>
    obtain ⟨fuel, rfl⟩ : ∃ n, fuel = n + 1 := ⟨fuel - 1, by omega⟩
    have hpeek : cursor.peek? = some ':' := by simp [Cursor.peek?, hrest]
    have hstops : stopsPlain false cursor = true := by
      simpa [stopsPlain, Cursor.isAt, hpeek, Cursor.peekAt?, hrest, List.head?_eq_getElem?] using hend
    simp [plainWord?, hpeek, isBlankOrEnd, isBlank, isBreak, isStrayColon, hstops, Cursor.skip]
  | cons c key ih =>
    obtain ⟨fuel, rfl⟩ : ∃ n, fuel = n + 1 := ⟨fuel - 1, by omega⟩
    simp only [List.mem_cons, forall_eq_or_imp] at hkey
    have hpeek : cursor.peek? = some c := by simp [Cursor.peek?, hrest]
    have hcolon : c ≠ ':' := by rintro rfl; exact absurd hkey.1 (by decide)
    have hstops : stopsPlain false cursor = false := by
      simp [stopsPlain, Cursor.isAt, hpeek, hcolon]
    have hskip : (cursor.skip 1).rest = key ++ ':' :: rest := by simp [Cursor.skip, hrest]
    simp [plainWord?, hpeek, isBlankOrEnd_of_isKeyChar hkey.1, isStrayColon, hstops,
      ih hkey.2 hskip (by simpa using hfuel), Cursor.skip_skip, Nat.add_comm]

theorem plainScalar?_key {key : List Char} {cursor : Cursor} (hkey : IsKey key)
    (hrest : cursor.rest = key ++ ':' :: rest) (hend : isBlankOrEnd rest.head? = true) :
    plainScalar? false indent cursor = some (String.ofList key, false, cursor.skip key.length) := by
  obtain ⟨hne, -, hall⟩ := hkey
  have hword : plainWord? false (cursor.rest.length + 1) [] cursor =
      some (key.reverse ++ [], cursor.skip key.length) :=
    plainWord?_key hall hrest hend (by rw [hrest, List.length_append]; omega)
  have hcolon : (cursor.skip key.length).peek? = some ':' := by
    rw [Cursor.peek?, Cursor.rest_skip hrest]
    rfl
  obtain ⟨c, key, rfl⟩ := List.exists_cons_of_ne_nil hne
  have hc := hall c (by simp)
  have hmarker : cursor.isDocumentMarker = false := by
    have hdash : c ≠ '-' := by rintro rfl; exact absurd hc (by decide)
    have hdot : c ≠ '.' := by rintro rfl; exact absurd hc (by decide)
    simp [Cursor.isDocumentMarker, Cursor.isMarker, hrest, hdash, hdot]
  have hhash : cursor.isAt '#' = false := by
    have : c ≠ '#' := by rintro rfl; exact absurd hc (by decide)
    simpa [Cursor.isAt, Cursor.peek?, hrest] using this
  have hword' : ((c :: key).reverse ++ []).isEmpty = false := by simp
  have hstop : (!(isBlank ':' || isBreak ':')) = true := rfl
  simp only [plainScalar?, plainWords?, hmarker, hhash, Bool.or_self, Bool.false_eq_true, if_false,
    hword, hword', hcolon, hstop, if_true, Option.map_some]
  rw [show Gap.fold {} = [] from rfl]
  simp only [List.append_nil, List.reverse_nil, List.reverse_reverse]

/-- Outside of flow notation a plain scalar starts with what is no mark, and with some marks if
something follows at once. -/
theorem markOrScalar?_plain {c : Char} (hpeek : lexer.cursor.peek? = some c)
    (hflow : lexer.inFlow = false) (hopen : isBlankOrEnd (some c) = false)
    (hmark : c ∈ indicators →
      (c = '-' ∨ c = '?' ∨ c = ':') ∧ isBlankOrEnd (lexer.cursor.peekAt? 1) = false) :
    lexer.markOrScalar? c = lexer.plain? := by
  have hindicators : "-?:,[]\x7b\x7d#&*!|>'\"%@\x60".toList = indicators := rfl
  have hstarts : lexer.startsPlain = true := by
    simp only [startsPlain, hpeek, hindicators, hopen, Bool.false_or, hflow, Bool.not_false,
      Bool.true_and]
    by_cases hc : c ∈ indicators
    · obtain ⟨hor, hnext⟩ := hmark hc
      rcases hor with rfl | rfl | rfl
      · cases hafter : lexer.cursor.peekAt? 1 with
        | none => simp [hafter, isBlankOrEnd] at hnext
        | some d =>
          simp only [hafter, isBlankOrEnd, Bool.or_eq_false_iff] at hnext
          simp [hnext.1.1]
      · simp [hnext]
      · simp [hnext]
    · simp [hc]
  have hliteral : c ≠ '|' := by
    rintro rfl
    simpa using (hmark (by decide)).1
  have hfolded : c ≠ '>' := by
    rintro rfl
    simpa using (hmark (by decide)).1
  have halone (hc : c ∈ indicators) : isBlankOrEnd (lexer.cursor.peekAt? 1) = false := (hmark hc).2
  unfold markOrScalar?
  split
  case h_11 =>
    have hentry : (c = '-' && isBlankOrEnd (lexer.cursor.peekAt? 1)) = false := by
      by_cases hc : c = '-'
      · simp [halone (by rw [hc]; decide)]
      · simp [hc]
    have hquestion : (c = '?' && isBlankOrEnd (lexer.cursor.peekAt? 1)) = false := by
      by_cases hc : c = '?'
      · simp [halone (by rw [hc]; decide)]
      · simp [hc]
    have hcolon : (c = ':' && isBlankOrEnd (lexer.cursor.peekAt? 1)) = false := by
      by_cases hc : c = ':'
      · simp [halone (by rw [hc]; decide)]
      · simp [hc]
    simp [hentry, hquestion, hcolon, hflow, hliteral, hfolded, hstarts]
  all_goals exact absurd (hmark (by decide)).1 (by decide)

/-- What a scalar that may be a key leaves behind: the place where it started. -/
def keyStart? (allowed : Bool) (cursor : Cursor) (tokens : List Token) (indent : Int) :
    Option KeyStart :=
  if allowed then some { required := indent = (cursor.column : Int), tokens := tokens.length, cursor }
  else none

theorem plain?_eq {cursor next : Cursor} {allowed lineEnded : Bool} {text : String}
    (h : plainScalar? false (indent + 1) cursor = some (text, lineEnded, next)) :
    plain? ⟨cursor, tokens, [none], allowed, indent, outer⟩ =
      some ⟨next, .scalar .plain text :: tokens, [keyStart? allowed cursor tokens indent], lineEnded,
        indent, outer⟩ := by
  cases allowed <;> simp [plain?, noteKey?, dropKey?, inFlow, h, keyStart?, node, push]

theorem quoted?_eq {cursor next : Cursor} {allowed : Bool} {text : String}
    (h : quotedScalar? false cursor = some (text, next)) :
    quoted? ⟨cursor, tokens, [none], allowed, indent, outer⟩ false =
      some ⟨next, .scalar .quoted text :: tokens, [keyStart? allowed cursor tokens indent], false,
        indent, outer⟩ := by
  cases allowed <;> simp [quoted?, noteKey?, dropKey?, inFlow, h, keyStart?, node, push]

/-- A colon makes a key of the scalar before it, in the block that goes on or starts where the scalar
does. -/
theorem value?_eq {cursor start : Cursor} {required : Bool} {scalar : Token}
    (hopen : Opens .blockMappingStart column tokens indent outer tokens₁ outer₁)
    (hcolumn : start.column = column) :
    value? ⟨cursor, scalar :: tokens, [some { required, tokens := tokens.length, cursor := start }],
        false, indent, outer⟩ =
      some ⟨cursor.skip 1, .value :: scalar :: .key :: tokens₁, [none], false, column, outer₁⟩ := by
  subst hcolumn
  cases hopen with
  | same => simp [value?, announceKey, openBlock, insertAt, inFlow, mark, push]
  | inner h =>
    have htwo : tokens.length + 1 + 1 - tokens.length = 2 := by omega
    simp [value?, announceKey, openBlock, insertAt, inFlow, mark, push, h, htwo]

/-- The colon behind a scalar on its line, near enough for the scalar to be remembered as a key. -/
theorem leads_colon {cursor start : Cursor} {required : Bool} {scalar : Token}
    (hrest : cursor.rest = ':' :: rest) (hend : isBlankOrEnd rest.head? = true)
    (hcolumn : cursor.column ≠ 0) (hle : indent ≤ (cursor.column : Int))
    (hline : start.line = cursor.line) (hnear : cursor.index ≤ start.index + 1024)
    (hopen : Opens .blockMappingStart start.column tokens indent outer tokens₁ outer₁) :
    Leads ⟨cursor, scalar :: tokens, [some { required, tokens := tokens.length, cursor := start }],
        false, indent, outer⟩
      ⟨cursor.skip 1, .value :: scalar :: .key :: tokens₁, [none], false, start.column, outer₁⟩ := by
  obtain ⟨chars, index, line, column⟩ := cursor
  obtain rfl : chars = ':' :: rest := hrest
  have hskip : skipBlanks ((':' :: rest).length + 1) ⟨⟨':' :: rest, index, line, column⟩,
      scalar :: tokens, [some { required, tokens := tokens.length, cursor := start }], false, indent,
      outer⟩ = ⟨⟨':' :: rest, index, line, column⟩, scalar :: tokens,
      [some { required, tokens := tokens.length, cursor := start }], false, indent, outer⟩ := by
    simp [skipBlanks, Cursor.isAt, Cursor.peek?, Cursor.skipWhile, Cursor.span, Cursor.skip, inFlow,
      Cursor.lineEnd?, isBreak]
  have hkept : ¬ (start.line < line ∨ start.index + 1024 < index) := by
    dsimp only at hline hnear
    omega
  have hready : Lexer.ready? ⟨⟨':' :: rest, index, line, column⟩, scalar :: tokens,
      [some { required, tokens := tokens.length, cursor := start }], false, indent, outer⟩ =
      some ⟨⟨':' :: rest, index, line, column⟩, scalar :: tokens,
        [some { required, tokens := tokens.length, cursor := start }], false, indent, outer⟩ := by
    rw [Lexer.ready?]
    simp only [hskip]
    simp [forgetKeys?, hkept]
    exact closeTo_of_le hle
  have hstands : isBlankOrEnd rest[0]? = true := by
    rw [← List.head?_eq_getElem?]
    exact hend
  have hmark (lexer : Lexer) (hrest : lexer.cursor.rest = ':' :: rest) :
      lexer.markOrScalar? ':' = lexer.value? := by
    simp [markOrScalar?, Cursor.peekAt?, hrest, hstands]
  exact leads_of_round hready rfl
    ((next?_inside hcolumn).trans ((hmark _ rfl).trans (value?_eq hopen rfl))) (by simp [Cursor.skip])

/-- A key with its colon, in the block that goes on or starts in its column. -/
theorem Rests.key {key : List Char} (h : lexer.Rests (key ++ ':' :: rest) column tokens indent outer)
    (hkey : IsKey key) (hend : isBlankOrEnd rest.head? = true)
    (hclose : Closes column tokens indent outer tokens₁ indent₁ outer₁)
    (hopen : Opens .blockMappingStart column tokens₁ indent₁ outer₁ tokens₂ outer₂) :
    ∃ index line column', column < column' ∧ lexer.Leads
      ⟨⟨rest, index, line, column'⟩,
        .value :: .scalar .plain (String.ofList key) :: .key :: tokens₂, [none], false, column,
        outer₂⟩ := by
  obtain ⟨index, line, hready⟩ := h.ready? hclose
  have hread : plainScalar? false (indent₁ + 1) ⟨key ++ ':' :: rest, index, line, column⟩ =
      some (String.ofList key, false, _) := plainScalar?_key hkey rfl hend
  obtain ⟨hne, hlength, hall⟩ := hkey
  have hle : indent₁ ≤ (column : Int) := by
    cases hopen with
    | same => exact Int.le_refl _
    | inner h => omega
  obtain ⟨c, word, rfl⟩ := List.exists_cons_of_ne_nil hne
  have hc := hall c (by simp)
  have hnone : indicators.all (fun d => !isKeyChar d) = true := by decide
  have hmark : c ∉ indicators := fun hmem => by simpa [hc] using List.all_eq_true.mp hnone c hmem
  -- The key is read as a plain scalar, up to its colon.
  have hscalar : lexer.Leads ⟨⟨':' :: rest, index + (c :: word).length, line,
      column + (c :: word).length⟩, .scalar .plain (String.ofList (c :: word)) :: tokens₁,
      [keyStart? true ⟨c :: word ++ ':' :: rest, index, line, column⟩ tokens₁ indent₁], false, indent₁,
      outer₁⟩ := by
    refine leads_of_round hready rfl ?_ (by have := h.length_le; simp at this ⊢; omega)
    have hpercent : c ≠ '%' := by rintro rfl; exact absurd hc (by decide)
    have hdash : c ≠ '-' := by rintro rfl; exact absurd hc (by decide)
    have hdot : c ≠ '.' := by rintro rfl; exact absurd hc (by decide)
    simp only [next?, hpercent, decide_false, Bool.and_false, Bool.false_eq_true, if_false]
    rw [if_neg (by simp [Cursor.isMarker, hdash]), if_neg (by simp [Cursor.isMarker, hdot]),
      markOrScalar?_plain rfl rfl (isBlankOrEnd_of_isKeyChar hc) fun hmem => absurd hmem hmark,
      plain?_eq hread]
    simp [Cursor.skip]
  refine ⟨_, _, _, ?_, hscalar.trans (leads_colon rfl hend ?_ ?_ rfl ?_ hopen)⟩
  all_goals simp at hlength ⊢
  all_goals omega

/-! ## Scalars -/

variable {limit column' index line : Nat} {rest' : List Char} {allowed : Bool}

/-- A blank is passed over before what it sets apart. -/
theorem ready?_blank {c : Char} (hopen : isBlankOrEnd (some c) = false) (hhash : c ≠ '#')
    (hindent : indent ≤ (column : Int)) :
    Lexer.ready? ⟨⟨' ' :: c :: rest, index, line, column⟩, tokens, [none], allowed, indent, outer⟩ =
      some ⟨⟨c :: rest, index + 1, line, column + 1⟩, tokens, [none], allowed, indent, outer⟩ := by
  simp only [isBlankOrEnd, Bool.or_eq_false_iff] at hopen
  have hblank : c ≠ ' ' := by rintro rfl; simp [isBlank] at hopen
  have htab : c ≠ '\t' := by rintro rfl; simp [isBlank] at hopen
  have hpeek : (Cursor.mk (c :: rest) (index + 1) line (column + 1)).peek? = some c := rfl
  have hline := Cursor.lineEnd?_eq_none hpeek hopen.1.2
  have hskip : skipBlanks ((' ' :: c :: rest).length + 1)
      ⟨⟨' ' :: c :: rest, index, line, column⟩, tokens, [none], allowed, indent, outer⟩ =
      ⟨⟨c :: rest, index + 1, line, column + 1⟩, tokens, [none], allowed, indent, outer⟩ := by
    simp [skipBlanks, Cursor.isAt, Cursor.peek?, Cursor.skipWhile, Cursor.span, Cursor.skip, inFlow,
      hblank, htab, hhash, hline]
  rw [Lexer.ready?]
  simp only [hskip]
  exact congrArg some (closeTo_of_le (show indent ≤ ((column + 1 : Nat) : Int) by omega))

/-- No key has to come where a scalar starts right of its block. -/
theorem keyStart?_inside {key : KeyStart} {cursor : Cursor} (hindent : indent < (cursor.column : Int))
    (h : keyStart? allowed cursor tokens indent = some key) :
    key.required = false ∧ key.cursor = cursor := by
  unfold keyStart? at h
  split at h
  · cases h
    exact ⟨by simp; omega, rfl⟩
  · cases h

/-- A line that is a plain scalar, behind a colon or a hyphen: what comes behind it decides where it
ends. -/
theorem leads_plainScalar {chars tail : List Char} {lineEnded : Bool} {next : Cursor}
    (hchars : isPlainLine chars = true) (htail : isBlankOrEnd tail.head? = true)
    (hlimit : limit ≤ column) (hlength : next.rest.length ≤ tail.length)
    (hrest : ∀ left, tail.length ≤ left → plainRest? ((limit : Int) + 1) left chars.reverse
      ⟨tail, index + 1 + chars.length, line, column + 1 + chars.length⟩ =
        some (chars.reverse, lineEnded, next)) :
    Leads ⟨⟨' ' :: chars ++ tail, index, line, column⟩, tokens, [none], allowed, limit, outer⟩
      ⟨next, .scalar .plain (String.ofList chars) :: tokens,
        [keyStart? allowed ⟨chars ++ tail, index + 1, line, column + 1⟩ tokens limit], lineEnded, limit,
        outer⟩ := by
  obtain ⟨left, hleft, hread⟩ := plainScalar?_line hchars
    (show (Cursor.mk (chars ++ tail) (index + 1) line (column + 1)).rest = chars ++ tail from rfl) htail
    (by simp) (show (limit : Int) + 1 ≤ ((column + 1 : Nat) : Int) by omega)
  have hskip : (Cursor.mk (chars ++ tail) (index + 1) line (column + 1)).skip chars.length =
      ⟨tail, index + 1 + chars.length, line, column + 1 + chars.length⟩ := by
    simp [Cursor.skip]
  rw [hskip, hrest left hleft, Option.map_some] at hread
  dsimp only at hread
  rw [List.reverse_reverse] at hread
  have hopens := (Bool.and_eq_true_iff.1 hchars).1
  obtain ⟨c, word, rfl, hopen, hhash⟩ := exists_of_opensPlain hopens
  have hmark : c ∈ indicators → (c = '-' ∨ c = '?' ∨ c = ':') ∧
      isBlankOrEnd ((c :: word ++ tail)[1]?) = false := by
    intro hmem
    simp only [opensPlain, hopen, Bool.not_false, Bool.true_and, List.contains_iff_mem.2 hmem,
      Bool.not_true, Bool.false_or, Bool.and_eq_true, Bool.or_eq_true, decide_eq_true_eq,
      Bool.not_eq_true'] at hopens
    refine ⟨by tauto, ?_⟩
    -- Something follows the mark, so what comes behind the scalar is not looked at.
    cases word with
    | nil => simp [isBlankOrEnd] at hopens
    | cons d word => exact hopens.2
  refine leads_of_round (ready?_blank hopen hhash (by omega)) rfl ?_ (by simp; omega)
  rw [next?_inside (by simp)]
  have hscalar (lexer : Lexer) (hrest : lexer.cursor.rest = c :: word ++ tail)
      (hflow : lexer.inFlow = false) : lexer.markOrScalar? c = lexer.plain? :=
    markOrScalar?_plain (by simp [Cursor.peek?, hrest]) hflow hopen fun hmem => by
      simpa only [Cursor.peekAt?, hrest] using hmark hmem
  exact (hscalar _ rfl rfl).trans (plain?_eq hread)

/-- A line that is a plain scalar, up to the end of the line. -/
theorem leads_plain {chars : List Char} (hchars : isPlainLine chars = true) (hlimit : limit ≤ column)
    (h : Settles limit 0 rest column' rest') :
    ∃ lexer', Leads
        ⟨⟨' ' :: chars ++ '\n' :: rest, index, line, column⟩, tokens, [none], allowed, limit, outer⟩
        lexer' ∧
      lexer'.Rests rest' column' (.scalar .plain (String.ofList chars) :: tokens) limit outer := by
  obtain ⟨next, hrest, hline, hlength, hsettles⟩ := plainRest?_lineEnd
    (show (Cursor.mk ('\n' :: rest) (index + 1 + chars.length) line (column + 1 + chars.length)).rest =
      '\n' :: rest from rfl) h
  refine ⟨_, leads_plainScalar hchars rfl hlimit (Nat.le_of_lt hlength) fun left _ => hrest left _, ?_⟩
  obtain ⟨rest₁, index₁, line₁, column₁⟩ := next
  refine rests_of_settles hsettles fun key hkey => ?_
  obtain ⟨hrequired, hcursor⟩ := keyStart?_inside (by dsimp only; omega) hkey
  exact ⟨hrequired, by rw [hcursor]; exact hline⟩

/-- A line that is a plain scalar, up to a comment behind it. -/
theorem leads_plain_comment {chars text : List Char} (hchars : isPlainLine chars = true)
    (hlimit : limit ≤ column) (htext : ∀ c ∈ text, isBreakOrEnd (some c) = false)
    (h : Settles limit 0 rest column' rest') :
    ∃ lexer', Leads ⟨⟨' ' :: chars ++ ' ' :: '#' :: text ++ '\n' :: rest, index, line, column⟩, tokens,
        [none], false, limit, outer⟩ lexer' ∧
      lexer'.Rests rest' column' (.scalar .plain (String.ofList chars) :: tokens) limit outer := by
  have hsplit : ' ' :: chars ++ ' ' :: '#' :: text ++ '\n' :: rest =
      ' ' :: chars ++ ' ' :: ('#' :: text ++ '\n' :: rest) := by simp
  rw [hsplit]
  refine ⟨_, leads_plainScalar hchars rfl hlimit ?_ fun left hleft =>
    plainRest?_comment rfl (Nat.lt_of_lt_of_le (by simp) hleft), rests_of_comment htext h⟩
  simp [Cursor.skip]

/-- A quoted text, up to the end of the line. -/
theorem leads_quoted {text : String} (htext : ∀ c ∈ text.toList, isQuotable c = true)
    (hlimit : limit ≤ column) (h : Settles limit 0 rest column' rest') :
    ∃ lexer', Leads ⟨⟨' ' :: (Json.quote text).toList ++ '\n' :: rest, index, line, column⟩, tokens,
        [none], allowed, limit, outer⟩ lexer' ∧
      lexer'.Rests rest' column' (.scalar .quoted text :: tokens) limit outer := by
  have hread := quotedScalar?_quote htext
    (show (Cursor.mk ((Json.quote text).toList ++ '\n' :: rest) (index + 1) line (column + 1)).rest =
      (Json.quote text).toList ++ '\n' :: rest from rfl)
  have hquote : (Json.quote text).toList = '"' :: (text.toList.flatMap Json.escapeChar ++ ['"']) := by
    simp [Json.quote]
  have hskip : (Cursor.mk ((Json.quote text).toList ++ '\n' :: rest) (index + 1) line (column + 1)).skip
      (Json.quote text).toList.length = ⟨'\n' :: rest, index + 1 + (Json.quote text).toList.length, line,
        column + 1 + (Json.quote text).toList.length⟩ := by
    simp [Cursor.skip]
  rw [hskip] at hread
  generalize (Json.quote text).toList.length = n at hread
  rw [hquote] at hread ⊢
  have hmark (lexer : Lexer) : lexer.markOrScalar? '"' = lexer.quoted? false := rfl
  refine ⟨_, leads_of_round (ready?_blank rfl (by decide) (by omega)) rfl
    ((next?_inside (by simp)).trans ((hmark _).trans (quoted?_eq hread))) (by simp; omega),
    rests_of_lineEnd h fun key hkey => ?_⟩
  obtain ⟨hrequired, hcursor⟩ := keyStart?_inside (by dsimp only; omega) hkey
  exact ⟨hrequired, by rw [hcursor]⟩

/-! ## Sequences -/

theorem blockEntry?_eq {cursor : Cursor}
    (hopen : Opens .blockSequenceStart cursor.column tokens indent outer tokens₁ outer₁) :
    blockEntry? ⟨cursor, tokens, [none], true, indent, outer⟩ =
      some ⟨cursor.skip 1, .blockEntry :: tokens₁, [none], true, cursor.column, outer₁⟩ := by
  cases hopen with
  | same => simp [ blockEntry?, openBlock, dropKey?, inFlow, mark, push]
  | inner h => simp [ blockEntry?, openBlock, insertAt, dropKey?, inFlow, mark, push, h]

/-- The hyphen of an item, in the sequence that goes on or starts in its column. -/
theorem Rests.item (h : lexer.Rests ('-' :: ' ' :: rest) column tokens indent outer)
    (hcolumn : column ≠ 0) (hclose : Closes column tokens indent outer tokens₁ indent₁ outer₁)
    (hopen : Opens .blockSequenceStart column tokens₁ indent₁ outer₁ tokens₂ outer₂) :
    ∃ index line, lexer.Leads ⟨⟨' ' :: rest, index, line, column + 1⟩, .blockEntry :: tokens₂, [none],
      true, column, outer₂⟩ := by
  obtain ⟨index, line, hready⟩ := h.ready? hclose
  refine ⟨index + 1, line, leads_of_round hready rfl ?_ ?_⟩
  · rw [next?_inside hcolumn]
    have hmark (lexer : Lexer) (hrest : lexer.cursor.rest = '-' :: ' ' :: rest) :
        lexer.markOrScalar? '-' = lexer.blockEntry? := by
      simp [markOrScalar?, Cursor.peekAt?, hrest, isBlankOrEnd, isBlank]
    exact (hmark _ rfl).trans (blockEntry?_eq hopen)
  · have := h.length_le
    simp only [List.length_cons] at this ⊢
    omega

/-- The end of the text closes all blocks. -/
theorem Rests.finish (h : lexer.Rests [] column tokens indent outer)
    (hclose : Closes column tokens indent outer tokens₁ indent₁ outer₁)
    (hclose' : ∀ cursor, closeBlocks (-1) outer₁ ⟨cursor, tokens₁, [none], true, indent₁, outer₁⟩ =
      ⟨cursor, tokens₂, [none], true, -1, outer₂⟩) (fuel : Nat) :
    ∃ lexer', run? (fuel + 1) lexer = some lexer' ∧ lexer'.tokens = .streamEnd :: tokens₂ := by
  obtain ⟨index, line, hready⟩ := h.ready? hclose
  refine ⟨⟨⟨[], index, line, column⟩, .streamEnd :: tokens₂, [none], true, -1, outer₂⟩, ?_, rfl⟩
  rw [run?_succ, hready]
  simp [Cursor.peek?, finish?, closeTo, hclose', dropKey?, push]

/-- The tokens of a text that leads to its end. -/
theorem Leads.ofString? {text : String} {c : Char} {chars : List Char} (htext : text.toList = c :: chars)
    (hmark : c ≠ '\ufeff') (hallowed : text.toList.all isAllowed = true)
    (h : (start text.toList).Leads lexer) (hrests : lexer.Rests [] column tokens indent outer)
    (hclose : Closes column tokens indent outer tokens₁ indent₁ outer₁)
    (hclose' : ∀ cursor, closeBlocks (-1) outer₁ ⟨cursor, tokens₁, [none], true, indent₁, outer₁⟩ =
      ⟨cursor, tokens₂, [none], true, -1, outer₂⟩) :
    Token.ofString? text = some ((Token.streamEnd :: tokens₂).reverse) := by
  obtain ⟨rounds, hle, hrun⟩ := h
  have hfuel : text.toList.length + 2 = text.toList.length - rounds + 1 + 1 + rounds := by
    dsimp only [start] at hle
    omega
  obtain ⟨lexer', hfinish, htokens⟩ := hrests.finish hclose hclose' (text.toList.length - rounds + 1)
  rw [← hrun, ← hfuel] at hfinish
  simp only [Token.ofString?, hallowed, if_true]
  split
  next heq => exact absurd (List.cons.inj (htext.symm.trans heq)).1 hmark
  next => rw [hfinish, Option.map_some, htokens]

end Lexer

end Stencil.Yaml
