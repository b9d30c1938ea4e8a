import Stencil.FileCalls
import Stencil.Proofs.Template.Lexer

/-!
# Texts that cannot ask for files

The search for calls is textual, so it finds something that is no call, as in a literal. But a call that it
finds has the name of the function in it, and what it looks through are parts of the text. A text that does
not mention the function is never taken for one that asks for files.
-/

namespace Stencil

namespace FileCalls

theorem cutAtPair?_prefix {a b : Char} {chars before after : List Char}
    (h : cutAtPair? a b chars = some (before, after)) : before <+: chars ∧ after <:+ chars := by
  induction chars generalizing before after with
  | nil => cases h
  | cons c rest ih =>
      cases rest with
      | nil => cases h
      | cons d rest =>
          rw [cutAtPair?] at h
          split at h
          · obtain ⟨rfl, rfl⟩ := Prod.mk.inj (Option.some.inj h)
            exact ⟨List.nil_prefix, (List.suffix_cons _ _).trans (List.suffix_cons _ _)⟩
          · obtain ⟨⟨front, behind⟩, hcut, heq⟩ := Option.map_eq_some_iff.mp h
            obtain ⟨rfl, rfl⟩ := Prod.mk.inj heq
            obtain ⟨hfront, hbehind⟩ := ih hcut
            exact ⟨List.cons_prefix_cons.mpr ⟨rfl, hfront⟩, hbehind.trans (List.suffix_cons _ _)⟩

/-- The inside of a block is a part of the text. -/
theorem mem_blocks {fuel : Nat} {chars inside : List Char} (h : inside ∈ blocks fuel chars) :
    inside <:+: chars := by
  induction fuel generalizing chars with
  | zero => cases h
  | succ fuel ih =>
      cases chars with
      | nil => cases h
      | cons c rest =>
          unfold blocks at h
          dsimp only at h
          split at h
          · rename_i front after hcut
            obtain ⟨close, _, hcut⟩ := Option.bind_eq_some_iff.mp hcut
            obtain ⟨hfront, hafter⟩ := cutAtPair?_prefix hcut
            have hrest : rest.drop 1 <:+ c :: rest := (List.drop_suffix _ _).trans (List.suffix_cons _ _)
            rcases List.mem_cons.mp h with rfl | h
            · exact hfront.isInfix.trans hrest.isInfix
            · exact (ih h).trans (hafter.isInfix.trans hrest.isInfix)
          · exact (ih h).trans (List.suffix_cons _ _).isInfix

/-- Where a call starts its name is. -/
theorem name_of_hasCall {inWord : Bool} {chars : List Char} (h : hasCall inWord chars = true) :
    name <:+: chars := by
  induction chars generalizing inWord with
  | nil => cases h
  | cons c rest ih =>
      rw [hasCall, Bool.or_eq_true] at h
      rcases h with h | h
      · simp only [Bool.and_eq_true] at h
        exact (List.isPrefixOf_iff_prefix.mp h.1.2).isInfix
      · exact (ih h).trans (List.suffix_cons _ _).isInfix

end FileCalls

/-- A text that does not mention the function does not ask for files. -/
theorem asksForFiles_eq_false {text : String} (h : ¬ Template.Mentions text "toFile") :
    asksForFiles text = false := by
  rw [Bool.eq_false_iff]
  intro hasks
  obtain ⟨inside, hinside, hcall⟩ := List.any_eq_true.mp hasks
  exact h ((FileCalls.name_of_hasCall hcall).trans (FileCalls.mem_blocks hinside))

end Stencil
