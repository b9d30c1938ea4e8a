import Stencil.Starter.Basic
import Stencil.Text.Split

/-!
# Questions about a new template

What was not said about a new template is asked for, one thing after the other. How the answers are come
by is left to the asker: they may be typed, or be given beforehand (`Script`).
-/

namespace Stencil

/-- A question, and the answer that is meant by an empty one. -/
structure Question where
  text : String
  otherwise : String
  deriving DecidableEq, Inhabited

namespace Starter

/-- A text that is asked for if it is empty. -/
def askedIfEmpty {m : Type → Type} [Monad m] (ask : Question → m String) (text : String)
    (question : Question) : m String :=
  if text.isEmpty then ask question else pure text

/-- The authors in a text with commas between them. -/
def authorsOf (text : String) : List String :=
  ((Text.splitOn ',' text.toList).map fun piece => Text.trim (String.ofList piece)).filter
    fun author => !author.isEmpty

/-- A starter with what is empty asked for. -/
def completed {m : Type → Type} [Monad m] (ask : Question → m String) (settings : Settings)
    (starter : Starter) : m Starter := do
  let name ← askedIfEmpty ask starter.name
    ⟨"What is the name of the template repository", settings.projectName⟩
  let description ← askedIfEmpty ask starter.description
    ⟨"What is the description of the template repository", settings.defaultDescription⟩
  let license ← askedIfEmpty ask starter.license
    ⟨"What is the license of the template repository", settings.defaultLicense⟩
  let authors ← if starter.authors.isEmpty then
      authorsOf <$> ask
        ⟨"What are the authors of the template repository (separated by commas)", ""⟩
    else pure starter.authors
  pure { starter with name, description, license, authors }

end Starter

/-- Answers that are given beforehand, and the questions that were asked, the last one first. -/
structure Script where
  answers : List String
  asked : List Question := []
  deriving DecidableEq, Inhabited

/-- Answers a question with the next answer; one that is empty or missing means the default. -/
def Script.answer (question : Question) : StateM Script String := do
  let script ← get
  set { answers := script.answers.drop 1, asked := question :: script.asked : Script }
  let given := script.answers.head?.getD ""
  pure (if given.isEmpty then question.otherwise else given)

/-- A starter that is completed with answers that were given beforehand, and the questions asked. -/
def Starter.completedFrom (answers : List String) (settings : Settings) (starter : Starter) :
    Starter × List Question :=
  let (starter, script) := (starter.completed Script.answer settings).run { answers }
  (starter, script.asked.reverse)

/-- Who said everything is asked nothing. -/
theorem Starter.completed_of_complete {m : Type → Type} [Monad m] [LawfulMonad m]
    (ask : Question → m String) (settings : Settings) (starter : Starter)
    (hname : starter.name.isEmpty = false) (hdescription : starter.description.isEmpty = false)
    (hlicense : starter.license.isEmpty = false) (hauthors : starter.authors.isEmpty = false) :
    starter.completed ask settings = pure starter := by
  simp [Starter.completed, Starter.askedIfEmpty, hname, hdescription, hlicense, hauthors]

end Stencil
