import Stencil.Path
import Stencil.Template.Evaluation
import Stencil.Template.Grammar.Statement
import Stencil.Text.Printable

/-!
# Scopes

A template may be allowed to write files. Then they must lie within a root, and their paths are taken from
the directory of the file for which the template is rendered. The scope is in the data of the template, so
that every template and macro that is reached from there has the same one.
-/

namespace Stencil.Template

/-- Where a template may write files. -/
inductive Scope where
  | nowhere
  /-- Below a root, with paths that are taken from a directory. -/
  | within (root directory : Path)
  deriving DecidableEq, Inhabited

namespace Scope

/-- What a scope is shown as. -/
def label : Scope → String
  | nowhere => "FileWriter \x7b scope: ReadOnly \x7d"
  | within root directory =>
    "FileWriter \x7b scope: Writable \x7b root: " ++ Text.debug root.render ++ ", directory: " ++
      Text.debug directory.render ++ " \x7d \x7d"

end Scope

/-- The data of a template: its variables, and its scope, which no variable can take the place of. -/
def Datum.ofContext (scope : Scope) (context : Value) : Datum :=
  let vars := match context with
    | .map entries => Datum.ofEntries entries
    | _ => []
  .ofPairs (vars ++ [(.ofString writerName, .writer scope.label)])

/-- How deep evaluations may be nested. -/
def maxDepth : Nat := 10000

/-- Everything that the text of a template does. -/
def rendering (name text : String) (context : Value) (scope : Scope) : Rendering String :=
  match Document.ofString name text with
  | .ok document => document.rendering maxDepth (Datum.ofContext scope context)
  | .error fault => .fail fault

/-- What becomes of a template that can reach no other template and no file. -/
def renderAlone (text : String) (context : Value) : Rendering.Outcome String :=
  (rendering "template" text context .nowhere).alone

end Stencil.Template
