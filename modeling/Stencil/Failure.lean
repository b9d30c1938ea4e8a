import Stencil.Files.Fault
import Stencil.Ignore
import Stencil.Manifest.Check
import Stencil.Template.Fault
import Stencil.Variables

/-!
# Failures

Why something that the user asked for was not done, and what the user is told.
-/

namespace Stencil

/-- How a command of a template ended, if not well. -/
inductive HookFault where
  /-- There is no directory to run it in. -/
  | notStarted (fault : Files.Fault)
  /-- There is a character in it, or in the path of the directory, that no program can be told. -/
  | untellable
  | exited (code : Nat)
  | killed (signal : Nat) (name : String)
  deriving DecidableEq, Inhabited

/-- Why something was not done. -/
inductive Failure where
  | manifest (fault : Manifest.Fault)
  | userVariables (fault : Variables.Fault)
  | binding (fault : Binding.Fault)
  | template (fault : Template.Fault)
  /-- Templates were nested deeper than allowed. -/
  | exhausted
  /-- A template asks for a file outside of its scope. -/
  | outside (path : String)
  /-- A template asks for a file where the output is printed. -/
  | filesInTerminal (path : String)
  | files (fault : Files.Fault)
  /-- A directory cannot be walked. -/
  | walk (path : String) (fault : Files.Fault)
  | pattern (fault : PatternFault)
  /-- A repository cannot be fetched. -/
  | repository
  | hook (line : String) (fault : HookFault)
  /-- There is nobody to answer a question. -/
  | unanswered
  | manifestMissing (file directory : String)
  | alreadyThere (directory : String)
  deriving DecidableEq, Inhabited

namespace Failure

/-- What is said about a command of a template that did not end well. -/
def hookMessage (line : String) : HookFault → String
  | .notStarted fault => "could not run '" ++ line ++ "': " ++ fault.message
  | .untellable => "could not run '" ++ line ++ "': nul byte found in provided data"
  | .exited code => "'" ++ line ++ "' failed with status: exit status: " ++ toString code
  | .killed signal name =>
    "'" ++ line ++ "' failed with status: signal: " ++ toString signal ++ " (" ++ name ++ ")"

/-- What the user is told. -/
def message : Failure → String
  | manifest fault => fault.message
  | userVariables fault => fault.message
  | binding fault => fault.message
  | template fault => fault.message
  | exhausted => "Template error: templates are nested too deep."
  | outside path =>
    "Cannot create file outside the scope of the template directory: '" ++ path ++ "'."
  | filesInTerminal path =>
    "File '" ++ path ++ "' uses 'toFile', which is not supported when printing to the terminal."
  | files fault => "IO error: " ++ fault.message ++ "."
  | walk path fault =>
    "Directory traversal error: IO error for operation on " ++ path ++ ": " ++ fault.message ++ "."
  | pattern fault => fault.message
  | repository => "Git error: the repository cannot be fetched."
  | hook line fault => "Post-clone command error: " ++ hookMessage line fault ++ "."
  | unanswered => "Prompt error: there is nobody to answer."
  | manifestMissing file directory =>
    "Could not find the '" ++ file ++ "' metadata file: directory '" ++ directory ++
      "' is not a Cloney template repository."
  | alreadyThere directory => "Directory '" ++ directory ++ "' already exists."

end Failure

end Stencil
