import Stencil.Manifest.Basic
import Stencil.Text.Blank
import Stencil.Yaml.Writer

/-!
# A manifest for reading

What is shown of a template: its general data, then a block for each variable with its type, its
default if it has one, and its example. A value of several lines starts on a line of its own.
-/

namespace Stencil

/-- A value for reading: a scalar in its plain form, a collection as YAML, nothing for `null`. -/
def Value.display : Value → String
  | .null => ""
  | .bool b => if b then "true" else "false"
  | .integer n => Json.integerText n
  | .decimal x => Json.decimalLayout.render x
  | .text s => s
  | value => Yaml.render value

/-- A label with a value: on one line, or with the value's lines below. -/
def labelled (label value : String) : String :=
  if value.toList.contains '\n' then
    label ++ ":\n" ++ String.ofList (Text.trimRight value.toList) ++ "\n"
  else label ++ ": " ++ value ++ "\n"

/-- The block of a variable. -/
def Declaration.summary (d : Declaration) : String :=
  "Variable " ++ d.name ++ " (" ++ (if d.isRequired then "Required" else "Optional") ++ ")\n\n"
    ++ "Variable Description: " ++ d.description ++ "\n"
    ++ labelled "Variable Type" d.sample.shapeText
    ++ (match d.default? with
      | some value => labelled "Default Value" value.display
      | none => "")
    ++ labelled "Example Value" d.sample.display

namespace Manifest

/-- The general data of a template. -/
def generalSummary (manifest : Manifest) : String :=
  "General Information\n\n"
    ++ "Template Name: " ++ manifest.name ++ "\n"
    ++ "Template Description: " ++ manifest.description ++ "\n"
    ++ "Template Version: " ++ manifest.templateVersion ++ "\n"
    ++ "Template License: " ++ manifest.license ++ "\n"
    ++ "Template Author(s): " ++ ", ".intercalate manifest.authors ++ "\n"

/-- The blocks of the variables, an empty line between two. -/
def variablesSummary (manifest : Manifest) : String :=
  "\n".intercalate (manifest.declarations.map Declaration.summary)

/-- All that is shown of a template. -/
def summary (manifest : Manifest) : String :=
  manifest.generalSummary ++ "\n" ++ manifest.variablesSummary

end Manifest

end Stencil
