import SourceAtlas.Command.Arguments

/-!
# Usage

The text that tells how the command line is used, made from its options.

Models the usage line of the parser that `_build_parser` makes.
-/

namespace SourceAtlas.Command

def programName : String := "source-atlas"

/-- How an option is written. -/
def OptionForm.shown (o : OptionForm) : String :=
  let value := if o.value.isSome then " " ++ o.key.toUpper else ""
  "[" ++ " | ".intercalate o.names ++ value ++ "]"

/-- How the place behind the options is written. -/
def Arity.shown : Arity → String
  | .one => "ARGUMENT"
  | .atMostOne => "[ARGUMENT]"
  | .rest => "COMMAND ..."

def Form.shown (f : Form) : String :=
  " ".intercalate ((helpOption :: f.options).map OptionForm.shown ++
    (f.place.map Arity.shown).toList)

/-- The usage of the program and of each of its commands, one to a line. -/
def usage : String :=
  let line (name : String) (f : Form) : String := "usage: " ++ name ++ " " ++ f.shown ++ "\n"
  String.join (line programName requestForm :: taskForms.map fun (name, f) =>
    line (programName ++ " " ++ name) f)

end SourceAtlas.Command
