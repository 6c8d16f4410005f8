/-!
# Layout of Structured Values

One-line texts of records, applied names and sequences, the way the machine
and its parts describe themselves to a debugger.

A record is `Name { field: text, field: text }`; a record that leaves fields
out ends in two dots. An applied name is `Name(text, text)`, and a sequence is
`[text, text]`.

## Main definitions

* `record`: A name and its fields between braces.
* `openRecord`: The same, saying that some fields are not shown.
* `applied`: A name and its arguments between round brackets.
* `sequence`: Texts between square brackets.
-/

namespace Transport

namespace Layout

/-- Texts separated by a comma and a blank. -/
def commas (items : List String) : String := ", ".intercalate items

/-- Each field as its name, a colon and its text. -/
def fieldTexts (fields : List (String × String)) : List String :=
  fields.map fun field => field.1 ++ ": " ++ field.2

/-- A name and its fields between braces. -/
def record (name : String) (fields : List (String × String)) : String :=
  name ++ " \x7b " ++ commas (fieldTexts fields) ++ " \x7d"

/-- A record that says by two dots that it does not show all fields. -/
def openRecord (name : String) (fields : List (String × String)) : String :=
  name ++ " \x7b " ++ commas (fieldTexts fields ++ [".."]) ++ " \x7d"

/-- A name and its arguments between round brackets. -/
def applied (name : String) (arguments : List String) : String :=
  name ++ "(" ++ commas arguments ++ ")"

/-- Texts between square brackets. -/
def sequence (items : List String) : String := "[" ++ commas items ++ "]"

/-- A truth value as a word. -/
def truth : Bool → String
  | true => "true"
  | false => "false"

/-- A value that may be missing: `Some(text)` or `None`. -/
def optional : Option String → String
  | some text => applied "Some" [text]
  | none => "None"

end Layout

end Transport
