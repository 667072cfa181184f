/-!
# Record texts

The text of a record: its name, and between braces its fields, each with its
value. A record that keeps further fields back ends with two dots.
-/

namespace Windowing.Text

/-- The opening brace. -/
def openBrace : String := "\x7b"

/-- The closing brace. -/
def closeBrace : String := "\x7d"

/-- One field of a record text. -/
def field (name value : String) : String := name ++ ": " ++ value

/-- The text of a record whose fields are all shown. -/
def closedRecord (name : String) (fields : List String) : String :=
  name ++ " " ++ openBrace ++ " " ++ ", ".intercalate fields ++ " " ++ closeBrace

/-- The text of a record that keeps further fields back. -/
def openRecord (name : String) (fields : List String) : String :=
  closedRecord name (fields ++ [".."])

/-- The text of a named case with one value. -/
def tagged (name value : String) : String := name ++ "(" ++ value ++ ")"

end Windowing.Text
