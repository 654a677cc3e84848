/-!
# Records

A second notation for values, in which failures are reported: a name, and fields between
braces, or arguments between parentheses.
-/

namespace JumpHooks
namespace Text

/-- A name with named fields. -/
def record (name : String) (fields : List (String × String)) : String :=
  let items := fields.map fun (key, value) => key ++ ": " ++ value
  name ++ " \x7b " ++ ", ".intercalate items ++ " \x7d"

/-- A name with one argument. -/
def tagged (name argument : String) : String :=
  name ++ "(" ++ argument ++ ")"

def listing (items : List String) : String :=
  "[" ++ ", ".intercalate items ++ "]"

end Text
end JumpHooks
