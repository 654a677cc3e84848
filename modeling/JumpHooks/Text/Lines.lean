/-!
# Lines

A line ends at a line feed, together with one carriage return in front of it. The text
after the last line feed is a line of its own unless it is empty, and keeps a carriage
return at its end.
-/

namespace JumpHooks
namespace Text

/-- A finished line, given its characters last to first. -/
def finishedLine : List Char → String
  | '\r' :: cs => String.ofList cs.reverse
  | cs => String.ofList cs.reverse

/-- The lines of `cs` when the characters of `current`, last to first, stand before it. -/
def linesFrom (current : List Char) : List Char → List String
  | [] => if current.isEmpty then [] else [String.ofList current.reverse]
  | c :: cs =>
      if c = '\n' then
        finishedLine current :: linesFrom [] cs
      else
        linesFrom (c :: current) cs

def lines (s : String) : List String :=
  linesFrom [] s.toList

end Text
end JumpHooks
