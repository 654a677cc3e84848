import JumpHooks.Text.Blank
import JumpHooks.Text.Number
import JumpHooks.Text.Shapeless

/-!
# Quoted texts

A text between quotes. What could not be read off the page is spelled out: controls, blanks
other than the space, and characters that have no shape of their own.
-/

namespace JumpHooks
namespace Text

def isControl (c : Char) : Bool :=
  c.toNat < 0x20 || (0x7F ≤ c.toNat && c.toNat < 0xA0)

def isSpelledOut (c : Char) : Bool :=
  isControl c || (isBlank c && c != ' ') || isShapeless c

/-- The number of a character in place of the character. -/
def spelledOut (c : Char) : String :=
  "\\u\x7b" ++ hex c.toNat ++ "\x7d"

def escaped : Char → List Char
  | '"' => ['\\', '"']
  | '\\' => ['\\', '\\']
  | '\n' => ['\\', 'n']
  | '\r' => ['\\', 'r']
  | '\t' => ['\\', 't']
  | '\x00' => ['\\', '0']
  | c => if isSpelledOut c then (spelledOut c).toList else [c]

/-- A text between quotes. -/
def quoted (s : String) : String :=
  "\"" ++ String.ofList (s.toList.flatMap escaped) ++ "\""

end Text
end JumpHooks
