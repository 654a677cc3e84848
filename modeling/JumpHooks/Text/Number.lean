/-!
# Number text

Hexadecimal digits in both cases and padding with leading zeros. Every number that leaves
the library in a base other than ten is written with these functions.
-/

namespace JumpHooks
namespace Text

def hex (n : Nat) : String :=
  String.ofList (Nat.toDigits 16 n)

def upperHex (n : Nat) : String :=
  String.ofList ((Nat.toDigits 16 n).map Char.toUpper)

/-- At least `width` characters, filled up with zeros on the left. -/
def padded (width : Nat) (digits : String) : String :=
  String.ofList (List.replicate (width - digits.length) '0') ++ digits

end Text
end JumpHooks
