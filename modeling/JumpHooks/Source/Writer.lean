/-!
# Writing source text

Source text is described by items: lines at the current indentation, lines at the margin,
and lines that open and close blocks. A writer carries the items out one after the other and
stops at a line that is too long; what was written before stays.
-/

namespace JumpHooks
namespace Source

inductive Item where
  /-- A line at the current indentation. An empty line is not indented. -/
  | line (text : String)
  /-- A line at the margin, whatever the indentation. -/
  | margin (text : String)
  /-- A line after which everything is indented further. -/
  | opening (text : String)
  /-- A line that ends what the last opening line began. -/
  | closing (text : String)
  /-- Something that has no text. -/
  | missing (what : String)
deriving DecidableEq, Repr

/-- Why source text could not be written. -/
inductive Fault where
  | tooLong (line : String)
  | missing (what : String)
  | noMarker (marker : String)
deriving DecidableEq, Repr

def Fault.text : Fault → String
  | tooLong line => "Too long line: \"" ++ line ++ "\""
  | missing what => what
  | noMarker marker => "marker \"" ++ marker ++ "\" not found"

/-- The longest line, in characters. A tab is one character. -/
def lineLimit : Nat := 120

structure Writer where
  level : Nat
  lines : Array String
deriving DecidableEq, Repr

namespace Writer

def empty : Writer :=
  ⟨0, #[]⟩

def indent : String := "\t"

def indented (level : Nat) (text : String) : String :=
  if text.isEmpty then "" else String.join (List.replicate level indent) ++ text

def push (w : Writer) (line : String) : Except Fault Writer :=
  if lineLimit < line.length then
    .error (.tooLong line)
  else
    .ok { w with lines := w.lines.push line }

/-- Carries out one item. Also when the line is too long, a closing item has moved back to
the indentation outside the block; the writer is returned as the item leaves it. -/
def step (w : Writer) : Item → Writer × Option Fault
  | .line text =>
      match w.push (indented w.level text) with
      | .ok w => (w, none)
      | .error e => (w, some e)
  | .margin text =>
      match w.push text with
      | .ok w => (w, none)
      | .error e => (w, some e)
  | .opening text =>
      match w.push (indented w.level text) with
      | .ok w => ({ w with level := w.level + 1 }, none)
      | .error e => (w, some e)
  | .closing text =>
      let outer := { w with level := w.level - 1 }
      match outer.push (indented outer.level text) with
      | .ok w => (w, none)
      | .error e => (outer, some e)
  | .missing what => (w, some (.missing what))

/-- Carries out items up to the first that fails. -/
def write (w : Writer) : List Item → Writer × Option Fault
  | [] => (w, none)
  | item :: items =>
      match w.step item with
      | (w, none) => w.write items
      | (w, some e) => (w, some e)

end Writer
end Source
end JumpHooks
