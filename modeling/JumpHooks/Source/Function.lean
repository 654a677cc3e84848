import JumpHooks.Patch.Draft
import JumpHooks.Source.Writer
import JumpHooks.Text.Lines

/-!
# Patch functions as source text

A patch function declares the hook as an array of bytes for each instruction set, stores the
handler's address in it, and then switches on the build to the statements that write the
hook over the function of that build.
-/

namespace JumpHooks
namespace Source

/-- A declaration is broken when a line and the next parameter together take more bytes. The
rest of a line is kept for what is put between and behind parameters. -/
def declarationLimit : Nat := lineLimit - 3

/-- The lines of a function's head when `line` has been begun. Only before the very first
parameter there is nothing to separate. -/
def headLines (line : String) (first : Bool) : List String → List Item
  | [] => [.line (line ++ ")")]
  | p :: params =>
      if declarationLimit < line.utf8ByteSize + p.utf8ByteSize then
        let ended := if first then line else line ++ ","
        .line ended :: headLines (Writer.indent ++ p) false params
      else
        let separated := if first then line else line ++ ", "
        headLines (separated ++ p) false params

/-- The head of a function and the opening of its body. -/
def functionHead (result name : String) (params : List String) : List Item :=
  headLines (result ++ " " ++ name ++ "(") true params ++ [.opening "\x7b"]

/-- The lines of a comment without a blank last one. -/
def commentLines (comment : String) : List String :=
  let lines := Text.lines comment
  match lines.getLast? with
  | some last => if last.toList.all Text.isBlank then lines.dropLast else lines
  | none => []

def docComment (comment : String) : List Item :=
  .line "/**" ::
    (commentLines comment).map (fun l =>
      .line (String.ofList (Text.trimRight (" * ".toList ++ Text.trimLeft l.toList)))) ++
    [.line " */"]

def branchItems (b : Branch) : List Item :=
  b.builds.map (fun build => .line s!"case {build}:") ++
    .opening "\x7b" ::
      b.statements.map Item.line ++ [.line "break;", .closing "\x7d"]

def switchCases (branches : List Branch) : List Item :=
  branches.flatMap branchItems

def byteText (b : UInt8) : String :=
  "0x" ++ Text.padded 2 (Text.hex b.toNat) ++ ", "

/-- The characters that one byte takes in an array. -/
def byteColumns : Nat := 6

/-- One instruction of an array: its bytes, room up to the longest instruction, and its text
as a comment. -/
def encodedLine (bitness : Bitness) (longest : Nat) (e : Encoded) : String :=
  String.join (e.code.map byteText) ++
    String.ofList (List.replicate ((longest - e.code.length) * byteColumns) ' ') ++
    " // " ++ e.instruction.text .comment bitness

def byteArray (s : HookStub) (name : String) : List Item :=
  let longest := (s.body.map fun e => e.code.length).foldl max 0
  .opening ("unsigned char " ++ name ++ "[] = \x7b") ::
    s.body.map (fun e => .line (encodedLine s.bitness longest e)) ++ [.closing "\x7d;"]

def hookItems (p : Patch) (b : Bitness) : List Item :=
  match p.hook? b with
  | none => [.missing s!"{p.functionName}: no {b.text} hook"]
  | some s => byteArray s "code" ++ [.line "", .line s.copyStatement]

/-- Both parts of a text that depends on the instruction set. -/
def byBitness (wide narrow : List Item) : List Item :=
  .margin "#ifdef BUILD_64BIT" :: wide ++ .margin "#else" :: narrow ++ [.margin "#endif"]

def hooksItems (p : Patch) : List Item :=
  if p.hooks.isEmpty then
    []
  else
    byBitness (hookItems p .x64) (hookItems p .x86) ++ [.line ""]

def switchItems (p : Patch) : List Item :=
  [.line "switch (gameBuild)", .opening "\x7b"] ++
    byBitness (switchCases p.x64) (switchCases p.x86) ++ [.closing "\x7d"]

/-- The whole function of a patch. -/
def patchItems (p : Patch) : List Item :=
  .line "" :: docComment p.doc ++ functionHead "void" p.functionName p.params ++
    hooksItems p ++ switchItems p ++ [.closing "\x7d"]

end Source
end JumpHooks
