import JumpHooks.Builds

/-!
# Arguments of the command line

Arguments are read from left to right, and the first one that is wrong, or that asks for the
version or for help, decides. No argument may be given twice.
-/

namespace JumpHooks
namespace Command

/-- What a run is asked to do. -/
structure Arguments where
  /-- The root of the tree of modules. -/
  root : String
  selection : Selection
  /-- The file whose generated part is replaced; without it the result is printed. -/
  output : Option String
  /-- The only subsystem to generate patches for. -/
  subsystem : Option String
  /-- Whether to print the references of every loaded module. -/
  references : Bool
  verbose : Bool
deriving DecidableEq, Repr

inductive Request where
  | run (arguments : Arguments)
  | version
  | help
  | wrong
deriving DecidableEq, Repr

/-- Arguments with a value of their own. -/
inductive Setting where
  | root
  | output
  | subsystem
deriving DecidableEq, Repr

/-- Arguments that stand for themselves. -/
inductive Flag where
  | full
  | references
  | verbose
  | version
  | help
deriving DecidableEq, Repr

namespace Setting

def ofName? : String → Option Setting
  | "dlls" => some root
  | "output" => some output
  | "subsystem" => some subsystem
  | _ => none

/-- Paths may not be empty. -/
def accepts (s : Setting) (value : String) : Bool :=
  s == subsystem || !value.isEmpty

end Setting

namespace Flag

def ofName? : String → Option Flag
  | "full" => some full
  | "dump-xrefs" => some references
  | "verbose" => some verbose
  | "version" => some version
  | "help" => some help
  | _ => none

def ofLetter? : Char → Option Flag
  | 'v' => some verbose
  | 'V' => some version
  | 'h' => some help
  | _ => none

end Flag

/-- The arguments read so far. -/
structure Given where
  settings : List (Setting × String)
  flags : List Flag

namespace Given

def none : Given :=
  ⟨[], []⟩

def set (g : Given) (s : Setting) (value : String) : Option Given :=
  if s.accepts value && !(g.settings.any fun x => x.1 == s) then
    some { g with settings := (s, value) :: g.settings }
  else
    Option.none

def value? (g : Given) (s : Setting) : Option String :=
  g.settings.lookup s

/-- Reads a flag: what it asks for at once, or the arguments with the flag added. -/
def flag (g : Given) (f : Flag) : Except Request Given :=
  match f with
  | .version => .error .version
  | .help => .error .help
  | f => if g.flags.contains f then .error .wrong else .ok { g with flags := f :: g.flags }

/-- Reads flags that are written as letters behind one dash. -/
def letters (g : Given) : List Char → Except Request Given
  | [] => .ok g
  | c :: cs =>
      match Flag.ofLetter? c with
      | Option.none => .error .wrong
      | some f => do
          let g ← g.flag f
          g.letters cs

/-- What is asked for when all arguments have been read. The root may also be given by the
environment, and has a default. -/
def request (environment : Option String) (g : Given) : Request :=
  let root := (g.value? .root).getD (environment.getD "DLLs")
  if root.isEmpty then
    .wrong
  else
    .run {
      root := root
      selection := if g.flags.contains .full then .full else .quick
      output := g.value? .output
      subsystem := g.value? .subsystem
      references := g.flags.contains .references
      verbose := g.flags.contains .verbose }

end Given

/-- An argument by its shape. -/
inductive Shape where
  | long (name : String) (value : Option String)
  | short (letters : List Char)
  | rest
  | word

/-- The name and the value of an argument with an equals sign. -/
def splitValue (cs : List Char) : String × Option String :=
  let name := cs.takeWhile (· != '=')
  match cs.dropWhile (· != '=') with
  | [] => (String.ofList name, none)
  | _ :: value => (String.ofList name, some (String.ofList value))

def shapeOf (argument : String) : Shape :=
  match argument.toList with
  | ['-', '-'] => .rest
  | '-' :: '-' :: cs => let (name, value) := splitValue cs; .long name value
  | ['-'] => .word
  | '-' :: cs => .short cs
  | _ => .word

/-- Reads arguments. When a setting waits for its value, only a word can follow. -/
def read (environment : Option String) (g : Given) :
    (waiting : Option Setting) → List String → Request
  | none, [] => g.request environment
  | some _, [] => .wrong
  | some s, a :: arguments =>
      match shapeOf a, g.set s a with
      | .word, some g => read environment g none arguments
      | _, _ => .wrong
  | none, a :: arguments =>
      match shapeOf a with
      | .word => .wrong
      | .rest => if arguments.isEmpty then g.request environment else .wrong
      | .short letters =>
          match g.letters letters with
          | .error r => r
          | .ok g => read environment g none arguments
      | .long name value =>
          match Setting.ofName? name, Flag.ofName? name, value with
          | some s, _, none => read environment g (some s) arguments
          | some s, _, some v =>
              match g.set s v with
              | none => .wrong
              | some g => read environment g none arguments
          | none, some f, none =>
              match g.flag f with
              | .error r => r
              | .ok g => read environment g none arguments
          | none, _, _ => .wrong

/-- What the arguments ask for. -/
def request (environment : Option String) (arguments : List String) : Request :=
  read environment .none none arguments

end Command
end JumpHooks
