/-!
# Subsystems

The modules that a game is made of. They are ordered as listed, and each is a file named
after the subsystem.
-/

namespace JumpHooks

inductive Subsystem where
  | engine3D
  | aiSystem
  | action
  | animation
  | entitySystem
  | font
  | game
  | input
  | movie
  | network
  | physics
  | renderD3D10
  | renderD3D9
  | renderNull
  | scriptSystem
  | soundSystem
  | system
deriving DecidableEq, Repr

namespace Subsystem

def all : List Subsystem :=
  [.engine3D, .aiSystem, .action, .animation, .entitySystem, .font, .game, .input, .movie,
    .network, .physics, .renderD3D10, .renderD3D9, .renderNull, .scriptSystem,
    .soundSystem, .system]

def name : Subsystem → String
  | engine3D => "Cry3DEngine"
  | aiSystem => "CryAISystem"
  | action => "CryAction"
  | animation => "CryAnimation"
  | entitySystem => "CryEntitySystem"
  | font => "CryFont"
  | game => "CryGame"
  | input => "CryInput"
  | movie => "CryMovie"
  | network => "CryNetwork"
  | physics => "CryPhysics"
  | renderD3D10 => "CryRenderD3D10"
  | renderD3D9 => "CryRenderD3D9"
  | renderNull => "CryRenderNULL"
  | scriptSystem => "CryScriptSystem"
  | soundSystem => "CrySoundSystem"
  | system => "CrySystem"

/-- The position in the list of all subsystems. -/
def rank : Subsystem → Nat
  | engine3D => 0
  | aiSystem => 1
  | action => 2
  | animation => 3
  | entitySystem => 4
  | font => 5
  | game => 6
  | input => 7
  | movie => 8
  | network => 9
  | physics => 10
  | renderD3D10 => 11
  | renderD3D9 => 12
  | renderNull => 13
  | scriptSystem => 14
  | soundSystem => 15
  | system => 16

def fileName (s : Subsystem) : String :=
  s.name ++ ".dll"

/-- `s` without the file name ending, which is recognized in small letters only. -/
def withoutEnding (s : String) : String :=
  match s.toList.reverse with
  | 'l' :: 'l' :: 'd' :: '.' :: stem => String.ofList stem.reverse
  | _ => s

/-- Whether two names differ at most in the case of letters from A to Z. -/
def sameLetters (a b : String) : Bool :=
  a.map Char.toLower == b.map Char.toLower

/-- The subsystem of this name, with or without the file name ending. -/
def ofName? (s : String) : Option Subsystem :=
  all.find? fun x => sameLetters x.name (withoutEnding s)

end Subsystem
end JumpHooks
