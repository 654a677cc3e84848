import JumpHooks.Bitness

/-!
# Games and builds

The builds of each game that hooks exist for, and which of them one run covers. The 32-bit
builds of a game include its 64-bit ones.
-/

namespace JumpHooks

inductive Game where
  | crysis
  | wars
  | warhead
deriving DecidableEq, Repr

namespace Game

def builds : Game → Bitness → List Nat
  | crysis, _ => [5767, 5879, 6115, 6156]
  | wars, .x64 => [6566, 6586, 6627, 6670, 6729]
  | wars, .x86 => [6527, 6566, 6586, 6627, 6670, 6729]
  | warhead, .x64 => [710, 711]
  | warhead, .x86 => [687, 710, 711]

def name : Game → String
  | crysis => "Crysis"
  | wars => "Crysis Wars"
  | warhead => "Crysis Warhead"

/-- The game that a build number belongs to. No two games share one. -/
def ofBuild? (build : Nat) : Option Game :=
  [crysis, wars, warhead].find? fun g => (g.builds .x86).contains build

end Game

/-- Which builds a run loads. -/
inductive Selection where
  | quick
  | full
deriving DecidableEq, Repr

namespace Selection

/-- The only build of a quick run. -/
def quickBuild : Nat := 6156

/-- The builds to load, in loading order. Warhead is not supported in 32-bit. -/
def builds : Selection → Bitness → List Nat
  | quick, _ => [quickBuild]
  | full, .x86 => Game.crysis.builds .x86 ++ Game.wars.builds .x86
  | full, .x64 => Game.crysis.builds .x64 ++ Game.wars.builds .x64 ++ Game.warhead.builds .x64

end Selection
end JumpHooks
