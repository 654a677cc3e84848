/-!
# Byte readers

A reader is a tree of single byte reads. Since the only way to look at the input is to take
its next byte, a reader that succeeds has decided on the bytes it took and on nothing after
them.
-/

namespace JumpHooks

inductive Reader (α : Type) where
  | done (result : α)
  | fail
  | next (rest : UInt8 → Reader α)

namespace Reader

variable {α β : Type}

def bind : Reader α → (α → Reader β) → Reader β
  | done a, f => f a
  | fail, _ => fail
  | next k, f => next fun b => (k b).bind f

instance : Monad Reader where
  pure := done
  bind := bind

/-- The result and the bytes left over. Running out of bytes is a failure. -/
def run : Reader α → List UInt8 → Option (α × List UInt8)
  | done a, bytes => some (a, bytes)
  | fail, _ => none
  | next _, [] => none
  | next k, b :: bytes => (k b).run bytes

def byte : Reader UInt8 :=
  next done

/-- A little-endian number of `count` bytes. -/
def number : (count : Nat) → Reader UInt64
  | 0 => done 0
  | count + 1 => next fun b => (number count).bind fun high => done (b.toUInt64 + 256 * high)

end Reader
end JumpHooks
