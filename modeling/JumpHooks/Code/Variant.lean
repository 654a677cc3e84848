import JumpHooks.Code.References
import JumpHooks.Code.Sweep
import JumpHooks.Error
import JumpHooks.Event

/-!
# Variants

A variant is the code section of one module, decoded from its first byte to its last
without a gap. A section that holds anything but instructions has no variant: a signature
found in half-understood code could not be trusted.
-/

namespace JumpHooks

/-- Code as it is mapped into an image. -/
structure Section where
  image : ImageRange
  address : UInt64
  bytes : List UInt8

namespace Section

def isInside (s : Section) : Bool :=
  s.image.covers s.address s.bytes.length

end Section

/-- The instructions follow each other without a gap from `address` on, and all of them lie in
the image. -/
structure Gapless (image : ImageRange) (address : UInt64) (instructions : Array Placed) :
    Prop where
  consecutive : Consecutive address instructions.toList
  inside : image.covers address (totalLength instructions.toList) = true

/-- The instructions take no more bytes than there are addresses. -/
theorem Gapless.totalLength_lt {image : ImageRange} {address : UInt64}
    {instructions : Array Placed} (h : Gapless image address instructions) :
    totalLength instructions.toList < UInt64.size := by
  have hinside := h.inside
  unfold ImageRange.covers at hinside
  rw [Bool.and_eq_true, decide_eq_true_eq, decide_eq_true_eq] at hinside
  have hstop := image.stop.toNat_lt
  lia

/-- A sweep through a section inside its image leaves no gap. -/
theorem gapless_of_sweep {d : Disassembler} {b : Bitness} {s : Section}
    {instructions : Array Placed} (hinside : s.isInside = true)
    (hsweep : sweep d b s.address 0 s.bytes #[] = .ok instructions) :
    Gapless s.image s.address instructions := by
  have hdecodes := decodes_of_sweep hsweep
  have hsum : totalLength instructions.toList = s.bytes.length :=
    hdecodes.totalLength_add
  refine ⟨hdecodes.consecutive, ?_⟩
  rw [hsum]
  exact hinside

/-- A decoded code section, with the references between its instructions. -/
structure Variant where
  id : VariantId
  image : ImageRange
  address : UInt64
  instructions : Array Placed
  references : References
  references_eq : references = References.ofInstructions image instructions
  gapless : Gapless image address instructions

namespace Variant

def ofInstructions (id : VariantId) (image : ImageRange) (address : UInt64)
    (instructions : Array Placed) (h : Gapless image address instructions) : Variant where
  id := id
  image := image
  address := address
  instructions := instructions
  references := References.ofInstructions image instructions
  references_eq := rfl
  gapless := h

def decode (d : Disassembler) (id : VariantId) (s : Section) : Except Error Variant :=
  if hinside : s.isInside = true then
    match hsweep : sweep d id.bitness s.address 0 s.bytes #[] with
    | .error address => .error (.decode id address)
    | .ok instructions =>
        .ok (ofInstructions id s.image s.address instructions
          (gapless_of_sweep hinside hsweep))
  else
    .error (.precondition (.codeOutsideImage id s.address s.bytes.length
      s.image.base.toNat s.image.stop.toNat))

def size (v : Variant) : Nat :=
  v.instructions.size

/-- The address of an instruction, relative to the image base. -/
def rva? (v : Variant) (index : Nat) : Option UInt64 :=
  v.instructions[index]?.map fun p => p.address - v.image.base

/-- Whether a direct call goes to the instruction. -/
def isEntered (v : Variant) (index : Nat) : Bool :=
  match v.rva? index with
  | none => false
  | some rva =>
      (v.references.referrers rva).any fun i =>
        v.instructions[i]?.any Placed.isDirectCall

def isPadding (v : Variant) (index : Nat) : Bool :=
  v.instructions[index]?.any Placed.isPadding

def line? (d : Disassembler) (v : Variant) (index : Nat) : Option String :=
  v.instructions[index]?.map (Placed.text d v.id.bitness)

/-- One line for every reference, addresses in the order of their first reference. -/
def referenceLines (d : Disassembler) (v : Variant) : List String :=
  v.references.entries.flatMap fun (rva, referrers) =>
    referrers.toList.filterMap fun i =>
      (v.line? d i).map fun line => s!"{line} -> 0x{Text.hex rva.toNat}"

def decodedEvent (v : Variant) : Event :=
  .decoded v.id v.size v.address v.references.count v.references.size

/-- The variant's facts in the notation of records. -/
def record (v : Variant) : String :=
  Text.record "BinaryVariant"
    [("id", v.id.record),
      ("image_base", Text.padded 16 (Text.hex v.image.base.toNat)),
      ("image_size", Text.hex v.image.size.toNat),
      ("instructions", toString v.size),
      ("xrefs", toString v.references.count)]

end Variant
end JumpHooks
