import JumpHooks.Patch.Draft
import JumpHooks.Signature.Catalog

/-!
# Generation

A generator feeds the variants of one subsystem to a draft for each signature, one variant
after the other. The first error ends a generation, and nothing is loaded after it.
-/

namespace JumpHooks

structure Generator where
  subsystem : Subsystem
  drafts : List Draft
  /-- The number of variants that every signature processed. -/
  variants : Nat

namespace Generator

def withSignatures (subsystem : Subsystem) (signatures : List Signature) : Generator :=
  ⟨subsystem, signatures.map (Draft.new subsystem), 0⟩

/-- A generator for the signatures of the catalog. -/
def new (subsystem : Subsystem) : Generator :=
  withSignatures subsystem (Signature.inSubsystem subsystem)

/-- Every draft takes the variant in, up to the first that fails. -/
def processAll (v : Variant) : List Draft → Step (List Draft)
  | [] => ⟨[], [], .ok ()⟩
  | d :: drafts =>
      let first := d.process v
      match first.result with
      | .error e => ⟨first.state :: drafts, first.events, .error e⟩
      | .ok () =>
          let others := processAll v drafts
          ⟨first.state :: others.state, first.events ++ others.events, others.result⟩

def process (g : Generator) (v : Variant) : Step Generator :=
  let step := processAll v g.drafts
  let variants := match step.result with
    | .ok () => g.variants + 1
    | .error _ => g.variants
  ⟨⟨g.subsystem, step.state, variants⟩,
    .matching v.id g.drafts.length :: step.events, step.result⟩

def finish (g : Generator) : Except Error (List Patch) :=
  g.drafts.mapM Draft.finish

/-- What finishing the drafts reports, up to the first that fails. -/
def draftEvents : List Draft → List Event
  | [] => []
  | d :: drafts =>
      match d.finish with
      | .error _ => d.finishEvents
      | .ok _ => d.finishEvents ++ draftEvents drafts

/-- What `finish` reports. -/
def finishEvents (g : Generator) : List Event :=
  .generating g.subsystem g.drafts.length g.variants :: draftEvents g.drafts

end Generator

/-- The outcome of a generation. `loaded` is the number of variants that were asked for. -/
structure Generation where
  loaded : Nat
  events : List Event
  result : Except Error (List Patch)

namespace Generation

/-- Loads and processes the variants named by `keys`, and finishes the patches. -/
def run {κ : Type} (load : κ → Except Error Variant) (g : Generator) : List κ → Generation
  | [] => ⟨0, g.finishEvents, g.finish⟩
  | k :: keys =>
      match load k with
      | .error e => ⟨1, [], .error e⟩
      | .ok v =>
          let step := g.process v
          match step.result with
          | .error e => ⟨1, v.decodedEvent :: step.events, .error e⟩
          | .ok () =>
              let rest := run load step.state keys
              ⟨rest.loaded + 1, v.decodedEvent :: step.events ++ rest.events, rest.result⟩

end Generation

/-- The patches of a subsystem for the variants named by `keys`. -/
def generate {κ : Type} (load : κ → Except Error Variant) (subsystem : Subsystem)
    (keys : List κ) : Generation :=
  Generation.run load (Generator.new subsystem) keys

end JumpHooks
