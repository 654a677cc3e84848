import JumpHooks.Main
import JumpHooks.Proofs.Bytes.Consumption
import JumpHooks.Proofs.Instruction.Reading
import JumpHooks.Proofs.Code.Boundaries
import JumpHooks.Proofs.Code.Calls
import JumpHooks.Proofs.Code.Segmentation
import JumpHooks.Proofs.Outcome
import JumpHooks.Proofs.Signature.Candidates
import JumpHooks.Proofs.Text.Words
import JumpHooks.Proofs.Patch.Statements
import JumpHooks.Proofs.Patch.Branches
import JumpHooks.Proofs.Patch.History
import JumpHooks.Proofs.Patch.Finish
import JumpHooks.Proofs.Hook.Cover
import JumpHooks.Proofs.Patch.Generation
import JumpHooks.Proofs.Patch.Overwrite
import JumpHooks.Proofs.Instruction.Locality
import JumpHooks.Proofs.Code.Outcomes
import JumpHooks.Proofs.Hook.Jump
import JumpHooks.Proofs.Signature.Shared
import JumpHooks.Proofs.Signature.Grammar
import JumpHooks.Proofs.Patch.Verdict
import JumpHooks.Proofs.Patch.Regions
import JumpHooks.Proofs.Source.Layout
import JumpHooks.Proofs.Source.Reading
import JumpHooks.Proofs.Source.Array
import JumpHooks.Proofs.Source.Switch
import JumpHooks.Proofs.Source.Rendering
import JumpHooks.Proofs.Patch.Printing
import JumpHooks.Proofs.Patch.FirstFailure
import JumpHooks.Proofs.Patch.Coverage
import JumpHooks.Proofs.Patch.Order
import JumpHooks.Proofs.Source.Splicing
import JumpHooks.Proofs.Bytes.Numbers
import JumpHooks.Proofs.Instruction.Targets
import JumpHooks.Proofs.Instruction.Placement
import JumpHooks.Proofs.Code.Placement
import JumpHooks.Proofs.Signature.Placement
import JumpHooks.Proofs.Image.Headers
import JumpHooks.Proofs.Image.Version
import JumpHooks.Proofs.Image.Inspection
import JumpHooks.Proofs.Image.Layout
import JumpHooks.Proofs.Image.Construction
import JumpHooks.Proofs.Image.Load
import JumpHooks.Proofs.Source.Regeneration
import JumpHooks.Proofs.Patch.Independence
import JumpHooks.Proofs.Patch.Grouping
import JumpHooks.Proofs.Patch.Bookkeeping
import JumpHooks.Proofs.Patch.Completion
import JumpHooks.Proofs.Patch.Sufficiency
import JumpHooks.Proofs.Command.Output
import JumpHooks.Proofs.Code.References
import JumpHooks.Proofs.Code.Concatenation
import JumpHooks.Proofs.Code.Resolution
import JumpHooks.Proofs.Source.Declaration
import JumpHooks.Proofs.Subsystem
import JumpHooks.Proofs.Code.Padding
import JumpHooks.Proofs.Signature.Answers
