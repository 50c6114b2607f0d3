import GlslText.Decimal.Binary32
import GlslText.Decimal.Shortest
import GlslText.Fault
import GlslText.Feature.Basic
import GlslText.Feature.Scan
import GlslText.Generate
import GlslText.Glsl.Color
import GlslText.Glsl.Literal
import GlslText.Glsl.Name
import GlslText.Glsl.Overload
import GlslText.Glsl.Program
import GlslText.Glsl.Stmt
import GlslText.Glsl.Term
import GlslText.Interface.ColorOutput
import GlslText.Interface.Role
import GlslText.Interface.Sampler
import GlslText.Interface.Slot
import GlslText.Interface.Variable
import GlslText.Lowering.Intrinsic
import GlslText.Lowering.Stmt
import GlslText.Lowering.Term
import GlslText.Naming
import GlslText.Profile.Basic
import GlslText.Profile.Preamble
import GlslText.Proofs.Aliases
import GlslText.Proofs.Capture
import GlslText.Proofs.ColorOutputs
import GlslText.Proofs.Generation
import GlslText.Proofs.HelperClosure
import GlslText.Proofs.Rendered
import GlslText.Proofs.Site
import GlslText.Proofs.Skeleton
import GlslText.Proofs.SlotResolution
import GlslText.Proofs.UniqueReading
import GlslText.Proofs.WrittenNames
import GlslText.Session
import GlslText.Shader.Base
import GlslText.Shader.Expr
import GlslText.Shader.Statement
import GlslText.Shader.Token
import GlslText.Shader.Walk
import GlslText.Text.Case
import GlslText.Text.Digits
import GlslText.Text.Line
import GlslText.Text.Occurrence
import GlslText.Proofs.Faults
import GlslText.Proofs.EntryResult
import GlslText.Proofs.Varyings
import GlslText.Proofs.UserCalls
import GlslText.Proofs.Portability
import GlslText.Proofs.Nesting
import GlslText.Proofs.MainReturns
import GlslText.Proofs.Subterm
import GlslText.Proofs.EntryCalls
import GlslText.Proofs.Collision
import GlslText.Proofs.Target
import GlslText.Proofs.Weaving
import GlslText.Proofs.WovenProgram
import GlslText.Proofs.Balance
import GlslText.Proofs.Qualifiers
import GlslText.Proofs.ReservedWords
import GlslText.Proofs.SessionMemory
import GlslText.Proofs.ExplicitCasts
import GlslText.Proofs.Rounding
import GlslText.Proofs.LongestMatch
import GlslText.Proofs.ShortestDecimal
import GlslText.Proofs.StepOperators
import GlslText.Proofs.OutputNaming
import GlslText.Proofs.InterfaceArrays
import GlslText.Proofs.HiddenGlobals
import GlslText.Proofs.SlotGrammar
import GlslText.Proofs.NameProbing
import GlslText.Proofs.SamplerUnits
import GlslText.Proofs.SamplerParameters
import GlslText.Proofs.InjectiveNaming
import GlslText.Proofs.DiscardCount
import GlslText.Proofs.Discards
import GlslText.Proofs.Regrouping
import GlslText.Proofs.LevelSampling
import GlslText.Proofs.Emission
import GlslText.Proofs.LineWriting
import GlslText.Proofs.LineDiscipline
