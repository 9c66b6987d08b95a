import SpatialGrammar.Command.Arguments
import SpatialGrammar.Command.Report
import SpatialGrammar.Command.Response
import SpatialGrammar.Decimal.Integer
import SpatialGrammar.Decimal.Layout
import SpatialGrammar.Decimal.Literal
import SpatialGrammar.Decimal.Shortest
import SpatialGrammar.Decimal.Stepwise
import SpatialGrammar.Derivation.Arena
import SpatialGrammar.Derivation.Awaiting
import SpatialGrammar.Derivation.Diagnostic
import SpatialGrammar.Derivation.Pass
import SpatialGrammar.Derivation.Rehearsal
import SpatialGrammar.Derivation.Report
import SpatialGrammar.Derivation.Run
import SpatialGrammar.Derivation.State
import SpatialGrammar.Derivation.World
import SpatialGrammar.Digest.Blake3
import SpatialGrammar.Digest.Fingerprint
import SpatialGrammar.Document.Basic
import SpatialGrammar.Document.Execution
import SpatialGrammar.Document.Reading
import SpatialGrammar.Document.Validity
import SpatialGrammar.Document.Writing
import SpatialGrammar.Geometry.Angle
import SpatialGrammar.Geometry.Box
import SpatialGrammar.Geometry.Mat4
import SpatialGrammar.Geometry.Quat
import SpatialGrammar.Geometry.Region
import SpatialGrammar.Geometry.Transform
import SpatialGrammar.Geometry.Vec3
import SpatialGrammar.Json.Fields
import SpatialGrammar.Json.Reading
import SpatialGrammar.Json.Value
import SpatialGrammar.Json.Writing
import SpatialGrammar.Main
import SpatialGrammar.Names.Handle
import SpatialGrammar.Names.Index
import SpatialGrammar.Numeric.Binary32
import SpatialGrammar.Numeric.Rounding
import SpatialGrammar.Numeric.Scalar
import SpatialGrammar.Random.Counted
import SpatialGrammar.Random.Replay
import SpatialGrammar.Random.Source
import SpatialGrammar.Random.Xoroshiro
import SpatialGrammar.Rule.Exclusion
import SpatialGrammar.Rule.Selection
import SpatialGrammar.Rule.Table
import SpatialGrammar.Scene.Confinement
import SpatialGrammar.Scene.Entity
import SpatialGrammar.Scene.Hierarchy
import SpatialGrammar.Scene.Link
import SpatialGrammar.Scene.Method
import SpatialGrammar.Scene.Prefab
import SpatialGrammar.Scene.Spawn
import SpatialGrammar.Symbol.Arguments
import SpatialGrammar.Symbol.Kind
import SpatialGrammar.Symbol.ParseError
import SpatialGrammar.Symbol.Placeholder
import SpatialGrammar.Symbol.Scan
import SpatialGrammar.Symbol.Token
import SpatialGrammar.Text.Blank
import SpatialGrammar.Text.Quoted
import SpatialGrammar.Text.Visible
import SpatialGrammar.Tile.Chain
import SpatialGrammar.Tile.Face
import SpatialGrammar.Tile.Placement
import SpatialGrammar.Tile.Shape
import SpatialGrammar.Proofs.PassRule
import SpatialGrammar.Proofs.RunRule
import SpatialGrammar.Proofs.Binary32Order
import SpatialGrammar.Proofs.Lifecycle
import SpatialGrammar.Proofs.Lineage
import SpatialGrammar.Proofs.Recovery
import SpatialGrammar.Proofs.RunFrames
import SpatialGrammar.Proofs.RegionSoundness
import SpatialGrammar.Proofs.Settling
import SpatialGrammar.Proofs.Isolation
import SpatialGrammar.Proofs.Discipline
import SpatialGrammar.Proofs.PassPoints
import SpatialGrammar.Proofs.Descent
import SpatialGrammar.Proofs.Derivation
import SpatialGrammar.Proofs.Joints
import SpatialGrammar.Proofs.ChainGrowth
import SpatialGrammar.Proofs.ChainLinkage
import SpatialGrammar.Proofs.ChainPoses
import SpatialGrammar.Proofs.Stacks
import SpatialGrammar.Proofs.FinalSlot
import SpatialGrammar.Proofs.Comments
import SpatialGrammar.Proofs.DocumentRecords
import SpatialGrammar.Proofs.DocumentText
import SpatialGrammar.Proofs.Replays
import SpatialGrammar.Proofs.SymbolTexts
import SpatialGrammar.Proofs.SceneForest
import SpatialGrammar.Proofs.SceneHandles
import SpatialGrammar.Proofs.Convergence
import SpatialGrammar.Proofs.IndexDraws
import SpatialGrammar.Proofs.SceneStock
import SpatialGrammar.Proofs.CrossReferences
import SpatialGrammar.Proofs.GeneratorFit
import SpatialGrammar.Proofs.Noting
import SpatialGrammar.Proofs.Bookkeeping
import SpatialGrammar.Proofs.LargerBudget
import SpatialGrammar.Proofs.UnitQuaternions
import SpatialGrammar.Proofs.PlacementAlgebra
import SpatialGrammar.Proofs.RigidPlacements
import SpatialGrammar.Proofs.Reparenting
import SpatialGrammar.Proofs.CandidateSearch
import SpatialGrammar.Proofs.Shares
import SpatialGrammar.Proofs.RuleLookup
import SpatialGrammar.Proofs.PlaceholderReading
import SpatialGrammar.Proofs.SubtreeRemoval
import SpatialGrammar.Proofs.MethodEffects
import SpatialGrammar.Proofs.ProducerDepths
import SpatialGrammar.Proofs.BoxOrder
import SpatialGrammar.Proofs.RegionCorners
import SpatialGrammar.Proofs.ChainBounds
import SpatialGrammar.Proofs.CandidateDraws
import SpatialGrammar.Proofs.WordBits
import SpatialGrammar.Proofs.FullPeriod
import SpatialGrammar.Proofs.Streams
import SpatialGrammar.Proofs.EvenDraws
import SpatialGrammar.Proofs.Fingerprints
import SpatialGrammar.Proofs.RangeDraws
import SpatialGrammar.Proofs.BoxRecipes
import SpatialGrammar.Proofs.Episodes
