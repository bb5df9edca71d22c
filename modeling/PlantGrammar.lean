import PlantGrammar.Engine.Request
import PlantGrammar.Json.Shape
import PlantGrammar.Random.ChaCha
import PlantGrammar.Skeleton.Extent
import PlantGrammar.Skeleton.Frame
import PlantGrammar.Proofs.Derivation.Productive
import PlantGrammar.Proofs.Bracket.Depth
import PlantGrammar.Proofs.Bracket.Shoot
import PlantGrammar.Proofs.Turtle.Journey
import PlantGrammar.Proofs.Turtle.Underflow
import PlantGrammar.Proofs.Turtle.Account
import PlantGrammar.Proofs.Turtle.Composition
import PlantGrammar.Proofs.Turtle.Silence
import PlantGrammar.Proofs.Turtle.SideShoots
import PlantGrammar.Proofs.Space.Exact
import PlantGrammar.Proofs.Space.Turning
import PlantGrammar.Proofs.Turtle.Orthonormal
import PlantGrammar.Proofs.Turtle.Turns
import PlantGrammar.Proofs.Turtle.Mirror
import PlantGrammar.Proofs.Turtle.Scaling
import PlantGrammar.Proofs.Engine.Loading
import PlantGrammar.Proofs.Engine.Deriving
import PlantGrammar.Proofs.Engine.Cache
import PlantGrammar.Proofs.Engine.BalancedGrammar
import PlantGrammar.Proofs.Engine.History
import PlantGrammar.Proofs.Engine.Drawing
import PlantGrammar.Proofs.Engine.Faultless
import PlantGrammar.Proofs.Engine.Origins
import PlantGrammar.Proofs.Engine.Reports
import PlantGrammar.Proofs.Skeleton.Connected
import PlantGrammar.Proofs.Skeleton.Enclosure
import PlantGrammar.Proofs.Skeleton.Basis
import PlantGrammar.Proofs.Skeleton.Degenerate
import PlantGrammar.Proofs.Rule.Reading
import PlantGrammar.Proofs.Rule.Writing
import PlantGrammar.Proofs.Rule.Spaces
import PlantGrammar.Proofs.Engine.Alphabet
import PlantGrammar.Proofs.Derivation.Morphism
import PlantGrammar.Proofs.Derivation.Growth
import PlantGrammar.Proofs.Engine.Deterministic
import PlantGrammar.Proofs.Engine.InertRules
import PlantGrammar.Proofs.Engine.FirstInitiator
import PlantGrammar.Proofs.Engine.TapeOrder
import PlantGrammar.Proofs.Engine.LineEnds
import PlantGrammar.Proofs.Binary.Nearest
import PlantGrammar.Proofs.Binary.Representable
import PlantGrammar.Proofs.Binary.Fields
import PlantGrammar.Proofs.Binary.Single
import PlantGrammar.Proofs.Binary.Arithmetic
import PlantGrammar.Proofs.Random.Choice
import PlantGrammar.Proofs.Engine.Grammar
import PlantGrammar.Proofs.Engine.Numbered
import PlantGrammar.Proofs.Engine.PresetSizes
import PlantGrammar.Proofs.Json.Number
import PlantGrammar.Proofs.Json.Forms
import PlantGrammar.Proofs.Json.Records
