import Foliage.Notation
import Foliage.Ornament.Reader
import Foliage.Preset.Bush
import Foliage.Preset.Guided
import Foliage.Preset.Palm
import Foliage.Preset.Tree
import Foliage.Proofs.Brackets
import Foliage.Proofs.Derivation.Coverage
import Foliage.Proofs.Derivation.Draws
import Foliage.Proofs.Derivation.Programs
import Foliage.Proofs.Derivation.Rewriting
import Foliage.Proofs.Derivation.Settled
import Foliage.Proofs.Double
import Foliage.Proofs.Double.Finite
import Foliage.Proofs.Double.Order
import Foliage.Proofs.Interpreter.Drawing
import Foliage.Proofs.Interpreter.Events
import Foliage.Proofs.Interpreter.Execution
import Foliage.Proofs.Interpreter.Faults
import Foliage.Proofs.Interpreter.Invariant
import Foliage.Proofs.Interpreter.Isolation
import Foliage.Proofs.Interpreter.Lenient
import Foliage.Proofs.Interpreter.Operations
import Foliage.Proofs.Interpreter.Sequence
import Foliage.Proofs.Interpreter.Siblings
import Foliage.Proofs.Interpreter.Strokes
import Foliage.Proofs.Interpreter.Twins
import Foliage.Proofs.Interpreter.Warnings
import Foliage.Proofs.LeafAngles
import Foliage.Proofs.Mesh
import Foliage.Proofs.Mesh.Bounds
import Foliage.Proofs.Notation.Characters
import Foliage.Proofs.Notation.Fragments
import Foliage.Proofs.Notation.Grammar
import Foliage.Proofs.Notation.RoundTrip
import Foliage.Proofs.Ornament.Lines
import Foliage.Proofs.Ornament.Reading
import Foliage.Proofs.Ornament.Stamps
import Foliage.Proofs.PartialMap
import Foliage.Proofs.Population.Approach
import Foliage.Proofs.Population.Branching
import Foliage.Proofs.Population.Cut
import Foliage.Proofs.Population.Ensemble
import Foliage.Proofs.Population.Steering
import Foliage.Proofs.Population.Successors
import Foliage.Proofs.Population.Unison
import Foliage.Proofs.Preset.Bush
import Foliage.Proofs.Preset.Crown
import Foliage.Proofs.Preset.Growth
import Foliage.Proofs.Preset.Outputs
import Foliage.Proofs.Preset.Tree
import Foliage.Proofs.Rule.Building
import Foliage.Proofs.Rule.Index
import Foliage.Proofs.Rule.Selection
import Foliage.Proofs.Skeleton.Curve
import Foliage.Proofs.Skeleton.Flattening
import Foliage.Proofs.Skeleton.Growth
import Foliage.Proofs.Skeleton.Insertion
import Foliage.Proofs.Skeleton.Traversal
import Foliage.Proofs.Space.Exact
import Foliage.Proofs.Turtle.Defaults
import Foliage.Proofs.Turtle.Outline
import Foliage.Proofs.Turtle.Polygon
import Foliage.Proofs.Turtle.Radius
import Foliage.Proofs.Turtle.RightHanded
import Foliage.Proofs.Turtle.Segments
import Foliage.Proofs.Turtle.Tubes
import Foliage.Proofs.Turtle.WayBack
import Foliage.Skeleton.Bezier
