import Troupe.Actor.Basic
import Troupe.Actor.Id
import Troupe.Actor.Pool
import Troupe.Decimal.Fixed
import Troupe.Decimal.Numeral
import Troupe.Decimal.Shortest
import Troupe.Demo.Host
import Troupe.Demo.Options
import Troupe.Demo.Random
import Troupe.Demo.Statistics
import Troupe.Geometry.Point
import Troupe.Geometry.Pose
import Troupe.Geometry.Segment
import Troupe.Main
import Troupe.Number.Angle
import Troupe.Number.Conversion
import Troupe.Number.Power
import Troupe.Number.Quotient
import Troupe.Number.Trigonometry
import Troupe.Playback.Duration
import Troupe.Playback.Tween
import Troupe.Script.Action
import Troupe.Script.Block
import Troupe.Script.Cursor
import Troupe.Script.Expansion
import Troupe.Script.Forest
import Troupe.Script.Param
import Troupe.Script.Projection
import Troupe.Stage.Basic
import Troupe.Stage.Editing
import Troupe.Stage.Failure
import Troupe.Stage.History
import Troupe.Stage.Performance
import Troupe.Stage.Run
import Troupe.Stage.Settings
import Troupe.Swap.Choreography
import Troupe.Swap.Encounter
import Troupe.Swap.Grid
import Troupe.Swap.Plan
import Troupe.Text.Blank
import Troupe.Proofs.Actor.Keyed
import Troupe.Proofs.Actor.Source
import Troupe.Proofs.Checked.Call
import Troupe.Proofs.Checked.Cursor
import Troupe.Proofs.Checked.Edit
import Troupe.Proofs.Checked.Effect
import Troupe.Proofs.Checked.Operation
import Troupe.Proofs.Checked.Performance
import Troupe.Proofs.Checked.Run
import Troupe.Proofs.Checked.Swap
import Troupe.Proofs.Decimal.Leading
import Troupe.Proofs.Decimal.Neighbourhood
import Troupe.Proofs.Decimal.Plain
import Troupe.Proofs.Decimal.Rounding
import Troupe.Proofs.Decimal.Scan
import Troupe.Proofs.Geometry.Apart
import Troupe.Proofs.Geometry.Bounds
import Troupe.Proofs.Geometry.Close
import Troupe.Proofs.Geometry.Crossing
import Troupe.Proofs.Geometry.Displacement
import Troupe.Proofs.Geometry.Distance
import Troupe.Proofs.Geometry.Nested
import Troupe.Proofs.Geometry.Sound
import Troupe.Proofs.Geometry.Straight
import Troupe.Proofs.Number.Angle
import Troupe.Proofs.Number.Arithmetic
import Troupe.Proofs.Number.Correct
import Troupe.Proofs.Number.Double
import Troupe.Proofs.Number.Error
import Troupe.Proofs.Number.Exact
import Troupe.Proofs.Number.Finite
import Troupe.Proofs.Number.Floor
import Troupe.Proofs.Number.Mantissa
import Troupe.Proofs.Number.Monotone
import Troupe.Proofs.Number.Nearest
import Troupe.Proofs.Number.Operations
import Troupe.Proofs.Number.Opposite
import Troupe.Proofs.Number.Order
import Troupe.Proofs.Number.Remainder
import Troupe.Proofs.Number.Representation
import Troupe.Proofs.Number.Rounding
import Troupe.Proofs.Number.Single
import Troupe.Proofs.Number.Value
import Troupe.Proofs.Number.Weighted
import Troupe.Proofs.Playback.Heading
import Troupe.Proofs.Playback.Tween
import Troupe.Proofs.Script.Cursor
import Troupe.Proofs.Script.Expansion
import Troupe.Proofs.Script.Forest
import Troupe.Proofs.Script.NumberField
import Troupe.Proofs.Script.Params
import Troupe.Proofs.Script.Place
import Troupe.Proofs.Script.Projection
import Troupe.Proofs.Script.Sound
import Troupe.Proofs.Script.Steps
import Troupe.Proofs.Script.Stock
import Troupe.Proofs.Stage.Arrival
import Troupe.Proofs.Stage.Backstage
import Troupe.Proofs.Stage.Bubble
import Troupe.Proofs.Stage.Casting
import Troupe.Proofs.Stage.Changeover
import Troupe.Proofs.Stage.Coherence
import Troupe.Proofs.Stage.Containment
import Troupe.Proofs.Stage.Departure
import Troupe.Proofs.Stage.EachActor
import Troupe.Proofs.Stage.Editing
import Troupe.Proofs.Stage.Frame
import Troupe.Proofs.Stage.Halting
import Troupe.Proofs.Stage.Heading
import Troupe.Proofs.Stage.Home
import Troupe.Proofs.Stage.InProgress
import Troupe.Proofs.Stage.Journal
import Troupe.Proofs.Stage.Lineup
import Troupe.Proofs.Stage.Lookup
import Troupe.Proofs.Stage.Namesake
import Troupe.Proofs.Stage.Outcome
import Troupe.Proofs.Stage.Playing
import Troupe.Proofs.Stage.Refusal
import Troupe.Proofs.Stage.Registry
import Troupe.Proofs.Stage.Solo
import Troupe.Proofs.Stage.Standstill
import Troupe.Proofs.Stage.Stock
import Troupe.Proofs.Stage.Trading
import Troupe.Proofs.Stage.Watched
import Troupe.Proofs.Stage.Weight
import Troupe.Proofs.Swap.Apart
import Troupe.Proofs.Swap.Cells
import Troupe.Proofs.Swap.Contents
import Troupe.Proofs.Swap.Crossing
import Troupe.Proofs.Swap.Encounter
import Troupe.Proofs.Swap.Grid
import Troupe.Proofs.Swap.Permutation
import Troupe.Proofs.Swap.Plan
import Troupe.Proofs.Swap.Scan
import Troupe.Proofs.Swap.Updates
