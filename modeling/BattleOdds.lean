import BattleOdds.Document.Encoding
import BattleOdds.Main
import BattleOdds.Proofs.Batches
import BattleOdds.Proofs.Batches.Partition
import BattleOdds.Proofs.Binary64.Arithmetic
import BattleOdds.Proofs.Binary64.Bounds
import BattleOdds.Proofs.Binary64.Conversion
import BattleOdds.Proofs.Binary64.Datum
import BattleOdds.Proofs.Binary64.Interpolation
import BattleOdds.Proofs.Binary64.Nearest
import BattleOdds.Proofs.Binary64.Normalization
import BattleOdds.Proofs.Binary64.Order
import BattleOdds.Proofs.Binary64.Scaling
import BattleOdds.Proofs.Binary64.Sums
import BattleOdds.Proofs.Binary64.Value
import BattleOdds.Proofs.Binary64.Whole
import BattleOdds.Proofs.CommandLine
import BattleOdds.Proofs.CommandLine.Grammar
import BattleOdds.Proofs.CommandLine.Parsing
import BattleOdds.Proofs.Decimal.Characters
import BattleOdds.Proofs.Decimal.Digits
import BattleOdds.Proofs.Document.Decoding
import BattleOdds.Proofs.Document.Encoding
import BattleOdds.Proofs.Document.Items
import BattleOdds.Proofs.Document.JsonText.Assembly
import BattleOdds.Proofs.Document.JsonText.Token
import BattleOdds.Proofs.Document.Laws
import BattleOdds.Proofs.Document.Node
import BattleOdds.Proofs.Document.Restating
import BattleOdds.Proofs.Document.Shape
import BattleOdds.Proofs.Draw
import BattleOdds.Proofs.Draw.Range
import BattleOdds.Proofs.Draw.Recoil
import BattleOdds.Proofs.Files.Folder
import BattleOdds.Proofs.Generator
import BattleOdds.Proofs.Ledger.Assembly
import BattleOdds.Proofs.Ledger.Csv
import BattleOdds.Proofs.Ledger.Order
import BattleOdds.Proofs.Percentile
import BattleOdds.Proofs.Percentile.Order
import BattleOdds.Proofs.Percentile.Places
import BattleOdds.Proofs.Report.Amounts
import BattleOdds.Proofs.Report.Means
import BattleOdds.Proofs.Report.Nulls
import BattleOdds.Proofs.Report.Odds
import BattleOdds.Proofs.Report.Presence
import BattleOdds.Proofs.Request.Groups
import BattleOdds.Proofs.Request.Validation
import BattleOdds.Proofs.Run.Batched
import BattleOdds.Proofs.Run.Composition
import BattleOdds.Proofs.Run.Coupling
import BattleOdds.Proofs.Run.Dependence
import BattleOdds.Proofs.Run.Draws
import BattleOdds.Proofs.Run.Order
import BattleOdds.Proofs.Run.Pool
import BattleOdds.Proofs.Run.Substreams
import BattleOdds.Proofs.Run.Targets
import BattleOdds.Proofs.Run.Trace
import BattleOdds.Proofs.Run.WarTypes
import BattleOdds.Proofs.Session.Outcome
import BattleOdds.Proofs.Session.Reading
import BattleOdds.Proofs.Session.Simulation
import BattleOdds.Proofs.Summary.Mean
import BattleOdds.Proofs.Summary.Order
import BattleOdds.Proofs.Trial.ActionBounds
import BattleOdds.Proofs.Trial.Bounds
import BattleOdds.Proofs.Trial.Ceilings
import BattleOdds.Proofs.Trial.Dependence
import BattleOdds.Proofs.Trial.Draws
import BattleOdds.Proofs.Trial.Fight
import BattleOdds.Proofs.Trial.GroundBounds
import BattleOdds.Proofs.Trial.Magnitudes
import BattleOdds.Proofs.Trial.Order
import BattleOdds.Proofs.Trial.Reinforcement
import BattleOdds.Proofs.Trial.Scope
import BattleOdds.Proofs.Trial.WarTypes
import BattleOdds.Proofs.Valuation
