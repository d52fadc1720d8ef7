import Ascent.Affinity
import Ascent.Archetype
import Ascent.Attribute
import Ascent.Calendar
import Ascent.Combat
import Ascent.Command.Bonuses
import Ascent.Command.Dispatch
import Ascent.Command.Effect
import Ascent.Command.Fields
import Ascent.Command.Fight
import Ascent.Command.Inventory
import Ascent.Command.Knowledge
import Ascent.Command.Learning
import Ascent.Command.Params
import Ascent.Command.People
import Ascent.Command.Player
import Ascent.Command.Registry
import Ascent.Command.Time
import Ascent.CommandLine
import Ascent.Config
import Ascent.Cultivation
import Ascent.Fault
import Ascent.Folder
import Ascent.GameState
import Ascent.Growth
import Ascent.Item
import Ascent.Json
import Ascent.Json.Reader
import Ascent.Json.Writer
import Ascent.Knowledge
import Ascent.Ladder
import Ascent.Legal
import Ascent.Leveling
import Ascent.Located
import Ascent.Loose
import Ascent.Lore
import Ascent.Main
import Ascent.Modifier
import Ascent.Moment
import Ascent.Named
import Ascent.Number.Decimal
import Ascent.Number.Double
import Ascent.Number.Quantity
import Ascent.Number.Rounding
import Ascent.Pairs
import Ascent.Person
import Ascent.Proofs.Agreement
import Ascent.Proofs.Ascension
import Ascent.Proofs.Aside
import Ascent.Proofs.Atomicity
import Ascent.Proofs.Batches
import Ascent.Proofs.Beside
import Ascent.Proofs.Bookings
import Ascent.Proofs.Bottleneck
import Ascent.Proofs.Branches
import Ascent.Proofs.Bystander
import Ascent.Proofs.Casing
import Ascent.Proofs.Clamping
import Ascent.Proofs.Climb
import Ascent.Proofs.Clock
import Ascent.Proofs.Coercion
import Ascent.Proofs.Contact
import Ascent.Proofs.Dates
import Ascent.Proofs.Debt
import Ascent.Proofs.Deeds
import Ascent.Proofs.Derivation
import Ascent.Proofs.Distinct
import Ascent.Proofs.Documents
import Ascent.Proofs.Doings
import Ascent.Proofs.Expiry
import Ascent.Proofs.Fray
import Ascent.Proofs.Inheritance
import Ascent.Proofs.Kindred
import Ascent.Proofs.Labels
import Ascent.Proofs.Lasting
import Ascent.Proofs.Layers
import Ascent.Proofs.Legality
import Ascent.Proofs.Listing
import Ascent.Proofs.Longest
import Ascent.Proofs.Losses
import Ascent.Proofs.Marks
import Ascent.Proofs.Measure
import Ascent.Proofs.Merge
import Ascent.Proofs.Monotone
import Ascent.Proofs.Namesakes
import Ascent.Proofs.Naming
import Ascent.Proofs.Notation
import Ascent.Proofs.Numerals
import Ascent.Proofs.Outcome
import Ascent.Proofs.Overflow
import Ascent.Proofs.Patience
import Ascent.Proofs.Places
import Ascent.Proofs.Populace
import Ascent.Proofs.Portions
import Ascent.Proofs.Practice
import Ascent.Proofs.Provenance
import Ascent.Proofs.Puts
import Ascent.Proofs.Reading
import Ascent.Proofs.Refusal
import Ascent.Proofs.Regard
import Ascent.Proofs.Resumption
import Ascent.Proofs.Retelling
import Ascent.Proofs.Reunion
import Ascent.Proofs.Rounding
import Ascent.Proofs.Run
import Ascent.Proofs.Saving
import Ascent.Proofs.Seclusion
import Ascent.Proofs.Shortest
import Ascent.Proofs.Shown
import Ascent.Proofs.Spelling
import Ascent.Proofs.Spending
import Ascent.Proofs.Stacks
import Ascent.Proofs.Standstill
import Ascent.Proofs.Storable
import Ascent.Proofs.Sync
import Ascent.Proofs.Tagging
import Ascent.Proofs.Telling
import Ascent.Proofs.Thought
import Ascent.Proofs.Twin
import Ascent.Proofs.Verdicts
import Ascent.Proofs.Wearing
import Ascent.Proofs.Whole
import Ascent.Proofs.Wording
import Ascent.Reputation
import Ascent.Response
import Ascent.Save.Numeral
import Ascent.Save.Patch
import Ascent.Save.Records
import Ascent.Save.Shape
import Ascent.Save.Written
import Ascent.Screen
import Ascent.Settings
import Ascent.Skill
import Ascent.Start
import Ascent.StatBlock
import Ascent.StatChange
import Ascent.Supply
import Ascent.Tag
import Ascent.Tag.Written
import Ascent.Text.Alphanumeric
import Ascent.Text.Basic
import Ascent.Text.Case
import Ascent.Text.CaseTable
import Ascent.Text.Numeral
import Ascent.Text.Pattern
import Ascent.Text.Printable
import Ascent.Toml.Document
import Ascent.Toml.Quoted
import Ascent.Toml.Scalar
import Ascent.Turn
import Ascent.Worth
