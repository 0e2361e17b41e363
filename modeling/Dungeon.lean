import Dungeon.Editor
import Dungeon.Main
import Dungeon.Proofs.Generate
import Dungeon.Proofs.Leaves
import Dungeon.Proofs.Retry
import Dungeon.Proofs.Permissive
import Dungeon.Proofs.Strung
import Dungeon.Proofs.Lines
import Dungeon.Proofs.Settings
import Dungeon.Proofs.Decimal
import Dungeon.Proofs.JsonReader
import Dungeon.Proofs.JsonSpelling
import Dungeon.Proofs.Printer
import Dungeon.Proofs.Json
import Dungeon.Proofs.Picture
import Dungeon.Proofs.Coherent
import Dungeon.Proofs.Flavour
import Dungeon.Proofs.Arguments
import Dungeon.Proofs.CommandLine
import Dungeon.Proofs.Selection
import Dungeon.Proofs.Largest
import Dungeon.Proofs.Budget
import Dungeon.Proofs.Closest
import Dungeon.Proofs.Complaints
import Dungeon.Proofs.Numeral
import Dungeon.Proofs.IntLine
import Dungeon.Proofs.Relayout
import Dungeon.Proofs.Encounter
import Dungeon.Proofs.Flood
import Dungeon.Proofs.Corridor
import Dungeon.Proofs.Period
import Dungeon.Proofs.Jitter
import Dungeon.Proofs.Overflow
import Dungeon.Proofs.Hash
import Dungeon.Proofs.Meeting
import Dungeon.Proofs.Quest
import Dungeon.Proofs.Identifier
import Dungeon.Proofs.Escape
import Dungeon.Proofs.Shuffle
import Dungeon.Proofs.Range
import Dungeon.Proofs.WordNumeral
