import SqlAssembly.Database
import SqlAssembly.Proofs.Alterations
import SqlAssembly.Proofs.Brackets
import SqlAssembly.Proofs.Classification
import SqlAssembly.Proofs.Columns
import SqlAssembly.Proofs.Composites
import SqlAssembly.Proofs.Cuts
import SqlAssembly.Proofs.Meaning
import SqlAssembly.Proofs.Modes
import SqlAssembly.Proofs.Mutations
import SqlAssembly.Proofs.Placeholders
import SqlAssembly.Proofs.Rejections
import SqlAssembly.Proofs.Rounding
import SqlAssembly.Proofs.Sharing
import SqlAssembly.Proofs.Slots
import SqlAssembly.Proofs.Spellings
import SqlAssembly.Proofs.Structure
import SqlAssembly.Proofs.Switches
import SqlAssembly.Proofs.Transmission
import SqlAssembly.Proofs.Unambiguity
import SqlAssembly.Schema.Basic
import SqlAssembly.Session
import SqlAssembly.Settings.Document
import SqlAssembly.Value.Tagged
import SqlAssembly.Wire
