import Transport.Address
import Transport.Bench
import Transport.Breakpoint
import Transport.Device
import Transport.Dialogue
import Transport.Instruction
import Transport.Listener
import Transport.Listener.Gallery
import Transport.Listing.Piece
import Transport.Listing.Token
import Transport.Machine.Config
import Transport.Machine.Control
import Transport.Machine.Execution
import Transport.Machine.State
import Transport.Module
import Transport.Module.Arithmetic
import Transport.Module.Exchange
import Transport.Module.Jump
import Transport.Module.Memory
import Transport.Module.Sample
import Transport.Module.System
import Transport.Numeral
import Transport.Port
import Transport.Program
import Transport.Program.Disassembly
import Transport.Proofs.Answers
import Transport.Proofs.Dialogue
import Transport.Proofs.Instruction
import Transport.Proofs.Interpreter
import Transport.Proofs.Listing.Items
import Transport.Proofs.Listing.Lines
import Transport.Proofs.Listing.Longest
import Transport.Proofs.Listing.Numbers
import Transport.Proofs.Listing.Pattern
import Transport.Proofs.Listing.Piece
import Transport.Proofs.Listing.Spacing
import Transport.Proofs.Machine.Acts
import Transport.Proofs.Machine.Branching
import Transport.Proofs.Machine.Breakpoints
import Transport.Proofs.Machine.Chronicle
import Transport.Proofs.Machine.Cleanup
import Transport.Proofs.Machine.Devices
import Transport.Proofs.Machine.Driver
import Transport.Proofs.Machine.Endings
import Transport.Proofs.Machine.Enrolment
import Transport.Proofs.Machine.Extent
import Transport.Proofs.Machine.Guards
import Transport.Proofs.Machine.Happenings
import Transport.Proofs.Machine.LiveCode
import Transport.Proofs.Machine.Lockstep
import Transport.Proofs.Machine.Notices
import Transport.Proofs.Machine.Nudging
import Transport.Proofs.Machine.Observation
import Transport.Proofs.Machine.Pacing
import Transport.Proofs.Machine.Runs
import Transport.Proofs.Machine.SingleStep
import Transport.Proofs.Machine.Stopping
import Transport.Proofs.Machine.Stores
import Transport.Proofs.Machine.Strays
import Transport.Proofs.Machine.Suspension
import Transport.Proofs.Machine.Trail
import Transport.Proofs.Machine.WindowRefinement
import Transport.Proofs.Machine.WindowStores
import Transport.Proofs.Machine.Windows
import Transport.Proofs.Module.Exchange
import Transport.Proofs.Numeral
import Transport.Proofs.Pauses
import Transport.Proofs.Program.Agreement
import Transport.Proofs.Program.Disassembly
import Transport.Proofs.Program.Encoding
import Transport.Proofs.Program.Fallbacks
import Transport.Proofs.Program.Lines
import Transport.Proofs.Program.Listing
import Transport.Proofs.Program.Moves
import Transport.Proofs.Program.Pushes
import Transport.Proofs.Program.Spacing
import Transport.Proofs.Ram
import Transport.Proofs.Ram.History
import Transport.Proofs.Refusals
import Transport.Proofs.Registry.Admission
import Transport.Proofs.Registry.Lookup
import Transport.Proofs.Registry.Order
import Transport.Proofs.Registry.Reachability
import Transport.Proofs.Registry.WellFormed
import Transport.Proofs.Segment.Attachment
import Transport.Proofs.Segment.CodeMap
import Transport.Proofs.Segment.Containment
import Transport.Proofs.Segment.Instances
import Transport.Proofs.Segment.Layout
import Transport.Proofs.Segment.Overlap
import Transport.Proofs.Segment.Refinement
import Transport.Proofs.Segment.Strictness
import Transport.Proofs.Segment.Stride
import Transport.Proofs.Segment.Window
import Transport.Ram
import Transport.Registry
import Transport.Registry.Catalogue
import Transport.Registry.Rejection
import Transport.Registry.Standard
import Transport.Segment.CodeMap
import Transport.Segment.Compilation
import Transport.Segment.Context
import Transport.Segment.Op
import Transport.Segment.Run
import Transport.Text.CharClass
import Transport.Text.Layout
import Transport.Trap
import Transport.Word
import Transport.Proofs.Registry.Catalogue
