import WordMachine.Main
import WordMachine.Proofs.Text.Utf8
import WordMachine.Proofs.Device.Breaks
import WordMachine.Proofs.Json.Decimal
import WordMachine.Proofs.Json.Value
import WordMachine.Proofs.Snapshot.Words
import WordMachine.Proofs.Snapshot.Object
import WordMachine.Proofs.Snapshot.Found
import WordMachine.Proofs.Snapshot.Parts
import WordMachine.Proofs.Snapshot.Members
import WordMachine.Proofs.Disk.Replace
import WordMachine.Proofs.Disk.Directories
import WordMachine.Proofs.Disk.Found
import WordMachine.Proofs.Disk.Staging
import WordMachine.Proofs.Text.Numeral
import WordMachine.Proofs.Text.Blank
import WordMachine.Proofs.Command.Grammar
import WordMachine.Proofs.Console.Turn
import WordMachine.Proofs.Slot.RoundTrip
import WordMachine.Proofs.Slot.AllOrNothing
import WordMachine.Proofs.Slot.Alike
import WordMachine.Proofs.Slot.Torn
import WordMachine.Proofs.Slot.Rendering
import WordMachine.Proofs.Console.Stream
import WordMachine.Proofs.Console.Comparison
import WordMachine.Proofs.Console.Capacity
import WordMachine.Proofs.Console.Retry
import WordMachine.Proofs.Machine.Step
import WordMachine.Proofs.Machine.Comparison
import WordMachine.Proofs.Machine.Unseen
import WordMachine.Proofs.Machine.Moment
import WordMachine.Proofs.Machine.Resumable
import WordMachine.Proofs.Machine.Setting
import WordMachine.Proofs.Machine.Quiet
import WordMachine.Proofs.Machine.Rewind
import WordMachine.Proofs.Machine.Reload
import WordMachine.Proofs.Machine.Schedule
import WordMachine.Proofs.Machine.MoreInput
import WordMachine.Proofs.Machine.Capacity
import WordMachine.Proofs.Machine.Retry
import WordMachine.Proofs.Console.Loads
import WordMachine.Proofs.Machine.Loads
import WordMachine.Proofs.Machine.Stack
import WordMachine.Proofs.Machine.Verdict
import WordMachine.Proofs.Console.Queue
import WordMachine.Proofs.Machine.Words
import WordMachine.Proofs.Machine.Checked
import WordMachine.Proofs.Listing.Lines
import WordMachine.Proofs.Listing.Lossless
import WordMachine.Proofs.Memory.Image
import WordMachine.Proofs.Machine.Boundaries
import WordMachine.Proofs.Machine.Rules
import WordMachine.Proofs.Console.Request
import WordMachine.Proofs.Machine.Unfinished
import WordMachine.Proofs.Machine.Writes
import WordMachine.Proofs.Listing.Append
import WordMachine.Proofs.Machine.Arithmetic
import WordMachine.Proofs.Listing.Writing
import WordMachine.Proofs.Console.Emission
import WordMachine.Proofs.Console.Calls
