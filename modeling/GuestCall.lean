import GuestCall.Host
import GuestCall.Ledger.Scripted
import GuestCall.Sample.Catalog
import GuestCall.Wasm.Mnemonic
import GuestCall.Proofs.Ledger.Compaction
import GuestCall.Proofs.Scalar.Layout
import GuestCall.Proofs.Wasm.Format
import GuestCall.Proofs.Draft.Image
import GuestCall.Proofs.Signature.Json
import GuestCall.Proofs.Wasm.Quiet
import GuestCall.Proofs.Wasm.Stepping
import GuestCall.Proofs.Sample.Calls
import GuestCall.Proofs.Memory.Styles
import GuestCall.Proofs.Call.Styles
import GuestCall.Proofs.Wasm.Growth
import GuestCall.Proofs.Call.Steps
import GuestCall.Proofs.Call.Course
import GuestCall.Proofs.Call.Service
import GuestCall.Proofs.Call.Arrays
import GuestCall.Proofs.Call.Contents
import GuestCall.Proofs.Sample.Runs
import GuestCall.Proofs.Draft.Steps
import GuestCall.Proofs.Call.Planning
import GuestCall.Proofs.Draft.Reserved
import GuestCall.Proofs.Guest.Blocks
import GuestCall.Proofs.Call.Conventions
import GuestCall.Proofs.Call.Staleness
import GuestCall.Proofs.Call.Descriptor
import GuestCall.Proofs.Call.Shadowing
import GuestCall.Proofs.Host.Keeping
import GuestCall.Proofs.Config.Json
import GuestCall.Proofs.Call.Traps
import GuestCall.Proofs.Ledger.Closing
import GuestCall.Proofs.Call.Wrapping
import GuestCall.Proofs.Call.Answers
import GuestCall.Proofs.Sample.Numbers
import GuestCall.Proofs.Sample.Doubling
import GuestCall.Proofs.Sample.Hello
import GuestCall.Proofs.Sample.Folds
import GuestCall.Proofs.Memory.Arrays
import GuestCall.Proofs.Call.Scalars
import GuestCall.Proofs.Memory.Laws
import GuestCall.Proofs.Draft.Interning
import GuestCall.Proofs.Draft.Clashes
import GuestCall.Proofs.Call.Acceptance
import GuestCall.Proofs.Scalar.Changes
