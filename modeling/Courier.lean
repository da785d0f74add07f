import Courier.Text.Blank
import Courier.Device.Script
import Courier.Socket.Emulator
import Courier.Main
import Courier.Proofs.Store.Reassembly
import Courier.Proofs.Store.Deduplication
import Courier.Proofs.Store.Linking
import Courier.Proofs.Store.Contents
import Courier.Proofs.Store.Writes
import Courier.Proofs.Chain.Commitment
import Courier.Proofs.Transfer.History
import Courier.Proofs.Transfer.Rounds
import Courier.Proofs.Transfer.Loop
import Courier.Proofs.Transfer.Blame
import Courier.Proofs.Transfer.Provenance
import Courier.Proofs.Device.Integrity
import Courier.Proofs.Device.Session
import Courier.Proofs.Device.RoundTrip
import Courier.Proofs.Device.HashChecks
import Courier.Proofs.Device.Stall
import Courier.Proofs.Device.StoreWalk
import Courier.Proofs.Device.PullPlan
import Courier.Proofs.Strategy.FrameBound
import Courier.Proofs.Signer.Turns
import Courier.Proofs.Signer.Binding
import Courier.Proofs.Signer.Payloads
import Courier.Proofs.Signer.Sessions
import Courier.Proofs.Client.Signing
import Courier.Proofs.Client.Modes
import Courier.Proofs.Client.Operations
import Courier.Proofs.Message.Acceptance
import Courier.Proofs.Socket.Alignment
import Courier.Proofs.Settings.Precedence
import Courier.Proofs.Device.PlainFrames
import Courier.Proofs.Client.Mismatch
import Courier.Proofs.Device.Phases
import Courier.Proofs.Strategy.Frames
import Courier.Proofs.Path.Grammar
import Courier.Proofs.Signer.Acceptance
import Courier.Proofs.Client.Answers
