import TezosSigner.Bytes
import TezosSigner.Labelled
import TezosSigner.Mode
import TezosSigner.Key.Curve
import TezosSigner.Key.Path
import TezosSigner.Wire.Error
import TezosSigner.Wire.StatusWord
import TezosSigner.Wire.Instruction
import TezosSigner.Wire.Packet
import TezosSigner.Wire.Format
import TezosSigner.Key.Layout
import TezosSigner.Baking.Mark
import TezosSigner.Wire.Request
import TezosSigner.Wire.Response
import TezosSigner.Hash.Blake2b
import TezosSigner.Hash.MessageBuffer
import TezosSigner.Operation.Magic
import TezosSigner.Operation.Tag
import TezosSigner.Operation.Group
import TezosSigner.Operation.BakingPayload
import TezosSigner.Error
import TezosSigner.Baking.Record
import TezosSigner.Prompt
import TezosSigner.Command
import TezosSigner.Platform.Dialog
import TezosSigner.Baking.Guard
import TezosSigner.Session
import TezosSigner.Answer
import TezosSigner.Signer.Pending
import TezosSigner.Signer.Policy
import TezosSigner.Signer.Step
import TezosSigner.Platform.Scripted
import TezosSigner.Platform.Exchange
import TezosSigner.Device
import TezosSigner.Proofs.Exchanges
import TezosSigner.Proofs.RecordCodec
import TezosSigner.Proofs.CanonicalRecords
import TezosSigner.Proofs.Wire.Keys
import TezosSigner.Proofs.Wire.Commands
import TezosSigner.Proofs.Wire.Responses
import TezosSigner.Proofs.Wire.KeyGrammar
import TezosSigner.Proofs.Wire.RoundTrips
import TezosSigner.Proofs.Message
import TezosSigner.Proofs.Signing
import TezosSigner.Proofs.Policy
import TezosSigner.Proofs.PayloadGrammar
import TezosSigner.Proofs.Templates
import TezosSigner.Proofs.Packets
import TezosSigner.Proofs.Steps
import TezosSigner.Proofs.History
import TezosSigner.Proofs.Requests
import TezosSigner.Proofs.Progress
import TezosSigner.Proofs.SigningCalls
import TezosSigner.Proofs.Authorization
import TezosSigner.Proofs.Consent
import TezosSigner.Proofs.StoreCalls
import TezosSigner.Proofs.StoredState
import TezosSigner.Proofs.Ledger
import TezosSigner.Proofs.HighWaterMark
import TezosSigner.Proofs.BakingRequests
import TezosSigner.Proofs.Refusals
import TezosSigner.Proofs.Resumption
import TezosSigner.Proofs.Causes
import TezosSigner.Proofs.Representation
import TezosSigner.Proofs.Chunks
import TezosSigner.Proofs.Isolation
import TezosSigner.Proofs.PacketStreams
import TezosSigner.Proofs.Parallel
import TezosSigner.Proofs.Conclusions
import TezosSigner.Proofs.Answers
import TezosSigner.Proofs.Counterparts
import TezosSigner.Proofs.HashPrefix
import TezosSigner.Proofs.HashOnly
import TezosSigner.Proofs.KeyOrigins
import TezosSigner.Proofs.SilentExports
import TezosSigner.Proofs.Machine.Access
import TezosSigner.Proofs.Machine.Keys
import TezosSigner.Proofs.Machine.Responses
import TezosSigner.Proofs.Machine.Requests
import TezosSigner.Proofs.Machine.Records
import TezosSigner.Proofs.Machine.Sessions
import TezosSigner.Proofs.Machine.Hashing
import TezosSigner.Proofs.Machine.Signing
import TezosSigner.Proofs.Machine.Steps
import TezosSigner.Proofs.Machine.Runs
