import MidiStorage.Bytes
import MidiStorage.Failure
import MidiStorage.Text.CharClass
import MidiStorage.Text.Decimal
import MidiStorage.Text.Utf8
import MidiStorage.Framer
import MidiStorage.Timing
import MidiStorage.Identity
import MidiStorage.Job
import MidiStorage.Action
import MidiStorage.Run
import MidiStorage.Port.Basic
import MidiStorage.Port.Virtual
import MidiStorage.Port.Scripted
import MidiStorage.ReplyCache
import MidiStorage.Link
import MidiStorage.Exchange
import MidiStorage.Text.Split
import MidiStorage.DevicePath
import MidiStorage.LocalPath
import MidiStorage.Operation
import MidiStorage.Item
import MidiStorage.DeviceInfo
import MidiStorage.Eventide.Message
import MidiStorage.Eventide.Preset
import MidiStorage.Eventide.Pedal
import MidiStorage.Device
import MidiStorage.Volume.Naming
import MidiStorage.Volume.Basic
import MidiStorage.Mount
import MidiStorage.Browse
import MidiStorage.Dialect
import MidiStorage.Detection
import MidiStorage.Eventide.Presets
import MidiStorage.Eventide.Dialect
import MidiStorage.Registry
import MidiStorage.Json.Basic
import MidiStorage.Json.Reader
import MidiStorage.Json.Decode
import MidiStorage.Records
import MidiStorage.Host
import MidiStorage.Port.Node
import MidiStorage.PortId
import MidiStorage.JobId
import MidiStorage.Rehearsal.Rig
import MidiStorage.Rehearsal.Volume
import MidiStorage.Rehearsal.Dialect
import MidiStorage.Proofs.Action
import MidiStorage.Proofs.Layers
import MidiStorage.Proofs.Framing.Grammar
import MidiStorage.Proofs.Framing.Chunks
import MidiStorage.Proofs.Framing.Whole
import MidiStorage.Proofs.Transfer.Sending
import MidiStorage.Proofs.Transfer.Exchanges
import MidiStorage.Proofs.Text.Numeral
import MidiStorage.Proofs.Eventide.Storing
import MidiStorage.Proofs.Transfer.Receiving
import MidiStorage.Proofs.Eventide.Retarget
import MidiStorage.Proofs.Eventide.StaleBank
import MidiStorage.Proofs.Text.Ascii
import MidiStorage.Proofs.Eventide.Dump
import MidiStorage.Proofs.Transfer.Conversation
import MidiStorage.Proofs.Eventide.Renaming
import MidiStorage.Proofs.Eventide.Slots
import MidiStorage.Proofs.Eventide.Mirror
import MidiStorage.Proofs.Eventide.Refinement
import MidiStorage.Proofs.Transfer.Replies
import MidiStorage.Proofs.Transfer.Draining
import MidiStorage.Proofs.Detection.Search
import MidiStorage.Proofs.Detection.Register
import MidiStorage.Proofs.Detection.Rehearsed
import MidiStorage.Proofs.Detection.Dispatch
import MidiStorage.Proofs.Detection.Isolation
import MidiStorage.Proofs.Eventide.Handshake
import MidiStorage.Proofs.Transfer.Ready
import MidiStorage.Proofs.Transfer.Lossless
import MidiStorage.Proofs.Transfer.Turns
import MidiStorage.Proofs.Detection.Known
import MidiStorage.Proofs.Cache.Uses
import MidiStorage.Proofs.Cache.Transparent
import MidiStorage.Proofs.Cache.Durable
import MidiStorage.Proofs.Cache.Deeds
import MidiStorage.Proofs.Cache.Batches
import MidiStorage.Proofs.Cache.Writes
import MidiStorage.Proofs.Transfer.Stopped
import MidiStorage.Proofs.Cancelling.Completion
import MidiStorage.Proofs.Cancelling.Final
import MidiStorage.Proofs.Cancelling.LastLook
import MidiStorage.Proofs.Eventide.SingleMessage
import MidiStorage.Proofs.Eventide.Framed
import MidiStorage.Proofs.Eventide.NewName
import MidiStorage.Proofs.Transfer.Faults
import MidiStorage.Proofs.Text.Integer
import MidiStorage.Proofs.Identity
import MidiStorage.Proofs.Eventide.SlotRange
import MidiStorage.Proofs.Eventide.Questions
import MidiStorage.Proofs.Eventide.Recognition
import MidiStorage.Proofs.Eventide.BankNumbers
import MidiStorage.Proofs.Eventide.Listing
import MidiStorage.Proofs.Browsing.Paths
import MidiStorage.Proofs.Browsing.Requests
import MidiStorage.Proofs.Browsing.Dispatch
import MidiStorage.Proofs.Browsing.UploadPaths
import MidiStorage.Proofs.Transfer.BrokenOff
import MidiStorage.Proofs.Transfer.Polling
import MidiStorage.Proofs.Transfer.Precedence
import MidiStorage.Proofs.Transfer.Gathering
import MidiStorage.Proofs.Transfer.Replay
import MidiStorage.Proofs.Transfer.LostInput
import MidiStorage.Proofs.Cache.Provenance
import MidiStorage.Proofs.Text.Lines
import MidiStorage.Proofs.Text.Decoding
import MidiStorage.Proofs.Eventide.RoundTrip
import MidiStorage.Proofs.Eventide.Retagging
import MidiStorage.Proofs.Eventide.Recopying
import MidiStorage.Proofs.Eventide.Mounting
import MidiStorage.Proofs.Eventide.BulkReads
import MidiStorage.Proofs.Eventide.Refusals
import MidiStorage.Proofs.Eventide.RenameTargets
import MidiStorage.Proofs.Eventide.Visits
import MidiStorage.Proofs.Eventide.Relays
import MidiStorage.Proofs.Progress.Parts
import MidiStorage.Proofs.Browsing.ItemPaths
import MidiStorage.Proofs.Text.ByteOrder
import MidiStorage.Proofs.Browsing.Listings
import MidiStorage.Proofs.Progress.Completion
import MidiStorage.Proofs.Framing.Balance
import MidiStorage.Proofs.Browsing.Downloads
import MidiStorage.Proofs.Transfer.StaleInput
import MidiStorage.Proofs.Eventide.Numbers
