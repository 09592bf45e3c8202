import PenRail.Bench.Session
import PenRail.Bench.World
import PenRail.Main
import PenRail.Proofs.Bus.RegisterChip
import PenRail.Proofs.Bus.MaskedAssignment
import PenRail.Proofs.Words
import PenRail.Proofs.Rail.Plant
import PenRail.Proofs.Rail.Moves
import PenRail.Proofs.Rail.Phases
import PenRail.Proofs.Rail.Session
import PenRail.Proofs.Rail.StateMachine
import PenRail.Proofs.Rail.SwitchOn
import PenRail.Proofs.Rail.OnOffBit
import PenRail.Proofs.Rail.StoredVcom
import PenRail.Proofs.Rail.Switches
import PenRail.Proofs.Course
import PenRail.Proofs.Places
import PenRail.Proofs.Terms
import PenRail.Proofs.Layers
import PenRail.Proofs.Lengths
import PenRail.Proofs.Command.Tasks
import PenRail.Proofs.Command.Deeds
import PenRail.Proofs.Command.Checked
import PenRail.Proofs.Command.Looks
import PenRail.Proofs.Command.Preparing
import PenRail.Proofs.Command.ForwardLoop
import PenRail.Proofs.Command.ReportLines
import PenRail.Proofs.Command.NumberedReports
import PenRail.Proofs.Rail.AfterSwitch
import PenRail.Proofs.Command.RailChip
import PenRail.Proofs.Command.PowerEnable
import PenRail.Proofs.Command.Played
import PenRail.Proofs.Command.Polarity
import PenRail.Proofs.Pen.Keys
import PenRail.Proofs.Pen.ToolLatch
import PenRail.Proofs.Pen.ReportLayout
import PenRail.Proofs.Pen.CapabilityLayout
import PenRail.Proofs.Pen.Notified
import PenRail.Proofs.Pen.Forwarding
import PenRail.Proofs.Pen.RefusedFrames
import PenRail.Proofs.Uinput.RefusedBatches
import PenRail.Proofs.Uinput.Batches
import PenRail.Proofs.Uinput.Advertised
import PenRail.Proofs.Rail.RampDown
import PenRail.Proofs.Rail.SwitchOff
import PenRail.Proofs.Rail.Recovery
import PenRail.Proofs.Rail.VcomReadBack
import PenRail.Proofs.Rail.VcomWriteBack
import PenRail.Proofs.Rail.PowerGoodWait
import PenRail.Proofs.Rail.ChipContents
import PenRail.Proofs.Rail.RegisterWrites
import PenRail.Proofs.Rail.LastFault
import PenRail.Proofs.Toml.DistinctKeys
import PenRail.Proofs.Config.Readings
import PenRail.Proofs.Config.Acceptance
import PenRail.Proofs.Config.FirstFile
import PenRail.Proofs.Config.AddressGrammar
import PenRail.Proofs.Alike
import PenRail.Proofs.Abreast
import PenRail.Proofs.Binding
