import Crawler.Action
import Crawler.Axis
import Crawler.Configuration.Reader
import Crawler.Console
import Crawler.Files
import Crawler.Hardware.Engine
import Crawler.Hardware.Operation
import Crawler.Hardware.Platform
import Crawler.Hardware.SpindleOutput
import Crawler.Homing.Cycle
import Crawler.Json.Reader
import Crawler.Json.Writer
import Crawler.Machine.Basic
import Crawler.Main
import Crawler.Motion.Dispatch
import Crawler.Number.Notation
import Crawler.Proofs.Abandonment
import Crawler.Proofs.Acceptance
import Crawler.Proofs.Accord
import Crawler.Proofs.Atomicity
import Crawler.Proofs.Cancellation
import Crawler.Proofs.Chronicle
import Crawler.Proofs.Conservation
import Crawler.Proofs.DepthTarget
import Crawler.Proofs.Direction
import Crawler.Proofs.Disturbance
import Crawler.Proofs.Drives
import Crawler.Proofs.Durability
import Crawler.Proofs.Edits
import Crawler.Proofs.Envelope
import Crawler.Proofs.FeedCeiling
import Crawler.Proofs.Gate
import Crawler.Proofs.Homing
import Crawler.Proofs.Interrupt
import Crawler.Proofs.Inversion
import Crawler.Proofs.Isolation
import Crawler.Proofs.Laser
import Crawler.Proofs.Launch
import Crawler.Proofs.Laziness
import Crawler.Proofs.Legibility
import Crawler.Proofs.MoveSize
import Crawler.Proofs.MoveTime
import Crawler.Proofs.NormalForm
import Crawler.Proofs.Notices
import Crawler.Proofs.Plan
import Crawler.Proofs.Platform
import Crawler.Proofs.Precision
import Crawler.Proofs.Quiescence
import Crawler.Proofs.Readiness
import Crawler.Proofs.Reference
import Crawler.Proofs.Refusal
import Crawler.Proofs.Request
import Crawler.Proofs.Restoration
import Crawler.Proofs.Run
import Crawler.Proofs.Seeding
import Crawler.Proofs.Sequence
import Crawler.Proofs.Sign
import Crawler.Proofs.Single
import Crawler.Proofs.Sound
import Crawler.Proofs.StartTimes
import Crawler.Proofs.Stoppage
import Crawler.Proofs.Termination
import Crawler.Proofs.Timeline
import Crawler.Proofs.Tracks
import Crawler.Request
import Crawler.Sense
import Crawler.Setting.Document
import Crawler.Setting.Fault
import Crawler.Setting.Snapshot
import Crawler.Spindle
