import EmuFront.App.Entry
import EmuFront.Config
import EmuFront.Crash.Artifact
import EmuFront.Crash.Capture
import EmuFront.Crash.Panic
import EmuFront.Crash.Record
import EmuFront.Crash.Reporter
import EmuFront.Crash.Retry
import EmuFront.Engine.Call
import EmuFront.Engine.Params
import EmuFront.Engine.Recording
import EmuFront.Failure
import EmuFront.Front.Answer
import EmuFront.Front.Input
import EmuFront.Front.Lifecycle
import EmuFront.Front.Menus
import EmuFront.Front.Op
import EmuFront.Front.Run
import EmuFront.Front.Stack
import EmuFront.Front.World
import EmuFront.Machine.Basic
import EmuFront.Machine.Event
import EmuFront.Native.Bridge
import EmuFront.Native.Call
import EmuFront.Native.Entry
import EmuFront.Overlay.Basic
import EmuFront.Overlay.DiskImage
import EmuFront.Overlay.Kind
import EmuFront.Overlay.Making
import EmuFront.Overlay.Menu
import EmuFront.Overlay.Splash
import EmuFront.Path
import EmuFront.Proofs.Attempts
import EmuFront.Proofs.Bounds
import EmuFront.Proofs.Course
import EmuFront.Proofs.Decoding
import EmuFront.Proofs.Deletion
import EmuFront.Proofs.Directories
import EmuFront.Proofs.EngineView
import EmuFront.Proofs.Ensures
import EmuFront.Proofs.Follow
import EmuFront.Proofs.HostCourse
import EmuFront.Proofs.Outcomes
import EmuFront.Proofs.Persistence
import EmuFront.Proofs.Places
import EmuFront.Proofs.Quiet
import EmuFront.Proofs.Reached
import EmuFront.Proofs.RunCourse
import EmuFront.Proofs.Scanning
import EmuFront.Proofs.SentReports
import EmuFront.Proofs.SessionInvariants
import EmuFront.Proofs.SignalLog
import EmuFront.Proofs.Signals
import EmuFront.Proofs.Sound
import EmuFront.Proofs.StackCourse
import EmuFront.Proofs.Transmission
import EmuFront.Proofs.Walking
import EmuFront.RunState
import EmuFront.Session
import EmuFront.Single
import EmuFront.Startup
import EmuFront.Storage.Disk
import EmuFront.Storage.OsError
import EmuFront.Storage.Tree
import EmuFront.Text.Flags
import EmuFront.Text.Utf8
import EmuFront.Text.Cut
import EmuFront.Touch.Reply
import EmuFront.Touch.Sample
import EmuFront.Proofs.ReporterRuns
import EmuFront.Proofs.HostReports
import EmuFront.Proofs.RecordLines
import EmuFront.Proofs.Passage
import EmuFront.Proofs.StackPassage
import EmuFront.Proofs.HostPassage
import EmuFront.Proofs.Custody
import EmuFront.Proofs.OverlayRuns
import EmuFront.Proofs.NativeMessages
import EmuFront.Proofs.EntryPassage
import EmuFront.Proofs.NativeRuns
import EmuFront.Proofs.TouchSlots
import EmuFront.Proofs.TouchArrays
import EmuFront.Proofs.Cutting
import EmuFront.Proofs.Readings
import EmuFront.Proofs.ReportWriting
import EmuFront.Proofs.Sources
import EmuFront.Proofs.Listing
import EmuFront.Proofs.Startups
import EmuFront.Proofs.Burden
import EmuFront.Proofs.Draining
import EmuFront.Proofs.Renumbering
import EmuFront.Proofs.Mirroring
import EmuFront.Proofs.MirroredActs
import EmuFront.Proofs.MirroredSteps
import EmuFront.Proofs.DoublePush
import EmuFront.Proofs.Listening
import EmuFront.Proofs.Removals
import EmuFront.Proofs.Prompts
import EmuFront.Proofs.TouchReplies
import EmuFront.Proofs.SparedSplash
import EmuFront.Proofs.LockedSplash
import EmuFront.Proofs.DiskListings
import EmuFront.Proofs.DiskChoices
import EmuFront.Proofs.AppTraces
import EmuFront.Proofs.KeyStrokes
import EmuFront.Proofs.Letters
import EmuFront.Proofs.DiskNames
