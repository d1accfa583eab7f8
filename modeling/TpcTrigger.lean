import TpcTrigger.Bytes
import TpcTrigger.Capture.Reader
import TpcTrigger.Capture.Writer
import TpcTrigger.Command.Action
import TpcTrigger.Command.Invocation
import TpcTrigger.Command.Log
import TpcTrigger.Command.Session
import TpcTrigger.Decimal.Binary
import TpcTrigger.Decimal.Layout
import TpcTrigger.Decimal.Numeral
import TpcTrigger.Decimal.Shortest
import TpcTrigger.Detection.Channel
import TpcTrigger.Detection.Channelwise
import TpcTrigger.Detection.Hit
import TpcTrigger.Detection.Kernel
import TpcTrigger.Detection.Lanes
import TpcTrigger.Detection.Lockstep
import TpcTrigger.Detection.Shape
import TpcTrigger.Files.Directory
import TpcTrigger.Files.Trouble
import TpcTrigger.Filter.Design
import TpcTrigger.Filter.FixedPoint
import TpcTrigger.Finder
import TpcTrigger.Frame.Codec
import TpcTrigger.Frame.Header
import TpcTrigger.Geometry
import TpcTrigger.Main
import TpcTrigger.Pipeline.Continuity
import TpcTrigger.Pipeline.Dispatcher
import TpcTrigger.Pipeline.Feed
import TpcTrigger.Pipeline.Fifo
import TpcTrigger.Pipeline.Flow
import TpcTrigger.Pipeline.Ingest
import TpcTrigger.Pipeline.Lag
import TpcTrigger.Pipeline.Merger
import TpcTrigger.Pipeline.Metrics
import TpcTrigger.Pipeline.Partition
import TpcTrigger.Pipeline.Reference
import TpcTrigger.Pipeline.Schedule
import TpcTrigger.Pipeline.Start
import TpcTrigger.Pipeline.Worker
import TpcTrigger.Random.Cipher
import TpcTrigger.Random.Draw
import TpcTrigger.Random.WordStream
import TpcTrigger.Samples.Block
import TpcTrigger.Samples.Window
import TpcTrigger.Word
import TpcTrigger.Settings.Basic
import TpcTrigger.Settings.Check
import TpcTrigger.Settings.Read
import TpcTrigger.Settings.Render
import TpcTrigger.Signal.DelayLine
import TpcTrigger.Signal.Excursion
import TpcTrigger.Signal.Tracker
import TpcTrigger.Store
import TpcTrigger.Store.Render
import TpcTrigger.Superchunk
import TpcTrigger.Synthetic.Message
import TpcTrigger.Synthetic.Settings
import TpcTrigger.Synthetic.Stream
import TpcTrigger.Text.Quoted
import TpcTrigger.Text.Shapeless
import TpcTrigger.Yaml.Anchors
import TpcTrigger.Yaml.Cursor
import TpcTrigger.Yaml.Directive
import TpcTrigger.Yaml.Document
import TpcTrigger.Yaml.Lexer
import TpcTrigger.Yaml.Node
import TpcTrigger.Yaml.Scalar
import TpcTrigger.Yaml.Tag
import TpcTrigger.Yaml.Token
import TpcTrigger.Proofs.Detection.ChannelHistory
import TpcTrigger.Proofs.Detection.MaskedLanes
import TpcTrigger.Proofs.Detection.LaneSimulation
import TpcTrigger.Proofs.Samples.BlockLayout
import TpcTrigger.Proofs.Detection.KernelForm
import TpcTrigger.Proofs.Detection.CarriedStates
import TpcTrigger.Proofs.Detection.WindowCuts
import TpcTrigger.Proofs.Detection.HitRuns
import TpcTrigger.Proofs.Detection.LongRuns
import TpcTrigger.Proofs.Pipeline.WorkerCourse
import TpcTrigger.Proofs.Samples.WindowSequence
import TpcTrigger.Proofs.Samples.BufferAssembly
import TpcTrigger.Proofs.Samples.AssemblyAnswers
import TpcTrigger.Proofs.Settings.CheckedSettings
import TpcTrigger.Proofs.Pipeline.DispatchCourse
import TpcTrigger.Proofs.Pipeline.MergeCourse
import TpcTrigger.Proofs.Pipeline.Crew
import TpcTrigger.Proofs.Pipeline.PipelineCourse
import TpcTrigger.Proofs.Pipeline.SequentialSearch
import TpcTrigger.Proofs.Store.Batches
import TpcTrigger.Proofs.Samples.StreamSamples
import TpcTrigger.Proofs.Detection.PrimitiveTimes
import TpcTrigger.Proofs.Pipeline.StoredRuns
import TpcTrigger.Proofs.Pipeline.Refinement
import TpcTrigger.Proofs.Signal.TrackerRange
import TpcTrigger.Proofs.Detection.WordRange
import TpcTrigger.Proofs.Detection.TickWords
import TpcTrigger.Proofs.Pipeline.Steps
import TpcTrigger.Proofs.Pipeline.Tally
import TpcTrigger.Proofs.Pipeline.Wiring
import TpcTrigger.Proofs.Pipeline.StopRequest
import TpcTrigger.Proofs.Pipeline.IdleReadings
import TpcTrigger.Proofs.Pipeline.Effort
import TpcTrigger.Proofs.Pipeline.Progress
import TpcTrigger.Proofs.Pipeline.Draining
import TpcTrigger.Proofs.Pipeline.Settling
import TpcTrigger.Proofs.Pipeline.EventLog
import TpcTrigger.Proofs.Pipeline.LogCourse
import TpcTrigger.Proofs.Pipeline.FaultIsolation
import TpcTrigger.Proofs.Frame.BitFields
import TpcTrigger.Proofs.Frame.HeaderBytes
import TpcTrigger.Proofs.Frame.RoundTrip
import TpcTrigger.Proofs.Samples.ReadoutRange
import TpcTrigger.Proofs.Frame.SuperchunkDecoding
import TpcTrigger.Proofs.Pipeline.ContiguousStream
import TpcTrigger.Proofs.Pipeline.FeedCourse
import TpcTrigger.Proofs.Pipeline.Delivery
import TpcTrigger.Proofs.Pipeline.GapCounts
import TpcTrigger.Proofs.Pipeline.MergedTotals
import TpcTrigger.Proofs.Pipeline.CallAnswers
import TpcTrigger.Proofs.Pipeline.Accounting
import TpcTrigger.Proofs.Detection.CheckedAccess
import TpcTrigger.Proofs.Detection.CheckedRegisters
import TpcTrigger.Proofs.Pipeline.FaultFree
import TpcTrigger.Proofs.Store.NewestPrimitives
import TpcTrigger.Proofs.Capture.Replay
import TpcTrigger.Proofs.Signal.TrackerLevel
import TpcTrigger.Proofs.Signal.QuartileOrder
import TpcTrigger.Proofs.Signal.SlidingEntries
import TpcTrigger.Proofs.Detection.SlidingFilter
import TpcTrigger.Proofs.Detection.QuietInput
import TpcTrigger.Proofs.Signal.WholeRuns
import TpcTrigger.Proofs.Detection.ReportedRuns
import TpcTrigger.Proofs.Detection.ThresholdFactor
import TpcTrigger.Proofs.Signal.ShiftedLevels
import TpcTrigger.Proofs.Detection.ShiftedBaseline
import TpcTrigger.Proofs.Pipeline.Handover
import TpcTrigger.Proofs.Pipeline.MergerTiming
import TpcTrigger.Proofs.Capture.FailedReads
import TpcTrigger.Proofs.Detection.SeparateChannels
import TpcTrigger.Proofs.Synthetic.SampleWalk
import TpcTrigger.Proofs.Synthetic.PulseBlocks
import TpcTrigger.Proofs.Synthetic.WireStream
import TpcTrigger.Proofs.Pipeline.QueueLatency
import TpcTrigger.Proofs.Signal.TrackerCourse
import TpcTrigger.Proofs.Signal.HeldSample
