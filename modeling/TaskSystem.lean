import TaskSystem.Library.CPlatform
import TaskSystem.Library.Fifo
import TaskSystem.Library.Memory
import TaskSystem.Library.RecordRing
import TaskSystem.Library.Rollover
import TaskSystem.Library.Transition
import TaskSystem.Messages.RoundTrip
import TaskSystem.Messages.Serialization
import TaskSystem.Messages.Types
import TaskSystem.MsgQueue.CircularMsgQ
import TaskSystem.MsgQueue.Refinement
import TaskSystem.MsgQueue.Mailbox
import TaskSystem.MsgQueue.Receive
import TaskSystem.MsgQueue.Drained
import TaskSystem.MsgQueue.Offsets
import TaskSystem.MsgQueue.Room
import TaskSystem.Library.SlotArray
import TaskSystem.Tasks.DatabaseTask
import TaskSystem.Tasks.DatabaseTask.Response
import TaskSystem.Tasks.DatabaseTask.Store
import TaskSystem.System.Repository
import TaskSystem.Library.MapM
import TaskSystem.Library.Sorting
import TaskSystem.Tasks.SampleSortTask
import TaskSystem.Tasks.BucketTask
import TaskSystem.Tasks.SampleSort.Sorts
import TaskSystem.Tasks.SampleSort.Comparators
import TaskSystem.Tasks.SampleSort.SetUp
import TaskSystem.Library.Network
import TaskSystem.MsgQueue.Post
import TaskSystem.System.TaskReceive
import TaskSystem.System.Station
import TaskSystem.System.ReceiveCall
import TaskSystem.Tasks.Receivers
import TaskSystem.Tasks.SampleSort.Program
import TaskSystem.Tasks.SampleSort.Scripts
import TaskSystem.Tasks.SampleSort.Phases
import TaskSystem.Tasks.SampleSort.Invariant
import TaskSystem.Tasks.SampleSort.RootSteps
import TaskSystem.Tasks.SampleSort.BucketSteps
import TaskSystem.Tasks.SampleSort.Protocol
import TaskSystem.Tasks.SampleSort.Lifetime
import TaskSystem.Tasks.ClientTask
import TaskSystem.Tasks.DatabaseTask.Program
import TaskSystem.Tasks.DatabaseTask.Service
import TaskSystem.Tasks.DatabaseTask.ServiceSteps
import TaskSystem.Tasks.DatabaseTask.Clients
import TaskSystem.Tasks.DatabaseTask.Deletion
import TaskSystem.Tasks.DatabaseTask.Copies
import TaskSystem.Tasks.DatabaseTask.Answers
import TaskSystem.Messages.Sizes
import TaskSystem.System.Runtime
import TaskSystem.System.TaskTable
import TaskSystem.System.Identity
import TaskSystem.System.WaitSignal
import TaskSystem.System.MissingQueue
import TaskSystem.Tasks.WeatherTasks
import TaskSystem.Tasks.WeatherNames
import TaskSystem.Tasks.SendTargets
import TaskSystem.Library.CellRing
import TaskSystem.Benchmarks.SharedIpc
import TaskSystem.Benchmarks.SharedIpc.Invariant
import TaskSystem.Benchmarks.SharedIpc.Completion
import TaskSystem.Benchmarks.StreamReceivers
import TaskSystem.Library.Text
import TaskSystem.Tools.ValidateResult
import TaskSystem.Tools.ValidateResult.Verdict
import TaskSystem.Exploration.ThreadSampleSort
import TaskSystem.Exploration.ThreadSampleSort.Sampling
import TaskSystem.Exploration.ThreadSampleSort.Invariant
import TaskSystem.Exploration.ThreadSampleSort.Sorts
import TaskSystem.Library.TwoPass
import TaskSystem.Tasks.SampleSort.Passes
import TaskSystem.Library.Bins
import TaskSystem.Tasks.SampleSort.Uniform
import TaskSystem.TimeHelper
import TaskSystem.Library.CriticalSection
import TaskSystem.MsgQueue.QLock
import TaskSystem.System.RepositoryLock
import TaskSystem.Tasks.SampleSort.Arrays
import TaskSystem.Tasks.SampleSort.ArraySteps
import TaskSystem.Tasks.SampleSort.ArrayProtocol
import TaskSystem.Tasks.SampleSort.ArrayInvariant
import TaskSystem.Library.NetworkRank
import TaskSystem.Tasks.SampleSort.Ranks
import TaskSystem.Tasks.SampleSort.Completion
import TaskSystem.Tasks.SampleSort.EarlyReturn
import TaskSystem.Tasks.SampleSort.SortedOutput
import TaskSystem.Tasks.SampleSort.ValidatedOutput
import TaskSystem.Tasks.DatabaseTask.Ranks
import TaskSystem.Tasks.DatabaseTask.Completion
import TaskSystem.System.StationReceive
import TaskSystem.Tasks.WeatherStation
import TaskSystem.Tasks.WeatherClient
import TaskSystem.Tasks.WeatherNet
import TaskSystem.Tasks.WeatherDelivery
import TaskSystem.Library.LinkedCells
import TaskSystem.Benchmarks.LinkedList
import TaskSystem.Benchmarks.LinkedList.Refinement
import TaskSystem.Benchmarks.PthreadInproc
import TaskSystem.Benchmarks.PthreadInproc.Counts
