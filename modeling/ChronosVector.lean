import ChronosVector.Types
import ChronosVector.Lib.BoundedQueue
import ChronosVector.Lib.Cells
import ChronosVector.Lib.SortedMap
import ChronosVector.Kernels
import ChronosVector.RingBuffer
import ChronosVector.StorageBackend
import ChronosVector.Lib.LittleEndian
import ChronosVector.EngineMetadata
import ChronosVector.Engine
import ChronosVector.Eviction
import ChronosVector.Query
import ChronosVector.Api
import ChronosVector.Tier
import ChronosVector.Refinement
import ChronosVector.Steps
import ChronosVector.Recovery
import ChronosVector.Factories
import ChronosVector.Lifecycle
import ChronosVector.Exact
import ChronosVector.RecoveredWindow
import ChronosVector.BlockIds
import ChronosVector.Conservation
import ChronosVector.Schema
import ChronosVector.Copies
import ChronosVector.Durability
import ChronosVector.RangeQueries
import ChronosVector.Lib.Crc
import ChronosVector.BlockCodec
import ChronosVector.BitFlips
import ChronosVector.BlockRoundTrip
import ChronosVector.KeySpace
import ChronosVector.KeyedStore
import ChronosVector.EvictionRace
import ChronosVector.RaceInvariant
import ChronosVector.UnmixedBlocks
import ChronosVector.Lib.Runs
import ChronosVector.Lib.ValueSum
import ChronosVector.Threads
import ChronosVector.ThreadSteps
import ChronosVector.OneThread
import ChronosVector.SensorCreation
import ChronosVector.StatsRace
import ChronosVector.DroppedSensor
import ChronosVector.SensorView
import ChronosVector.RowPlaces
import ChronosVector.LifeInvariant
import ChronosVector.DropRace
import ChronosVector.FailedWrites
import ChronosVector.Isolation
import ChronosVector.Lib.PrefixKeys
import ChronosVector.Lib.ByteOrder
import ChronosVector.Restart
import ChronosVector.Boundary
import ChronosVector.BatchAppend
import ChronosVector.Lib.LongestPrefix
import ChronosVector.WindowEviction
import ChronosVector.BlockBounds
import ChronosVector.CorruptBlocks
import ChronosVector.Snapshots
import ChronosVector.NearestN
import ChronosVector.Overwrites
import ChronosVector.QueryRace
import ChronosVector.Cutoff
import ChronosVector.DecodedSizes
import ChronosVector.Canonical
import ChronosVector.QuantizedReads
import ChronosVector.RecoveryBuffers
import ChronosVector.Narrowing
import ChronosVector.Payloads
import ChronosVector.RealArith
import ChronosVector.StoredNorms
import ChronosVector.RecoveredNorms
import ChronosVector.AnomalyScores
import ChronosVector.Lib.CrcRemainder
import ChronosVector.Checksum
import ChronosVector.Accumulators
import ChronosVector.RingRuns
import ChronosVector.Detections
import ChronosVector.Quantizer
import ChronosVector.CosineRange
import ChronosVector.ExactKernels
import ChronosVector.ProducerGuard
import ChronosVector.Lib.PowersOfTwo
import ChronosVector.RingColumns
import ChronosVector.RingAllocation
import ChronosVector.Lib.Fairness
import ChronosVector.Lib.Perturbation
import ChronosVector.QuantizedRanking
import ChronosVector.Lib.WriteAheadLog
import ChronosVector.StoreLog
import ChronosVector.Crashes
import ChronosVector.SinkEvents
import ChronosVector.Lib.RankedLocks
import ChronosVector.LockOrder
import ChronosVector.Lib.UniqueOwner
import ChronosVector.EngineObjects
import ChronosVector.PassWork
import ChronosVector.EvictionLoop
import ChronosVector.Shutdown
import ChronosVector.Lib.SlidingWindow
import ChronosVector.EvictionSchedule
import ChronosVector.StoredBytes
import ChronosVector.DiskBytes
import ChronosVector.Lib.Unwinding
import ChronosVector.OwnCalls
import ChronosVector.RangeRace
import ChronosVector.WindowAnswers
