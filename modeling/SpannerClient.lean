import SpannerClient.Internal.BeginOnce
import SpannerClient.Internal.DefectiveStream
import SpannerClient.Internal.ExactlyOnce
import SpannerClient.Internal.ResumedRows
import SpannerClient.Internal.PoolCapacity
import SpannerClient.Internal.PoolWakeups
import SpannerClient.Client
import SpannerClient.CommitProtocol
import SpannerClient.Internal.RetryLoop
import SpannerClient.Protobuf.Spanner
import SpannerClient.Internal.Visit
import SpannerClient.Internal.ConnectionImpl
import SpannerClient.Internal.OperationPasses
import SpannerClient.Internal.BeginSelector
import SpannerClient.Internal.SessionUse
import SpannerClient.Internal.VisitContract
import SpannerClient.Internal.PartitionTransaction
import SpannerClient.PartitionHandOver
import SpannerClient.Internal.PoolTransfers
import SpannerClient.Internal.SessionLifetime
import SpannerClient.Internal.DeadSession
import SpannerClient.Internal.ChunkSplits
import SpannerClient.Internal.VisitWakeups
import SpannerClient.Internal.VisitOrder
import SpannerClient.Internal.ResumeStatus
import SpannerClient.Internal.PartitionedSession
import SpannerClient.Library.CString
import SpannerClient.IamUpdates
import SpannerClient.BytesCodec
import SpannerClient.Date
import SpannerClient.Internal.Date
import SpannerClient.Internal.TimeFormat
import SpannerClient.TimestampText
import SpannerClient.Library.Truncation
import SpannerClient.TimestampRoundTrip
import SpannerClient.TimestampOffset
import SpannerClient.CppType
import SpannerClient.ValueEncoding
import SpannerClient.ValueDecoding
import SpannerClient.ValueEquality
import SpannerClient.ValueRoundTrip
import SpannerClient.ValueTypes
import SpannerClient.ValueBounds
import SpannerClient.ValueDifference
import SpannerClient.ValueReflexive
import SpannerClient.ValueOptional
import SpannerClient.Internal.PoolGrowth
import SpannerClient.Internal.PoolMaintenance
import SpannerClient.Internal.PoolKeepAlive
import SpannerClient.Internal.RetryOutcome
import SpannerClient.Protobuf.Operation
import SpannerClient.Internal.PollingLoop
import SpannerClient.RowStream
import SpannerClient.Library.Iteration
import SpannerClient.RowIteration
import SpannerClient.Library.CheckedInt
import SpannerClient.TimestampChrono
import SpannerClient.TimestampRatio
import SpannerClient.ChronoRoundTrip
import SpannerClient.Library.DayNumbers
import SpannerClient.CivilTime
import SpannerClient.DateNormalisation
import SpannerClient.Library.IntegerText
import SpannerClient.Internal.FullDate
import SpannerClient.ScalarText
import SpannerClient.Internal.ParseInt
import SpannerClient.TimestampProto
import SpannerClient.Protobuf.InstanceAdmin
import SpannerClient.UpdateInstanceRequestBuilder
import SpannerClient.Internal.PoolSizing
import SpannerClient.Internal.PoolOverflow
import SpannerClient.Library.Network
import SpannerClient.Library.Embedding
import SpannerClient.AdminOperations
import SpannerClient.AdminOperationRuns
import SpannerClient.Internal.RequestContract
import SpannerClient.Internal.TransactionUse
import SpannerClient.Internal.TransactionLedger
import SpannerClient.Internal.TransactionOnce
import SpannerClient.Library.Handler
import SpannerClient.Internal.CommitRefusal
import SpannerClient.ClientCommit
import SpannerClient.ClientCommitParties
import SpannerClient.ClientCommitOnce
import SpannerClient.Internal.PoolExclusive
import SpannerClient.Mutations
import SpannerClient.TypedRows
import SpannerClient.IamWrites
import SpannerClient.RowAccess
import SpannerClient.Internal.ChildStreams
import SpannerClient.Internal.PoolConservation
import SpannerClient.SingularRow
