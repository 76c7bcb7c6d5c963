import BulkTransfer.Bounds
import BulkTransfer.Bytes
import BulkTransfer.ChunkReader.Basic
import BulkTransfer.ChunkReader.Command
import BulkTransfer.ChunkReader.Stream
import BulkTransfer.Contents
import BulkTransfer.Counter
import BulkTransfer.Cursor.Basic
import BulkTransfer.Cursor.Lock
import BulkTransfer.Cursor.Stored
import BulkTransfer.Event
import BulkTransfer.Failure.Basic
import BulkTransfer.Failure.Cause
import BulkTransfer.Failure.Chunk
import BulkTransfer.Failure.IoKind
import BulkTransfer.File.Basic
import BulkTransfer.File.Request
import BulkTransfer.File.Script
import BulkTransfer.File.Stored
import BulkTransfer.File.Watched
import BulkTransfer.Log
import BulkTransfer.Outcome
import BulkTransfer.Pool.Basic
import BulkTransfer.Pool.Lease
import BulkTransfer.Pool.Limits
import BulkTransfer.Pool.Session
import BulkTransfer.Pool.SizeClass
import BulkTransfer.Pool.Slice
import BulkTransfer.Proofs.ChunkReader.Aborting
import BulkTransfer.Proofs.ChunkReader.Bearing
import BulkTransfer.Proofs.ChunkReader.Calling
import BulkTransfer.Proofs.ChunkReader.Charging
import BulkTransfer.Proofs.ChunkReader.Consuming
import BulkTransfer.Proofs.ChunkReader.Counting
import BulkTransfer.Proofs.ChunkReader.Course
import BulkTransfer.Proofs.ChunkReader.Draining
import BulkTransfer.Proofs.ChunkReader.Failing
import BulkTransfer.Proofs.ChunkReader.Following
import BulkTransfer.Proofs.ChunkReader.Likeness
import BulkTransfer.Proofs.ChunkReader.Loading
import BulkTransfer.Proofs.ChunkReader.Nesting
import BulkTransfer.Proofs.ChunkReader.Replaying
import BulkTransfer.Proofs.ChunkReader.Seeking
import BulkTransfer.Proofs.ChunkReader.Serving
import BulkTransfer.Proofs.ChunkReader.Snapshot
import BulkTransfer.Proofs.ChunkReader.Steps
import BulkTransfer.Proofs.ChunkReader.Surfacing
import BulkTransfer.Proofs.ChunkReader.Tower
import BulkTransfer.Proofs.ChunkReader.Tracking
import BulkTransfer.Proofs.ChunkReader.Turns
import BulkTransfer.Proofs.ChunkReader.Window
import BulkTransfer.Proofs.Counter
import BulkTransfer.Proofs.Cursor.Locking
import BulkTransfer.Proofs.Failure.Conversion
import BulkTransfer.Proofs.Failure.Telling
import BulkTransfer.Proofs.File.Calling
import BulkTransfer.Proofs.File.Counting
import BulkTransfer.Proofs.File.Filling
import BulkTransfer.Proofs.File.Honest
import BulkTransfer.Proofs.File.Likeness
import BulkTransfer.Proofs.File.Quiet
import BulkTransfer.Proofs.File.Replaying
import BulkTransfer.Proofs.File.Rounds
import BulkTransfer.Proofs.File.Tidy
import BulkTransfer.Proofs.File.Tiling
import BulkTransfer.Proofs.File.Visiting
import BulkTransfer.Proofs.Pool.Filing
import BulkTransfer.Proofs.Pool.History
import BulkTransfer.Proofs.Pool.Homing
import BulkTransfer.Proofs.Pool.Leasing
import BulkTransfer.Proofs.Pool.Ledger
import BulkTransfer.Proofs.Pool.Oversized
import BulkTransfer.Proofs.Pool.Reach
import BulkTransfer.Proofs.Pool.Rounding
import BulkTransfer.Proofs.Pool.Session
import BulkTransfer.Proofs.Registry
import BulkTransfer.Proofs.Session.Aborting
import BulkTransfer.Proofs.Session.Accounting
import BulkTransfer.Proofs.Session.Counting
import BulkTransfer.Proofs.Session.Erasure
import BulkTransfer.Proofs.Session.NestedAccounting
import BulkTransfer.Proofs.Session.Runs
import BulkTransfer.Proofs.Session.Separation
import BulkTransfer.Proofs.Whence
import BulkTransfer.Registry
import BulkTransfer.Seeking
import BulkTransfer.Session
import BulkTransfer.Shared
import BulkTransfer.Source
import BulkTransfer.Step
import BulkTransfer.Tracker
import BulkTransfer.Whence
