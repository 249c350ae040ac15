import MediaServer.Verification.Ptz.Instructions
import MediaServer.Verification.Ptz.Malformed
import MediaServer.Verification.Ptz.Unknown
import MediaServer.Verification.Controller.Handles
import MediaServer.Verification.Controller.Ownership
import MediaServer.Verification.Controller.Single
import MediaServer.Verification.Controller.Logins
import MediaServer.Verification.Manager.Wiring
import MediaServer.Verification.Manager.Answers
import MediaServer.Verification.Manager.Truthful
import MediaServer.Verification.Manager.Orphans
import MediaServer.Verification.Manager.FailedOpen
import MediaServer.Verification.Manager.RoundTrip
import MediaServer.Verification.Manager.Commuting
import MediaServer.Verification.Pool.Atomic
import MediaServer.Verification.Pool.Detaching
import MediaServer.Verification.Buffer.Fanout
import MediaServer.Verification.Sender.Timestamps
import MediaServer.Verification.Sender.Fragments
import MediaServer.Verification.Sender.Acceptance
import MediaServer.Verification.Sender.Parameters
import MediaServer.Verification.Queue.Order
import MediaServer.Verification.Queue.Wakeups
import MediaServer.Verification.Locks
import MediaServer.Verification.Server.Silence
import MediaServer.Verification.Camera.Interference
import MediaServer.Verification.Feed
import MediaServer.Verification.Manager.Threads
import MediaServer.Verification.Manager.Filing
import MediaServer.Verification.Manager.Housing
import MediaServer.Verification.Manager.Progress
import MediaServer.Verification.Manager.Closing
import MediaServer.Verification.Pool.Balance
import MediaServer.Verification.Manager.Provenance
import MediaServer.Verification.Server.Traffic
import MediaServer.Foundation.Blocks
import MediaServer.Model.Md5
import MediaServer.Verification.Digest.Rounds
import MediaServer.Verification.Digest.Streaming
import MediaServer.Model.CallId
import MediaServer.Verification.Digest.CallId
import MediaServer.Foundation.Codec
import MediaServer.Foundation.Search
import MediaServer.Model.Rpc
import MediaServer.Verification.Rpc.Marshalling
import MediaServer.Verification.Manager.Replies
import MediaServer.Verification.Rpc.Correlation
import MediaServer.Verification.Pool.Buffers
import MediaServer.Verification.Pool.Sweeps
import MediaServer.Verification.Pool.Liveness
import MediaServer.Model.PSBuffer
import MediaServer.Verification.PSBuffer.Blocks
import MediaServer.Verification.PSBuffer.Frames
import MediaServer.Verification.PSBuffer.Order
