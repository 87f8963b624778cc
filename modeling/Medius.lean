import Medius.Locks.History
import Medius.Framing.Decoder
import Medius.Clips.Generation
import Medius.Device.Rollback
import Medius.Device.Delivery
import Medius.Link.Tables
import Medius.Locks.Undo
import Medius.Rewrites.History
import Medius.Catch.Subscribe
import Medius.Packets.Laws
import Medius.Packets.History
import Medius.Transforms.Laws
import Medius.Transforms.History
import Medius.Replay.Locks
import Medius.Replay.Held
import Medius.Replay.Tables
import Medius.Link.Reconnect
import Medius.Replay.Frames
import Medius.Device.Update
import Medius.Mock.Update
import Medius.Lib.Duplex
import Medius.Update.Chunks
import Medius.Update.Transfer
import Medius.Update.LockStep
import Medius.Update.Callers
import Medius.Update.Stale
import Medius.Link.Reader
import Medius.Link.Correlation
import Medius.Lib.Records
import Medius.Types.Patch
import Medius.Mock.PatchStore
import Medius.Device.Patch
import Medius.Readback.Patches
import Medius.Readback.Rewrites
import Medius.Mock.ClipReport
import Medius.Readback.Clip
import Medius.Device.Catch
import Medius.Catch.Prepare
import Medius.Device.Unsent
import Medius.Replay.Idle
import Medius.Lib.Rely
import Medius.Link.Restart
import Medius.Link.Keepalive
import Medius.Recovery.Rules
import Medius.Recovery.Boots
import Medius.Recovery.Line
import Medius.Recovery.Credit
import Medius.Recovery.Counter
import Medius.Recovery.Releases
import Medius.Mock.Session
import Medius.Recovery.Moves
import Medius.Recovery.Clip
import Medius.Replay.Undo
import Medius.Lib.Edges
import Medius.Types.Event
import Medius.Device.Input
import Medius.Catch.Input
import Medius.Lib.DropOldest
import Medius.Lib.Refine
import Medius.Link.Deliver
import Medius.Types.Clock
import Medius.Clock.Unwrap
import Medius.Lib.Buckets
import Medius.Clock.Mapping
import Medius.Lib.Delimited
import Medius.Lib.Packing
import Medius.Types.Transfer
import Medius.Types.ClipFrame
import Medius.Device.ClipAppend
import Medius.Clips.Chunks
import Medius.Clips.Stream
import Medius.Packets.Exact
import Medius.Rewrites.Exact
import Medius.Types.Lock
import Medius.Mock.LocksReply
import Medius.Locks.Reached
import Medius.Locks.Readback
import Medius.Locks.Rebuild
import Medius.Locks.Overlay
import Medius.Link.Fewest
import Medius.Lib.Top
import Medius.Mock.PacketRun
import Medius.Packets.Ranked
import Medius.Packets.Runs
import Medius.Lib.Checked
import Medius.Types.Reply
import Medius.Types.Table
import Medius.Types.Indexed
import Medius.Protocol.Response
import Medius.Decode.Replies
import Medius.Decode.Events
import Medius.Decode.Clip
import Medius.Decode.InRange
import Medius.Link.Adopt
import Medius.Replay.Rows
import Medius.Replay.Landed
import Medius.Recovery.Taken
import Medius.Device.Settings
import Medius.Mock.Replies
import Medius.Types.Box
import Medius.Mock.Box
import Medius.Mock.Responder
import Medius.Lib.Stocked
import Medius.Machine.Tables
import Medius.Machine.Sound
import Medius.Readback.Replies
import Medius.Machine.Rows
import Medius.Machine.Said
import Medius.Machine.Answers
import Medius.Machine.Queries
import Medius.Machine.Refine
import Medius.Machine.Fields
import Medius.Machine.OptIn
import Medius.Machine.Sessions
import Medius.Machine.Stored
import Medius.Machine.Entries
import Medius.Update.Staged
import Medius.Machine.Flash
import Medius.Mock.Transport
import Medius.Machine.Wire
import Medius.Types.Log
import Medius.Link.Route
import Medius.Machine.Ask
