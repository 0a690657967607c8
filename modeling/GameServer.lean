import GameServer.UserSessionMap
import GameServer.Corruption
import GameServer.WriteQueue
import GameServer.OneRoom
import GameServer.RecordedRoom
import GameServer.RefusedOps
import GameServer.OwnerPresent
import GameServer.RunningMatch
import GameServer.ToldSeats
import GameServer.PayloadBounds
import GameServer.RoomReplies
import GameServer.RoomTexts
import GameServer.EndNotice
import GameServer.SessionEnds
import GameServer.SessionCloses
import GameServer.LeaveRequests
import GameServer.RoomPasswords
import GameServer.OneMessage
import GameServer.TileNames
import GameServer.Territory
import GameServer.Troops
import GameServer.Balances
import GameServer.MemberPlayers
import GameServer.Pipeline
import GameServer.Broadcasts
import GameServer.WireFormat
import GameServer.Incremental
import GameServer.Resync
import GameServer.OwnBytes
import GameServer.Checksums
import GameServer.LoginReply
import GameServer.FullGrid
import GameServer.CommandFrames
import GameServer.RealCommands
import GameServer.PlayerCount
import GameServer.StartAtomic
import GameServer.GroupSet
import GameServer.TickChain
import GameServer.MapCache
import GameServer.SilentSessions
import GameServer.CommandRoundTrip
import GameServer.MatchReplay
import GameServer.FoyerRuns
import GameServer.WireCode
import GameServer.Outbound
import GameServer.Traffic
import GameServer.SweepChain
import GameServer.Symmetry
import GameServer.Seating
import GameServer.StrandLocks
