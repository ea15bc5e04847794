import SimplestMmorpg.Lib.Loop
import SimplestMmorpg.Lib.Framing
import SimplestMmorpg.Network.RingBuffer
import SimplestMmorpg.Common.Types
import SimplestMmorpg.Common.Map
import SimplestMmorpg.Common.Protocol
import SimplestMmorpg.Network.Session
import SimplestMmorpg.Network.RecvSafety
import SimplestMmorpg.Lib.SpatialIndex
import SimplestMmorpg.Game.SectorManager
import SimplestMmorpg.Common.Float
import SimplestMmorpg.Db.PlayerRow
import SimplestMmorpg.Game.Player
import SimplestMmorpg.Game.Pathfinder
import SimplestMmorpg.Game.Monster
import SimplestMmorpg.Client.GameState
import SimplestMmorpg.Game.World
import SimplestMmorpg.Game.ViewProcessor
import SimplestMmorpg.Game.Combat
import SimplestMmorpg.Game.MonsterAi
import SimplestMmorpg.Game.Requests
import SimplestMmorpg.Game.GameWorld
import SimplestMmorpg.Server.Server
import SimplestMmorpg.Server.WorldStep
import SimplestMmorpg.Lib.Transition
import SimplestMmorpg.Server.Refusal
import SimplestMmorpg.Game.Inert
import SimplestMmorpg.Game.Placement
import SimplestMmorpg.Game.PlacementHandlers
import SimplestMmorpg.Server.PlacementRun
import SimplestMmorpg.Lib.ViewSync
import SimplestMmorpg.Client.View
import SimplestMmorpg.Client.ViewDelta
import SimplestMmorpg.Client.ViewHandlers
import SimplestMmorpg.Game.Steady
import SimplestMmorpg.Game.Leash
import SimplestMmorpg.Game.Login
import SimplestMmorpg.Server.Linked
import SimplestMmorpg.Client.ViewRun
import SimplestMmorpg.Server.LoginOwner
import SimplestMmorpg.Server.Regen
import SimplestMmorpg.Game.Departures
import SimplestMmorpg.Server.Progress
import SimplestMmorpg.Lib.Interleave
import SimplestMmorpg.Race.Attack
import SimplestMmorpg.Race.Kill
import SimplestMmorpg.Race.Hit
import SimplestMmorpg.Game.Holdings
import SimplestMmorpg.Game.Tidy
import SimplestMmorpg.Race.Death
import SimplestMmorpg.Server.LeashRun
import SimplestMmorpg.Server.Leaving
import SimplestMmorpg.Network.IocpServer
import SimplestMmorpg.Network.IocpTable
import SimplestMmorpg.Network.AcceptChain
import SimplestMmorpg.Network.Dispatch
import SimplestMmorpg.Network.Orphans
import SimplestMmorpg.Race.Membership
import SimplestMmorpg.Race.OneSession
import SimplestMmorpg.Race.LateLogin
import SimplestMmorpg.Race.Walk
import SimplestMmorpg.Race.OneTile
import SimplestMmorpg.Race.Handshake
import SimplestMmorpg.Race.LostWake
import SimplestMmorpg.Game.LifeCycle
import SimplestMmorpg.Game.LifeCycleHandlers
import SimplestMmorpg.Server.LifeCycleRun
import SimplestMmorpg.Lib.BoundedQueue
import SimplestMmorpg.Network.RingQueue
import SimplestMmorpg.Network.Reassembly
import SimplestMmorpg.Client.NetworkClient
import SimplestMmorpg.StressTest.NetworkModule
import SimplestMmorpg.Game.SectorCalls
import SimplestMmorpg.Network.SendOrder
import SimplestMmorpg.Server.Healing
import SimplestMmorpg.Lib.Ticket
import SimplestMmorpg.Race.Saving
import SimplestMmorpg.Race.SaveOrder
import SimplestMmorpg.Race.Shutdown
import SimplestMmorpg.Lib.Collect
import SimplestMmorpg.Race.Snapshots
import SimplestMmorpg.Client.OwnPosition
import SimplestMmorpg.Client.Prediction
import SimplestMmorpg.Lib.BestFirst
import SimplestMmorpg.Game.FindPath
import SimplestMmorpg.Game.OpenGround
import SimplestMmorpg.Client.ViewChange
import SimplestMmorpg.Game.MoveRequest
import SimplestMmorpg.Game.NoRoom
import SimplestMmorpg.Server.LoginName
import SimplestMmorpg.Game.Experience
import SimplestMmorpg.Server.CharacterStats
import SimplestMmorpg.Lua.LuaManager
import SimplestMmorpg.Game.Reward
import SimplestMmorpg.Game.AttackRound
import SimplestMmorpg.Lib.Least
import SimplestMmorpg.Game.Nearest
import SimplestMmorpg.Game.Spawn
import SimplestMmorpg.Db.StoreCalls
import SimplestMmorpg.Network.SessionIds
import SimplestMmorpg.Db.DBManager
import SimplestMmorpg.Db.TaskOrder
import SimplestMmorpg.Db.WakeUp
import SimplestMmorpg.Lib.ObjectPool
import SimplestMmorpg.Timer.TimerManager
import SimplestMmorpg.Timer.TimerQueue
import SimplestMmorpg.Timer.TimerObjects
import SimplestMmorpg.Game.Effects
import SimplestMmorpg.Server.StepEffects
import SimplestMmorpg.Lib.Mirror
import SimplestMmorpg.Client.OwnStats
import SimplestMmorpg.Lib.Cooldown
import SimplestMmorpg.Server.Pacing
import SimplestMmorpg.Server.DataFlow
import SimplestMmorpg.Server.StatsRun
import SimplestMmorpg.Lib.Packed
import SimplestMmorpg.Common.Wire
import SimplestMmorpg.Server.WireRun
import SimplestMmorpg.Network.Arrived
import SimplestMmorpg.Client.Stream
import SimplestMmorpg.Server.ChatRun
import SimplestMmorpg.Common.WireRequests
import SimplestMmorpg.Server.RequestBytes
import SimplestMmorpg.Client.InputHandler
import SimplestMmorpg.Client.Main
import SimplestMmorpg.Server.Punctual
import SimplestMmorpg.Server.Autosave
import SimplestMmorpg.Server.Recovery
import SimplestMmorpg.Common.MapFile
import SimplestMmorpg.Lib.LastWrite
import SimplestMmorpg.Client.Renderer
import SimplestMmorpg.Client.Display
import SimplestMmorpg.Client.Labels
import SimplestMmorpg.Client.Screen
import SimplestMmorpg.Lib.Buckets
import SimplestMmorpg.Lua.SpawnScript
import SimplestMmorpg.Server.ScriptWorld
import SimplestMmorpg.Game.Unseen
import SimplestMmorpg.Server.Dormant
import SimplestMmorpg.Server.SpeedLimit
