import Fountainer.Lib.FloatArith
import Fountainer.Lib.Runs
import Fountainer.Pump.Types
import Fountainer.Pump.Manager
import Fountainer.Pump.Effects
import Fountainer.Pump.Safety
import Fountainer.Pump.Manual
import Fountainer.Pump.Boot
import Fountainer.Lib.OverwriteRing
import Fountainer.Pump.Clock
import Fountainer.Pump.Protection
import Fountainer.Pump.Cycles
import Fountainer.Pump.Start
import Fountainer.Pump.Events
import Fountainer.Pump.Timed
import Fountainer.Lib.Bytes
import Fountainer.Logging.Ring
import Fountainer.Logging.Record
import Fountainer.Logging.Layout
import Fountainer.Logging.Iterate
import Fountainer.Logging.Fifo
import Fountainer.Logging.ReadSince
import Fountainer.Lib.Cursor
import Fountainer.Network.LogBatch
import Fountainer.Datapoints.Catalog
import Fountainer.Lib.Hex
import Fountainer.Lib.CFloat
import Fountainer.Datapoints.Codec
import Fountainer.Datapoints.Batch
import Fountainer.Lib.FloatFormat
import Fountainer.Datapoints.Persist
import Fountainer.Datapoints.Ranges
import Fountainer.Datapoints.Rules
import Fountainer.Datapoints.Bounds
import Fountainer.Datapoints.Reboot
import Fountainer.Datapoints.Report
import Fountainer.Datapoints.Migration
import Fountainer.Datapoints.Savers
import Fountainer.Datapoints.Schema
import Fountainer.Lib.Traces
import Fountainer.Canopen.Types
import Fountainer.Canopen.ObjectDict
import Fountainer.Canopen.Pdo
import Fountainer.Canopen.Sdo
import Fountainer.Canopen.Core
import Fountainer.Canopen.Parts
import Fountainer.Canopen.ReadBack
import Fountainer.Canopen.Server
import Fountainer.Canopen.Mapping
import Fountainer.Canopen.Gating
import Fountainer.Canopen.Download
import Fountainer.Canopen.Upload
import Fountainer.Canopen.Freshness
import Fountainer.Canopen.Bootup
import Fountainer.Canopen.Reset
import Fountainer.Canopen.Targets
import Fountainer.Canopen.Turns
import Fountainer.Canopen.Remote
import Fountainer.Lib.Base64
import Fountainer.Protocol.Auth
import Fountainer.Protocol.Session
import Fountainer.Protocol.Replay
import Fountainer.Protocol.Ready
import Fountainer.Protocol.Reassembly
import Fountainer.Watchdog.Watchdog
import Fountainer.Watchdog.Ladder
import Fountainer.Watchdog.Brake
import Fountainer.Watchdog.Pass
import Fountainer.Tasks.TaskManager
import Fountainer.Network.DpWrite
import Fountainer.Device.CanWrite
import Fountainer.Device.Bounds
import Fountainer.Canopen.View
import Fountainer.Device.CanTask
import Fountainer.Device.Secrets
import Fountainer.Lib.Outage
import Fountainer.Logging.Runtime
import Fountainer.Logging.Flash
import Fountainer.Network.Settings
import Fountainer.Network.NetworkConfig
import Fountainer.Network.TaskCom
import Fountainer.Network.WriteResult
import Fountainer.Network.Trial
import Fountainer.Network.Backup
import Fountainer.Lib.SlotPool
import Fountainer.Network.LocalServer
import Fountainer.Network.LocalFrames
import Fountainer.Pump.Task
import Fountainer.Pump.Sensor
import Fountainer.Device.Command
import Fountainer.PressureHistory.Ring
import Fountainer.Logging.Seek
import Fountainer.Canopen.Cyclic
import Fountainer.Canopen.EventTpdo
import Fountainer.Canopen.Baseline
import Fountainer.Canopen.Changes
import Fountainer.Lib.Numerals
import Fountainer.Network.RoundTrip
import Fountainer.Device.CanBus
import Fountainer.Device.CanGlue
import Fountainer.Device.Access
import Fountainer.Lib.Delimited
import Fountainer.Protocol.Signing
import Fountainer.Network.RateLimit
import Fountainer.Lib.Smoothing
import Fountainer.Network.LinkScore
import Fountainer.Network.LinkQuality
import Fountainer.Lib.BoundedQueue
import Fountainer.Events.EventManager
import Fountainer.Events.Subscribers
import Fountainer.Events.Delivery
import Fountainer.Network.Ota
import Fountainer.Protocol.TxPath
import Fountainer.Protocol.Client
import Fountainer.Protocol.SessionLock
import Fountainer.Protocol.Supervision
import Fountainer.Protocol.Updates
import Fountainer.Lib.NorLog
import Fountainer.Logging.FlashFormat
import Fountainer.Logging.FlashStore
import Fountainer.Logging.FlashSlots
import Fountainer.Logging.FlashReplay
import Fountainer.Network.PrevBatch
import Fountainer.Network.HistoryPull
import Fountainer.Lib.Backoff
import Fountainer.Network.Wlan
import Fountainer.Lib.Sampling
import Fountainer.Device.Am2302
import Fountainer.Power.PowerMgmt
import Fountainer.Lib.TrimmedMean
import Fountainer.Device.Ads1115
import Fountainer.Pump.Report
