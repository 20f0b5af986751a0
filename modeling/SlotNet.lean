import SlotNet.Address
import SlotNet.Agent
import SlotNet.Agent.Learner
import SlotNet.Agent.Random
import SlotNet.Agent.Remote
import SlotNet.Agent.Scripted
import SlotNet.Agent.Target
import SlotNet.Binary
import SlotNet.Channel
import SlotNet.Claim
import SlotNet.ClaimTable
import SlotNet.CommandLine
import SlotNet.Config
import SlotNet.Config.Check
import SlotNet.Config.Decode
import SlotNet.Controller
import SlotNet.Decimal
import SlotNet.Decimal.Notation
import SlotNet.Decimal.Reading
import SlotNet.Environment
import SlotNet.EventQueue
import SlotNet.Fault
import SlotNet.Frame
import SlotNet.Geometry
import SlotNet.Json.Printer
import SlotNet.Json.Reader
import SlotNet.Json.Value
import SlotNet.Main
import SlotNet.Medium
import SlotNet.Network
import SlotNet.Placement
import SlotNet.Random.Draw
import SlotNet.Random.Layer
import SlotNet.Random.Sample
import SlotNet.Random.Stream
import SlotNet.Report
import SlotNet.Routing
import SlotNet.Run
import SlotNet.Simulation
import SlotNet.Station
import SlotNet.Stats
import SlotNet.StatusMessage
import SlotNet.Text.Utf8
import SlotNet.Time
import SlotNet.Timing
import SlotNet.Toml.Reader
import SlotNet.Toml.Scalar
import SlotNet.Toml.Table
import SlotNet.Toml.Text
import SlotNet.Toml.Value
import SlotNet.Traffic
import SlotNet.TransmitQueue
import SlotNet.Proofs.StatusMessage
import SlotNet.Proofs.StatusFields
import SlotNet.Proofs.ClaimTable
import SlotNet.Proofs.Controller.Entitlement
import SlotNet.Proofs.Controller.Reservation
import SlotNet.Proofs.Controller.Merging
import SlotNet.Proofs.Controller.Course
import SlotNet.Proofs.Controller.Messages
import SlotNet.Proofs.Config
import SlotNet.Proofs.Exchange
import SlotNet.Proofs.Provenance
import SlotNet.Proofs.Hearing
import SlotNet.Proofs.Separation
import SlotNet.Proofs.EventQueue
import SlotNet.Proofs.Channel
import SlotNet.Proofs.Announcing
import SlotNet.Proofs.Broadcasting
import SlotNet.Proofs.Collision
import SlotNet.Proofs.Routing
import SlotNet.Proofs.Packets
import SlotNet.Proofs.TransmitQueue
import SlotNet.Proofs.Medium
import SlotNet.Proofs.Station
import SlotNet.Proofs.Network
import SlotNet.Proofs.Simulation
import SlotNet.Proofs.Beginning
import SlotNet.Proofs.Conservation
import SlotNet.Proofs.Roster
import SlotNet.Proofs.Agenda
import SlotNet.Proofs.QueueAnswers
import SlotNet.Proofs.Effects
import SlotNet.Proofs.Handlers
import SlotNet.Proofs.Dispatch
import SlotNet.Proofs.Watch
import SlotNet.Proofs.Cadence
import SlotNet.Proofs.Mirror
import SlotNet.Proofs.Recording
import SlotNet.Proofs.SlotUse
import SlotNet.Proofs.Contention
import SlotNet.Proofs.QueueOrder
import SlotNet.Proofs.Sending
import SlotNet.Proofs.AnyOrder
import SlotNet.Proofs.Controller.ControlTurns
import SlotNet.Proofs.Controller.MergeOrder
import SlotNet.Proofs.Controller.ChoiceSets
import SlotNet.Proofs.Turn
import SlotNet.Proofs.Legible
import SlotNet.Proofs.Rounds
import SlotNet.Proofs.Diary
import SlotNet.Proofs.Granting
import SlotNet.Proofs.Airtime
import SlotNet.Proofs.Relay
import SlotNet.Proofs.Flight
import SlotNet.Proofs.Conveyance
import SlotNet.Proofs.InOrder
import SlotNet.Proofs.ShortestRoutes
import SlotNet.Proofs.FirstHops
import SlotNet.Proofs.Stranding
import SlotNet.Proofs.Trips
import SlotNet.Proofs.QueueAccounts
import SlotNet.Proofs.QueueAges
import SlotNet.Proofs.SlotCapacity
import SlotNet.Proofs.PacketSize
import SlotNet.Proofs.Unblocked
import SlotNet.Proofs.Rounding
import SlotNet.Proofs.RangeChecks
import SlotNet.Proofs.TomlValues
import SlotNet.Proofs.Acceptance
import SlotNet.Proofs.SettingUp
import SlotNet.Proofs.Products
import SlotNet.Proofs.GuardTime
import SlotNet.Proofs.Controller.Rewards
import SlotNet.Proofs.Rewards
import SlotNet.Proofs.Sampling
import SlotNet.Proofs.Backlog
import SlotNet.Proofs.TopDestinations
import SlotNet.Proofs.Observation
import SlotNet.Proofs.RandomRequests
import SlotNet.Proofs.Load
import SlotNet.Proofs.Ending
import SlotNet.Proofs.FrameLength
import SlotNet.Proofs.OnAir
import SlotNet.Proofs.StuckFrames
import SlotNet.Proofs.SlotLoop
