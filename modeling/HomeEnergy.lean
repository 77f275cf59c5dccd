import HomeEnergy.Billing
import HomeEnergy.Clock
import HomeEnergy.CommandLine
import HomeEnergy.Commodity
import HomeEnergy.CommoditySet
import HomeEnergy.Config
import HomeEnergy.Config.Check
import HomeEnergy.Config.Decode
import HomeEnergy.Config.Device
import HomeEnergy.Console
import HomeEnergy.Console.Session
import HomeEnergy.Csv
import HomeEnergy.Decimal
import HomeEnergy.Device
import HomeEnergy.Device.BaseLoad
import HomeEnergy.Device.Battery
import HomeEnergy.Device.Chp
import HomeEnergy.Device.EvCharger
import HomeEnergy.Device.HotWaterDemand
import HomeEnergy.Device.HotWaterTank
import HomeEnergy.Device.PvSystem
import HomeEnergy.Device.Timing
import HomeEnergy.DeviceId
import HomeEnergy.Evaluation
import HomeEnergy.Export
import HomeEnergy.Failure
import HomeEnergy.FlowMap
import HomeEnergy.Grid
import HomeEnergy.Grid.Electrical
import HomeEnergy.Grid.Relations
import HomeEnergy.Grid.Topology
import HomeEnergy.Kpi
import HomeEnergy.Layout
import HomeEnergy.LoadProfile
import HomeEnergy.Main
import HomeEnergy.MeterState
import HomeEnergy.Optimizer
import HomeEnergy.Part
import HomeEnergy.Pool
import HomeEnergy.Problem
import HomeEnergy.Program
import HomeEnergy.Random.Draw
import HomeEnergy.Random.Keystream
import HomeEnergy.Ranking
import HomeEnergy.Ranking.Normalize
import HomeEnergy.Scalar
import HomeEnergy.Scalar.Double
import HomeEnergy.Scalar.Rational
import HomeEnergy.Scenario
import HomeEnergy.Schedule
import HomeEnergy.Search
import HomeEnergy.Search.Candidate
import HomeEnergy.Search.Genetic
import HomeEnergy.Search.Sampling
import HomeEnergy.Simulation
import HomeEnergy.Solution
import HomeEnergy.Tariff
import HomeEnergy.Toml.Decode
import HomeEnergy.Toml.Document
import HomeEnergy.Toml.Expression
import HomeEnergy.Toml.Key
import HomeEnergy.Toml.Moment
import HomeEnergy.Toml.Number
import HomeEnergy.Toml.Quoted
import HomeEnergy.Toml.Reader
import HomeEnergy.Toml.Table
import HomeEnergy.Toml.Value
import HomeEnergy.Window
import HomeEnergy.Proofs.Acceptance
import HomeEnergy.Proofs.Arguments
import HomeEnergy.Proofs.Balance
import HomeEnergy.Proofs.Bills
import HomeEnergy.Proofs.Candidates
import HomeEnergy.Proofs.Construction
import HomeEnergy.Proofs.Contents
import HomeEnergy.Proofs.Correspondence
import HomeEnergy.Proofs.Course
import HomeEnergy.Proofs.DailyDraw
import HomeEnergy.Proofs.Distribution
import HomeEnergy.Proofs.Dominance
import HomeEnergy.Proofs.Draws
import HomeEnergy.Proofs.Encodings
import HomeEnergy.Proofs.Evolution
import HomeEnergy.Proofs.Exact
import HomeEnergy.Proofs.Exchange
import HomeEnergy.Proofs.Extended
import HomeEnergy.Proofs.Faithfulness
import HomeEnergy.Proofs.FastPath
import HomeEnergy.Proofs.Frames
import HomeEnergy.Proofs.Front
import HomeEnergy.Proofs.Halting
import HomeEnergy.Proofs.History
import HomeEnergy.Proofs.HouseLoad
import HomeEnergy.Proofs.Hysteresis
import HomeEnergy.Proofs.Identity
import HomeEnergy.Proofs.Legality
import HomeEnergy.Proofs.Lending
import HomeEnergy.Proofs.Lifecycle
import HomeEnergy.Proofs.Logged
import HomeEnergy.Proofs.LookUp
import HomeEnergy.Proofs.Metering
import HomeEnergy.Proofs.Nearest
import HomeEnergy.Proofs.Normalization
import HomeEnergy.Proofs.Optimum
import HomeEnergy.Proofs.Order
import HomeEnergy.Proofs.Outcomes
import HomeEnergy.Proofs.Permutation
import HomeEnergy.Proofs.Pieces
import HomeEnergy.Proofs.ProfileExtent
import HomeEnergy.Proofs.Rational
import HomeEnergy.Proofs.Readiness
import HomeEnergy.Proofs.Records
import HomeEnergy.Proofs.Reduction
import HomeEnergy.Proofs.Refusals
import HomeEnergy.Proofs.Relocation
import HomeEnergy.Proofs.Reports
import HomeEnergy.Proofs.Restart
import HomeEnergy.Proofs.Roles
import HomeEnergy.Proofs.Rounding
import HomeEnergy.Proofs.Sameness
import HomeEnergy.Proofs.Searches
import HomeEnergy.Proofs.Selection
import HomeEnergy.Proofs.SelfConsumption
import HomeEnergy.Proofs.Series
import HomeEnergy.Proofs.Sessions
import HomeEnergy.Proofs.Split
import HomeEnergy.Proofs.StandingLosses
import HomeEnergy.Proofs.StateOfCharge
import HomeEnergy.Proofs.StaticParts
import HomeEnergy.Proofs.Steps
import HomeEnergy.Proofs.Synchronous
import HomeEnergy.Proofs.Tables
import HomeEnergy.Proofs.Ticks
import HomeEnergy.Proofs.Tiling
import HomeEnergy.Proofs.TotalOrder
import HomeEnergy.Proofs.Traffic
import HomeEnergy.Proofs.Units
import HomeEnergy.Proofs.UnknownKeys
import HomeEnergy.Proofs.WholeNumbers
import HomeEnergy.Proofs.Zeros
