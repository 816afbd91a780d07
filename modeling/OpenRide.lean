import OpenRide.Lib.Dict
import OpenRide.Assignment.Runtime
import OpenRide.Lib.Machine
import OpenRide.Lib.Matching
import OpenRide.Lib.Sorted
import OpenRide.Lib.Ranking
import OpenRide.Assignment.Spatial
import OpenRide.Assignment.Arbitration
import OpenRide.Assignment.Solver
import OpenRide.Assignment.Policy
import OpenRide.Assignment.PooledPlanner
import OpenRide.Assignment.PooledSafety
import OpenRide.Assignment.PooledTick
import OpenRide.Assignment.PlayedRounds
import OpenRide.Assignment.ForgedBids
import OpenRide.Assignment.PooledConvergence
import OpenRide.OrderLifecycle.BatchWriter
import OpenRide.OrderLifecycle.EventFold
import OpenRide.OrderLifecycle.Drains
import OpenRide.OrderLifecycle.Redelivery
import OpenRide.OrderLifecycle.Absorbing
import OpenRide.Dataplane.Consumer
import OpenRide.Dataplane.Recovery
import OpenRide.Dataplane.Durability
import OpenRide.Dataplane.HotStore
import OpenRide.Dataplane.HotIdentity
import OpenRide.Dataplane.HotRuns
import OpenRide.Simulation.SleepingAgent
import OpenRide.Simulation.Naps
import OpenRide.Simulation.ShutdownReplies
import OpenRide.Simulation.HorizonDrain
import OpenRide.Simulation.DrainCap
import OpenRide.Lib.UnionFind
import OpenRide.Assignment.SpatialReach
import OpenRide.Assignment.GridCells
import OpenRide.Assignment.PooledThroughput
import OpenRide.Assignment.Visibility
import OpenRide.Assignment.Backstop
import OpenRide.Lib.Buckets
import OpenRide.Datagen.Slug
import OpenRide.Datagen.Cooperation
import OpenRide.Datagen.CooperationGraph
import OpenRide.Assignment.StructurePools
import OpenRide.Assignment.InputOrder
import OpenRide.Assignment.Partitioned
import OpenRide.Assignment.CandidateParity
import OpenRide.Assignment.ZeroPools
import OpenRide.Lib.Threads
import OpenRide.Dataplane.Capture
import OpenRide.Dataplane.FrameDensity
import OpenRide.Dataplane.Archive
import OpenRide.Dataplane.Certification
import OpenRide.Dataplane.CodeBooks
import OpenRide.Dataplane.HotCells
import OpenRide.Dataplane.LiveFrames
import OpenRide.Dataplane.Finalize
import OpenRide.Haulage.HaulTrip
import OpenRide.Haulage.Interactions
import OpenRide.Haulage.DurationFloors
import OpenRide.Haulage.TruckApp
import OpenRide.Haulage.TruckLocations
import OpenRide.Haulage.LegTimes
import OpenRide.Haulage.FacilityApp
import OpenRide.Haulage.GateVisits
import OpenRide.Datagen.Values
import OpenRide.Datagen.Hauliers
import OpenRide.Datagen.TripMatrix
import OpenRide.Datagen.Demand
import OpenRide.Datagen.PlannerConfig
import OpenRide.Datagen.CooperationEcho
import OpenRide.Datagen.Preprocess
import OpenRide.Datagen.Recompile
import OpenRide.Datagen.PlannerStages
import OpenRide.Haulage.GateService
import OpenRide.Haulage.FacilityKpis
import OpenRide.Haulage.RunningEmpty
import OpenRide.Hauling.System
import OpenRide.Hauling.Mirror
import OpenRide.Hauling.OneTruck
import OpenRide.OrderLifecycle.LifecycleApp
import OpenRide.Lib.Handlers
import OpenRide.RideHail.DriverApp
import OpenRide.RideHail.PassengerApp
import OpenRide.RideHail.Protocol
import OpenRide.RideHail.DriverLink
import OpenRide.RideHail.PassengerLink
import OpenRide.RideHail.Known
import OpenRide.RideHail.Coupling
import OpenRide.RideHail.InStep
import OpenRide.RideHail.Release
import OpenRide.Scenario.Save
import OpenRide.Scenario.PoolCarry
import OpenRide.Scenario.SavedKeys
import OpenRide.Scenario.SavedBack
import OpenRide.Scenario.SettledRecipe
import OpenRide.Scenario.SaveContract
import OpenRide.Datagen.CooperationPairs
import OpenRide.Scenario.CooperationKept
import OpenRide.Haulage.TripPlan
import OpenRide.Scenario.CooperationContract
import OpenRide.Simulation.OrderAgent
import OpenRide.Assignment.ArbitrationRules
import OpenRide.Assignment.SolverContract
import OpenRide.Assignment.BookedMarket
import OpenRide.Assignment.ShareAccounting
import OpenRide.Assignment.GainClaims
import OpenRide.Assignment.SpatialRings
import OpenRide.Assignment.CrowdedOut
import OpenRide.Datagen.CooperationUsable
import OpenRide.Datagen.SlugAgain
import OpenRide.Lib.LargestRemainder
import OpenRide.Datagen.Apportionment
import OpenRide.Simulation.AgentSource
import OpenRide.Simulation.StatusWrite
import OpenRide.Datagen.RebateSchedule
import OpenRide.Datagen.FacilityRules
import OpenRide.Datagen.RulesApplied
import OpenRide.Lib.Ledger
import OpenRide.Lib.Reorder
import OpenRide.Analytics.CompletedTrip
import OpenRide.Analytics.Breakdowns
import OpenRide.Analytics.Credits
import OpenRide.Analytics.Ledgers
import OpenRide.Analytics.WindowFold
import OpenRide.Analytics.Recompute
import OpenRide.Analytics.LaneBreakdown
import OpenRide.Analytics.LaneTies
import OpenRide.Analytics.Checkpoints
import OpenRide.Datagen.RebateBook
import OpenRide.Dataplane.FrameLease
import OpenRide.Dataplane.FrameReplay
import OpenRide.Dataplane.Rehydrate
import OpenRide.Dataplane.Supervisor
import OpenRide.Dataplane.JsonTwin
import OpenRide.Lib.Rounding
import OpenRide.Dataplane.CommitClock
import OpenRide.Lib.BreakOff
import OpenRide.Haulage.Precreate
import OpenRide.Lib.Dedup
import OpenRide.Haulage.RouteLookup
import OpenRide.Haulage.TripGeoPublisher
import OpenRide.RideHail.Solvers
import OpenRide.RideHail.OptimalMatching
import OpenRide.Lib.Requeue
import OpenRide.Lib.Requests
import OpenRide.Simulation.TripManager
import OpenRide.RideHail.ConsumeMessages
import OpenRide.Haulage.TripManager
import OpenRide.Haulage.HandleAssignment
import OpenRide.Lib.Binary64
import OpenRide.Dataplane.Downsample
import OpenRide.Lib.Allotment
import OpenRide.Datagen.Codes
import OpenRide.Datagen.FacilityCounts
import OpenRide.Datagen.FacilityNames
import OpenRide.Scenario.RunOverrides
import OpenRide.Scenario.OverridesAgree
import OpenRide.KpiSink.MongoExport
