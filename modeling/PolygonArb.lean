import PolygonArb.Core.Math.TickInversion
import PolygonArb.Core.Math.SwapAccounting
import PolygonArb.Core.Math.SwapReference
import PolygonArb.Core.Math.LogExpMonotone
import PolygonArb.Core.Math.CurveOverflow
import PolygonArb.Core.Math.BalancerRounding
import PolygonArb.Core.Math.WoofiRoundTrip
import PolygonArb.Pipeline.InventoryBound
import PolygonArb.Pipeline.RouteSimCache
import PolygonArb.Pipeline.CycleReallocation
import PolygonArb.Pipeline.BellmanFordReach
import PolygonArb.Pipeline.CallBudget
import PolygonArb.Pipeline.SizeBracket
import PolygonArb.Services.Dispatch
import PolygonArb.Pipeline.SizingWindow
import PolygonArb.Services.TokenFlow
import PolygonArb.Pipeline.DiverseSelection
import PolygonArb.Pipeline.Prefilter
import PolygonArb.Orchestrator.StaleCycles
import PolygonArb.Orchestrator.EligibleCredit
import PolygonArb.Orchestrator.HfScheduler
import PolygonArb.Orchestrator.LfTick
import PolygonArb.Services.SwapEvent
import PolygonArb.Pipeline.SimSanityExact
import PolygonArb.Services.ProfitFloor
import PolygonArb.Services.ScoreAgreement
import PolygonArb.Services.PriceLimit
import PolygonArb.Pipeline.InfeasibleWall
import PolygonArb.Pipeline.AttachConvergence
import PolygonArb.Services.SubmitGates
import PolygonArb.Orchestrator.DispatchPass
import PolygonArb.Services.DiscoveryLifetime
import PolygonArb.Services.CacheRevisions
import PolygonArb.Services.RateMerge
import PolygonArb.Services.HubPathRates
import PolygonArb.Services.StreamTargets
import PolygonArb.Core.Math.MulDivExact
import PolygonArb.Services.CompoundSlippage
import PolygonArb.Pipeline.UnprovenCooldown
