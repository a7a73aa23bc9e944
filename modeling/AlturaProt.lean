import AlturaProt.Limiter.Progress
import AlturaProt.Filter.Shapes
import AlturaProt.Http.CircuitRuns
import AlturaProt.Http.TrustCoverage
import AlturaProt.Http.Forwarding
import AlturaProt.Http.BodyPrefix
import AlturaProt.Config.Clock
import AlturaProt.Config.Store
import AlturaProt.Edge.UnitFits
import AlturaProt.Telemetry.EventLogger
import AlturaProt.Telemetry.LogLimiter
import AlturaProt.Analyzer.MergeOrder
import AlturaProt.Analyzer.ReadEvents
import AlturaProt.Analyzer.Confined
import AlturaProt.Server.HttpConnections
import AlturaProt.Server.TcpConnections
import AlturaProt.Server.RequestPaths
import AlturaProt.Invariants
