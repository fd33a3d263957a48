import McpGateway.A2A.Provenance
import McpGateway.A2A.Reloads
import McpGateway.A2A.Soundness
import McpGateway.Broker.Convergence
import McpGateway.Broker.LockDiscipline
import McpGateway.Broker.MetaTools
import McpGateway.Broker.NotifyTargets
import McpGateway.Broker.Pages
import McpGateway.Controller.BrokerRouter
import McpGateway.Controller.Bundles
import McpGateway.Controller.Conflicts
import McpGateway.Controller.Losers
import McpGateway.Controller.Prefixes
import McpGateway.Controller.References
import McpGateway.ExtProc.Forwarding
import McpGateway.ExtProc.HeaderViews
import McpGateway.ExtProc.Observer
import McpGateway.Gateway.Disabled
import McpGateway.Gateway.Eviction
import McpGateway.Gateway.FilterHeaders
import McpGateway.Gateway.Hairpin
import McpGateway.Gateway.HintOwners
import McpGateway.Gateway.IdleTimers
import McpGateway.Gateway.Invalidation
import McpGateway.Gateway.Refresh
import McpGateway.Gateway.Submissions
import McpGateway.Session.Backends
import McpGateway.Session.Lifetimes
import McpGateway.Session.TaskRecords
import McpGateway.Upstream.Failures
