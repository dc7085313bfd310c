import Attyd.History.Commits
import Attyd.History.CacheRuns
import Attyd.Session.Baselines
import Attyd.Session.Failures
import Attyd.Semantic.Rejections
import Attyd.Session.Reconciliation
import Attyd.Session.Consistency
import Attyd.Session.ByteAccountRuns
import Attyd.Session.Retries
import Attyd.Session.AuditedRuntime
import Attyd.Session.RetiringRuntime
import Attyd.Session.SessionDeltas
import Attyd.Mcp.MessageRuns
import Attyd.Mcp.Lifecycle
import Attyd.Observation.AutoCloseRuns
import Attyd.Dispatch.Deliveries
import Attyd.Dispatch.HandoffRuns
import Attyd.Delivery.StreamRuns
import Attyd.Bridge.Fork
import Attyd.Bridge.CreationRuns
import Attyd.Terminals.Manager
import Attyd.Terminals.Projection
import Attyd.Presentation.Release
import Attyd.Delivery.Journal
import Attyd.Review.Context
import Attyd.Elicitation.Panics
import Attyd.Elicitation.Dates
import Attyd.Elicitation.Answers
import Attyd.Elicitation.Patterns
import Attyd.Session.ControlFolds
import Attyd.Files.Containment
import Attyd.Terminals.OutputRuns
import Attyd.Dispatch.Scheduling
import Attyd.Attachments.Requests
import Attyd.Mcp.Lifecycle
