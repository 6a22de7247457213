import Karajan.Scheduling.Settlement
import Karajan.Scheduling.Zones
import Karajan.Scheduling.Pages
import Karajan.Compiler.Bindings
import Karajan.Scheduling.CredentialRevocation
import Karajan.Scheduling.Budget
import Karajan.Scheduling.Joins
import Karajan.Scheduling.Confinement
import Karajan.Scheduling.References
import Karajan.Scheduling.Obligations
import Karajan.Scheduling.Versions
import Karajan.Scheduling.Membership
import Karajan.Workflows.Evidence
import Karajan.Capacity.Timing
import Karajan.Capacity.Quota
import Karajan.Compiler.Ignored
import Karajan.Compiler.Cycles
import Karajan.Bundles.Revisions
import Karajan.Resources.Sends
import Karajan.Execution.Results
import Karajan.Execution.Captures
import Karajan.Orchestration.Fences
import Karajan.Orchestration.Finality
import Karajan.Routing.Authority
import Karajan.Routing.Entries
import Karajan.Routing.Ambiguity
import Karajan.Delivery.Delivered
import Karajan.GoJournal.Calls
import Karajan.Assessing.QuotaFence
import Karajan.Assessing.View
import Karajan.Tasks.Effects
import Karajan.Reviewing.Protocol
import Karajan.Conversations.Protocol
import Karajan.Projects.Protocol
import Karajan.Qualifying.Protocol
import Karajan.Gateway.Probe
import Karajan.Planner.Workspaces
