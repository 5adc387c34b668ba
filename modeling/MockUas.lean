import MockUas.Worker.Pointers
import MockUas.Server.Lifecycle
import MockUas.Server.Links
import MockUas.Server.Hangup
import MockUas.Server.ResponseFit
import MockUas.Server.Conclusion
import MockUas.Server.Acks
import MockUas.Server.Isolation
import MockUas.Server.DeleteEffect
import MockUas.Server.ToTags
import MockUas.Server.Uniqueness
import MockUas.Server.Readback
import MockUas.Server.BasicCall
import MockUas.Server.Identifiers
import MockUas.Message.ParserSafety
import MockUas.Message.Lookup
import MockUas.Message.FirstLineExact
import MockUas.Message.ParameterExact
import MockUas.Message.Responses
import MockUas.System.MessageQueue
import MockUas.System.Custody
import MockUas.System.Confinement
import MockUas.System.Ownership
import MockUas.System.Selection
import MockUas.Server.Teardown
import MockUas.System.Startup
import MockUas.System.QueueThreads
import MockUas.System.Timers
import MockUas.System.Workers
import MockUas.System.Rest
import MockUas.System.Settled
import MockUas.System.Faults
import MockUas.System.Answers
