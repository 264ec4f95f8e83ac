import DdAppsec.Lib.Bytes
import DdAppsec.Lib.ForEach
import DdAppsec.Lib.Runs
import DdAppsec.Lib.Json
import DdAppsec.Helper.JsonHelper
import DdAppsec.Helper.Engine
import DdAppsec.Helper.RemoteConfig.Product
import DdAppsec.Helper.RemoteConfig.Client
import DdAppsec.Helper.RemoteConfig.Aggregators
import DdAppsec.Helper.RemoteConfig.Listeners
import DdAppsec.Helper.RemoteConfig.Service
import DdAppsec.Helper.RemoteConfig.AsmFeatures
import DdAppsec.Helper.RemoteConfig.AsmDd
import DdAppsec.Helper.RemoteConfig.Actions
import DdAppsec.Helper.Client
import DdAppsec.Helper.Isolation
import DdAppsec.Helper.ServiceManager
import DdAppsec.Helper.ClientInit
import DdAppsec.Extension.Lifecycle
import DdAppsec.Extension.Session
import DdAppsec.Extension.Network
import DdAppsec.Lib.MsgPack
import DdAppsec.Extension.MsgpackHelpers
import DdAppsec.Helper.Broker
import DdAppsec.Extension.RequestInit
import DdAppsec.Protocol.RequestLimits
import DdAppsec.Helper.Framing
import DdAppsec.Helper.RateLimit
import DdAppsec.Helper.Replies
import DdAppsec.Helper.WorkerPool
import DdAppsec.Helper.RemoteConfig.Requests
import DdAppsec.Helper.RemoteConfig.Parser
import DdAppsec.Helper.RemoteConfig.Poll
import DdAppsec.Helper.RemoteConfig.Contributions
import DdAppsec.Helper.RemoteConfig.Frames
import DdAppsec.Helper.RemoteConfig.ClientHandler
import DdAppsec.Helper.RemoteConfig.RulesData
import DdAppsec.Helper.RemoteConfig.Effective
import DdAppsec.Helper.RemoteConfig.FromScratch
import DdAppsec.Extension.HelperArgs
import DdAppsec.Helper.Config
import DdAppsec.Protocol.HelperLaunch
import DdAppsec.Extension.Commands
import DdAppsec.Protocol.Values
import DdAppsec.Protocol.Responses
import DdAppsec.Extension.UserEvents
import DdAppsec.Extension.Backoff
import DdAppsec.Helper.RemoteConfig.Expirations
import DdAppsec.Helper.RemoteConfig.Atomicity
import DdAppsec.Helper.RemoteConfig.ParserGuards
import DdAppsec.Helper.RuntimeIdPool
import DdAppsec.Lib.Floors
import DdAppsec.Helper.JsonImage
import DdAppsec.Helper.Publish
import DdAppsec.Helper.Sampler
import DdAppsec.Extension.Credentials
import DdAppsec.Protocol.Sending
import DdAppsec.Helper.RemoteConfig.Intervals
import DdAppsec.Helper.RemoteConfig.SectionNames
import DdAppsec.Extension.MessageBody
import DdAppsec.Lib.Memory
import DdAppsec.Lib.Text
import DdAppsec.Extension.PathParams
import DdAppsec.Extension.RequestAbort
import DdAppsec.Extension.SplitParams
import DdAppsec.Lib.Groups
import DdAppsec.Extension.RequestShutdown
import DdAppsec.Extension.Cookies
import DdAppsec.Extension.Cookies
import DdAppsec.Extension.IpAddress
import DdAppsec.Extension.ForwardedFor
import DdAppsec.Extension.Forwarded
import DdAppsec.Extension.IpExtraction
import DdAppsec.Extension.Launch
import DdAppsec.Extension.Launch.Claims
import DdAppsec.Extension.Launch.Descriptors
import DdAppsec.Extension.Launch.Invariant
import DdAppsec.Extension.Launch.OneHelper
import DdAppsec.Extension.SpanTags
import DdAppsec.Lib.Countdown
import DdAppsec.Extension.SpanTags.AtEnd
import DdAppsec.Extension.Verdict
import DdAppsec.Extension.Verdict.Parameters
import DdAppsec.Extension.Abort
import DdAppsec.Extension.Verdict.Form
import DdAppsec.Protocol.Verdicts
import DdAppsec.Protocol.Reports
import DdAppsec.Extension.ClientInit
import DdAppsec.Extension.Configuration
import DdAppsec.Helper.ClientInitRequest
import DdAppsec.Protocol.ClientInit
