import HuntProxy.Lib.Dict
import HuntProxy.Lib.Machine
import HuntProxy.Lib.Slots
import HuntProxy.Scheduler.Registry
import HuntProxy.Scheduler.Mutex
import HuntProxy.Scheduler.Queue
import HuntProxy.Scheduler.Cancel
import HuntProxy.Scheduler.Delete
import HuntProxy.Scheduler.Download
import HuntProxy.Scheduler.EditTyped
import HuntProxy.Scheduler.EditRun
import HuntProxy.Hunt.Single
import HuntProxy.Hunt.Release
import HuntProxy.Hunt.Owner
import HuntProxy.Hunt.Exclusive
import HuntProxy.Hunt.Recheck
import HuntProxy.Routing.Cache
import HuntProxy.Routing.Connect
import HuntProxy.Proxy.Forward
import HuntProxy.Hunt.Skip
import HuntProxy.Validation.Cancellation
import HuntProxy.Validation.Suspension
import HuntProxy.Validation.Count
import HuntProxy.Blacklist.Persist
import HuntProxy.Blacklist.Agree
import HuntProxy.Blacklist.Hits
import HuntProxy.Rating.Fraud
import HuntProxy.Rating.Persist
import HuntProxy.Rating.Flags
import HuntProxy.Channel.FailClosed
import HuntProxy.Interception.BlackHole
import HuntProxy.Blacklist.UserData
import HuntProxy.Routing.Terminates
import HuntProxy.Traffic.Stats
import HuntProxy.Storage.Writer
import HuntProxy.Storage.SaveAtomic
import HuntProxy.Storage.BackupExact
import HuntProxy.Traffic.History
import HuntProxy.Storage.EventLog
import HuntProxy.Proxy.Rewrite
import HuntProxy.Proxy.Socks5
import HuntProxy.Rating.Score
import HuntProxy.Rating.Proxycheck
import HuntProxy.Rating.Grace
import HuntProxy.Routing.Priorities
import HuntProxy.Routing.PoolOrder
import HuntProxy.Routing.Chain
import HuntProxy.Proxy.Refusal
import HuntProxy.Proxy.Retry
import HuntProxy.Proxy.HttpConnect
import HuntProxy.Blacklist.FastRange
import HuntProxy.Scheduler.Canary
import HuntProxy.Rating.CountryFilter
import HuntProxy.Rating.Mitm
import HuntProxy.Rating.Speed
import HuntProxy.Routing.SwitchHistory
import HuntProxy.Routing.IpRules
import HuntProxy.Routing.DomainRules
import HuntProxy.Interception.Address
import HuntProxy.Hunt.Sources
import HuntProxy.Interception.Spec
import HuntProxy.Web.Connection
import HuntProxy.Web.Secrets
import HuntProxy.Web.Edits
import HuntProxy.Web.PacStore
