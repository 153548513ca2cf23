import Gfiber.Lib.Run
import Gfiber.Lib.Word
import Gfiber.Lib.Queue
import Gfiber.Lib.Double
import Gfiber.Lib.Sha256
import Gfiber.Lib.Slice
import Gfiber.Lib.Mirror
import Gfiber.Lib.Struct
import Gfiber.Lib.Text
import Gfiber.Lib.Memory
import Gfiber.Lib.CString
import Gfiber.Lib.Iteration
import Gfiber.Lib.Propagation
import Gfiber.Isoping.Packet
import Gfiber.Isoping.Sockaddr
import Gfiber.Isoping.Session
import Gfiber.Isoping.AckHandling
import Gfiber.Isoping.PacketHandling
import Gfiber.Isostream.PacingProperties
import Gfiber.Isoping.LossProperties
import Gfiber.Isoping.Exchange
import Gfiber.Isoping.LatencyProperties
import Gfiber.Isoping.Cookies
import Gfiber.Isoping.SessionMap
import Gfiber.Isoping.Sessions
import Gfiber.Isoping.Server
import Gfiber.Isoping.QueueProperties
import Gfiber.Isoping.History
import Gfiber.Isoping.CookieProperties
import Gfiber.Isoping.RateProperties
import Gfiber.Isoping.Client
import Gfiber.Isoping.HandshakeProperties
import Gfiber.Isoping.AckProperties
import Gfiber.Sysvar.Crc
import Gfiber.Sysvar.Block
import Gfiber.Sysvar.Buffer
import Gfiber.Sysvar.CodecProperties
import Gfiber.Sysvar.Flash
import Gfiber.Sysvar.Store
import Gfiber.Sysvar.LoadProperties
import Gfiber.Sysvar.SaveProperties
import Gfiber.Stun.Codec
import Gfiber.Stun.CodecProperties
import Gfiber.Sysvar.AccountingProperties
import Gfiber.Sysvar.Crash
import Gfiber.Sysvar.CrashProperties
import Gfiber.Waveguide.Consensus
import Gfiber.Waveguide.ConsensusProperties
import Gfiber.Waveguide.Wgdata
import Gfiber.Waveguide.WgdataProperties
import Gfiber.Waveguide.Managers
import Gfiber.Waveguide.ManagersProperties
import Gfiber.Conman.Status
import Gfiber.Conman.StatusProperties
import Gfiber.Conman.ExportProperties
import Gfiber.Conman.Routes
import Gfiber.Conman.RouteProperties
import Gfiber.Conman.Ratchet
import Gfiber.Conman.RatchetProperties
import Gfiber.Conman.WlanConfiguration
import Gfiber.Conman.Cycler
import Gfiber.Conman.CyclerProperties
import Gfiber.Conman.ConnectionManager
import Gfiber.Conman.ManagerProperties
import Gfiber.Conman.AccessPointProperties
import Gfiber.Conman.ConfigStatusProperties
import Gfiber.Conman.AccessPointFileProperties
import Gfiber.Logupload.Anonymize
import Gfiber.Logupload.AnonymizeProperties
import Gfiber.Logupload.Uploader
import Gfiber.Logupload.SequenceProperties
import Gfiber.Logupload.IsolationProperties
import Gfiber.Logos.RateLimit
import Gfiber.Logos.RateLimitProperties
import Gfiber.Logos.Framing
import Gfiber.Logos.FramingProperties
import Gfiber.Speedtest.Url
import Gfiber.Speedtest.UrlPartsProperties
import Gfiber.Speedtest.UrlProperties
import Gfiber.Speedtest.UrlGrammarProperties
import Gfiber.Speedtest.UrlObject
import Gfiber.Speedtest.UrlObjectProperties
import Gfiber.Lib.Scanf
import Gfiber.Hnvram.Format
import Gfiber.Hnvram.FormatProperties
import Gfiber.Libexperiments.Experiments
import Gfiber.Libexperiments.AgreementProperties
import Gfiber.Lib.Utf8
import Gfiber.Lib.Lines
import Gfiber.Wifi.Validation
import Gfiber.Wifi.Configs
import Gfiber.Wifi.LineProperties
import Gfiber.Lib.Numeral
import Gfiber.Conman.Iw
import Gfiber.Conman.IwProperties
import Gfiber.Wifi.Quantenna
import Gfiber.Wifi.QuantennaProperties
import Gfiber.Wifi.HiddenNetwork
import Gfiber.Wifi.HiddenNetworkProperties
import Gfiber.Lib.Exec
import Gfiber.Ginstall.Manifest
import Gfiber.Ginstall.Device
import Gfiber.Ginstall.Install
import Gfiber.Ginstall.InstallProperties
import Gfiber.Ginstall.EntryProperties
import Gfiber.Ginstall.LoaderProperties
import Gfiber.Ginstall.VerificationProperties
import Gfiber.Ginstall.ImageProperties
import Gfiber.Ginstall.PartitionProperties
import Gfiber.Bouncer.Authorizer
import Gfiber.Bouncer.AuthorizerProperties
import Gfiber.Lib.Reader
import Gfiber.Ginstall.VersionProperties
import Gfiber.Ginstall.Copy
import Gfiber.Ginstall.CopyProperties
import Gfiber.WifiFiles.Stations
import Gfiber.WifiFiles.TotalsProperties
import Gfiber.Wifi.Autochannel
import Gfiber.Wifi.AutochannelProperties
import Gfiber.Wifi.InterfaceProperties
import Gfiber.Lib.Json
import Gfiber.Jsonpoll.Poller
import Gfiber.Jsonpoll.PollerProperties
import Gfiber.CacheWarming.HitLog
import Gfiber.CacheWarming.RankProperties
import Gfiber.CacheWarming.FetchProperties
import Gfiber.Lib.Elements
import Gfiber.Taxonomy.AnonymizePcap
import Gfiber.Taxonomy.AnonymizePcapProperties
import Gfiber.Lib.Casefold
import Gfiber.Ssdptax.Responses
import Gfiber.Ssdptax.Report
import Gfiber.Ssdptax.OutputProperties
import Gfiber.Stun.DecodeProperties
import Gfiber.Stun.LookupProperties
import Gfiber.Bouncer.Polling
import Gfiber.Bouncer.PollingProperties
import Gfiber.Bouncer.RefinementProperties
import Gfiber.Spectral.Scan
import Gfiber.Spectral.ScanProperties
import Gfiber.Spectral.Buckets
import Gfiber.Spectral.PercentProperties
import Gfiber.GpioMailbox.Leds
import Gfiber.GpioMailbox.Mailbox
import Gfiber.GpioMailbox.LedProperties
import Gfiber.GpioMailbox.MailboxProperties
import Gfiber.GpioMailbox.HistoryProperties
import Gfiber.Ssdptax.AddressProperties
import Gfiber.Ssdptax.FieldProperties
import Gfiber.Mmap.Commands
import Gfiber.Mmap.Script
import Gfiber.Mmap.WindowProperties
import Gfiber.Sysvar.SettingProperties
import Gfiber.Sysvar.ReadProperties
import Gfiber.Sysvar.CounterProperties
import Gfiber.Lib.Sorting
import Gfiber.Waveguide.Autochannel
import Gfiber.Waveguide.AutochannelProperties
import Gfiber.Conman.CyclerCallProperties
import Gfiber.Jsonpoll.SurvivalProperties
import Gfiber.Lib.MovingAverage
import Gfiber.Speedtest.Transfer
import Gfiber.Speedtest.TransferProperties
import Gfiber.Alivemonitor.Monitor
import Gfiber.Alivemonitor.MonitorProperties
import Gfiber.Conman.DeletionProperties
import Gfiber.Conman.FileEvents
import Gfiber.Conman.FileEventProperties
import Gfiber.Logos.ChargeProperties
import Gfiber.Logos.Severity
import Gfiber.Logos.SeverityProperties
import Gfiber.Lib.Marks
import Gfiber.Logupload.MarkerProperties
import Gfiber.Logupload.BoundProperties
import Gfiber.Speedtest.Region
import Gfiber.Speedtest.RegionProperties
import Gfiber.Sysmgr.DutyCycleProperties
import Gfiber.Sysmgr.DriveProperties
import Gfiber.Isoping.SockaddrProperties
import Gfiber.Waveguide.AutoDisable
import Gfiber.Waveguide.AutoDisableProperties
import Gfiber.Base.FifoBuffer
import Gfiber.Base.Pipe
import Gfiber.Base.FifoBufferProperties
import Gfiber.Base.StringEncode
import Gfiber.Base.StringEncodeProperties
import Gfiber.Base.MessageQueue
import Gfiber.Base.MessageQueueProperties
