import PtlinkIrcd.Channel.BanBurst
import PtlinkIrcd.Channel.BanLines
import PtlinkIrcd.Channel.Canonize
import PtlinkIrcd.Channel.CommonChannels
import PtlinkIrcd.Channel.FloodLimit
import PtlinkIrcd.Channel.Invitations
import PtlinkIrcd.Channel.KeyToken
import PtlinkIrcd.Channel.ListLines
import PtlinkIrcd.Channel.MaskSearch
import PtlinkIrcd.Channel.Listing
import PtlinkIrcd.Channel.ModeBuffers
import PtlinkIrcd.Channel.NamesList
import PtlinkIrcd.Channel.NickBan
import PtlinkIrcd.Channel.StatusDelivery
import PtlinkIrcd.Channel.Targets
import PtlinkIrcd.Client.FludCount
import PtlinkIrcd.Client.HuntServer
import PtlinkIrcd.Client.Login
import PtlinkIrcd.Client.Lookups
import PtlinkIrcd.Client.Subtree
import PtlinkIrcd.Conf.AddressText
import PtlinkIrcd.Conf.Autoconnect
import PtlinkIrcd.Conf.Cluster
import PtlinkIrcd.Conf.ClassLimits
import PtlinkIrcd.Conf.DconfRequired
import PtlinkIrcd.Conf.DlineRuns
import PtlinkIrcd.Conf.GlineReport
import PtlinkIrcd.Conf.GlineUsers
import PtlinkIrcd.Conf.Initconf
import PtlinkIrcd.Conf.IpCounts
import PtlinkIrcd.Conf.IpKline
import PtlinkIrcd.Conf.KlineTime
import PtlinkIrcd.Conf.Quoting
import PtlinkIrcd.Conf.Sqline
import PtlinkIrcd.Conf.Sxline
import PtlinkIrcd.Conf.Unkline
import PtlinkIrcd.Conf.Zline
import PtlinkIrcd.Model.Compare
import PtlinkIrcd.Model.MatchReads
import PtlinkIrcd.Model.Sprintf
import PtlinkIrcd.Net.CodepageBounds
import PtlinkIrcd.Net.CommandTree
import PtlinkIrcd.Net.DbufRuns
import PtlinkIrcd.Net.DnsAnswer
import PtlinkIrcd.Net.DnsDecode
import PtlinkIrcd.Net.Dopacket
import PtlinkIrcd.Net.ResolverTime
import PtlinkIrcd.Net.Splitter
import PtlinkIrcd.Net.Throttle
import PtlinkIrcd.Net.ZipSend
import PtlinkIrcd.Table.Names
import PtlinkIrcd.Table.DnsCache
import PtlinkIrcd.Table.ServerNames
import PtlinkIrcd.Table.Watch
import PtlinkIrcd.Table.Whowas
import PtlinkIrcd.User.CleanNick
import PtlinkIrcd.User.Cloak
import PtlinkIrcd.User.DccFile
import PtlinkIrcd.User.Newmask
import PtlinkIrcd.User.Privilege
import PtlinkIrcd.User.ServicesUse
import PtlinkIrcd.User.Statistics
import PtlinkIrcd.User.SvsmodeHops
import PtlinkIrcd.User.TargetLimit
import PtlinkIrcd.User.UmodeBuffer
import PtlinkIrcd.User.Who
import PtlinkIrcd.User.Whois
import PtlinkIrcd.Lib.Probing
import PtlinkIrcd.Net.Resolver
import PtlinkIrcd.Net.ResolverTime
