import WaxxyLive.Lib.Runs
import WaxxyLive.Lib.WriteLog
import WaxxyLive.Lib.Registry
import WaxxyLive.Lib.Separated
import WaxxyLive.Lib.FirstSeen
import WaxxyLive.Lib.Tables
import WaxxyLive.Lib.Cascade
import WaxxyLive.Firestore
import WaxxyLive.CoreData
import WaxxyLive.Registration
import WaxxyLive.Streaming
import WaxxyLive.TabBars
import WaxxyLive.TagsField
import WaxxyLive.ListenerTags
import WaxxyLive.HostTags
import WaxxyLive.Login
import WaxxyLive.LoginOrder
import WaxxyLive.Clients
import WaxxyLive.Profiles
import WaxxyLive.Emails
import WaxxyLive.Browse
import WaxxyLive.HostObjects
import WaxxyLive.HostsCollection
import WaxxyLive.BrowseRows
import WaxxyLive.HalfMade
import WaxxyLive.Wizard
import WaxxyLive.Sessions
import WaxxyLive.MuxLive
import WaxxyLive.MuxLiveSettings
import WaxxyLive.MuxLiveDelegate
import WaxxyLive.MuxConfiguration
import WaxxyLive.Broadcast
import WaxxyLive.GoLive
import WaxxyLive.Lib.Bytes
import WaxxyLive.Lib.Binary64
import WaxxyLive.Lib.SortWindow
import WaxxyLive.LiveKit.RtmpChunk
import WaxxyLive.LiveKit.RtmpRoundTrip
import WaxxyLive.LiveKit.StreamingBuffer
import WaxxyLive.LiveKit.MediaMessages
import WaxxyLive.LiveKit.RtmpSocket
import WaxxyLive.LiveKit.SocketRuns
import WaxxyLive.LiveKit.Publishing
import WaxxyLive.LiveKit.VideoEncoder
import WaxxyLive.LiveKit.AudioEncoder
import WaxxyLive.LiveKit.LiveSession
import WaxxyLive.LiveKit.SessionRuns
import WaxxyLive.LiveKit.Amf
import WaxxyLive.LiveKit.AmfRoundTrip
import WaxxyLive.LiveKit.RtmpInvoke
import WaxxyLive.LiveKit.RtmpCalls
import WaxxyLive.LiveKit.RtmpHandshake
import WaxxyLive.LiveKit.RtmpProgress
