import StationProcessor.Lib.Blocks
import StationProcessor.Lib.SlotRing
import StationProcessor.Lib.Bisect
import StationProcessor.Lib.Rotated
import StationProcessor.Lib.Decimal
import StationProcessor.Lib.BigEndian
import StationProcessor.Lib.Fallible
import StationProcessor.Lib.Assoc
import StationProcessor.Lib.OrderedSet
import StationProcessor.DccTime
import StationProcessor.SeedHeader
import StationProcessor.Map
import StationProcessor.MapContent
import StationProcessor.MapEnum
import StationProcessor.MapRuns
import StationProcessor.Diskloop.ChannelKey
import StationProcessor.Diskloop.ChannelLists
import StationProcessor.Diskloop.Overrides
import StationProcessor.Diskloop.Context
import StationProcessor.Diskloop.Append
import StationProcessor.Diskloop.Locate
import StationProcessor.Diskloop.Search
import StationProcessor.Diskloop.Open
import StationProcessor.Diskloop.Ends
import StationProcessor.Diskloop.Reopen
import StationProcessor.Diskloop.Transfer
import StationProcessor.Diskloop.Reader
import StationProcessor.Diskloop.TornIndex
import StationProcessor.Diskloop.Flushing
import StationProcessor.Diskloop.Resize
import StationProcessor.Diskloop.CloseAll
import StationProcessor.Diskloop.FileNames
import StationProcessor.Archd.Queue
import StationProcessor.Archd.QueueRuns
import StationProcessor.Archd.ChannelControl
import StationProcessor.Archd.Seedmsg
import StationProcessor.Archd.Context
import StationProcessor.Archd.Server
import StationProcessor.Archd.Receive
import StationProcessor.Archd.Acknowledge
import StationProcessor.Archd.Archive
import StationProcessor.Archd.Telemetry
import StationProcessor.Aslreq.SampleOrder
import StationProcessor.Falcon.QueueOpaque
import StationProcessor.Falcon.BufferCalls
import StationProcessor.Pcomm.Dispatch
import StationProcessor.Pcomm.Reads
import StationProcessor.Archd.ControlRequests
import StationProcessor.Falcon.ResumeTimes
import StationProcessor.Web.StationSort
import StationProcessor.Web.Alarms
import StationProcessor.Aslreq.RmsCoverage
import StationProcessor.Falcon.AlarmPolls
import StationProcessor.Falcon.Restart
import StationProcessor.Falcon.PackedMaps
import StationProcessor.DeltaPrint
import StationProcessor.Ida2arch.Resume
import StationProcessor.Ida2chan.Isidl
import StationProcessor.Archd.Clients
import StationProcessor.Archd.LogMessages
import StationProcessor.Archd.RefCounts
import StationProcessor.Falcon.Buffer
import StationProcessor.Falcon.RowMap
import StationProcessor.Falcon.Varint
import StationProcessor.Falcon.Fmash
import StationProcessor.Falcon.FmashEncode
import StationProcessor.Falcon.FmashDecode
import StationProcessor.Falcon.Csv
import StationProcessor.Falcon.CsvRuns
import StationProcessor.Falcon.Opaque
import StationProcessor.Falcon.OpaqueRecord
import StationProcessor.Falcon.OpaqueRead
import StationProcessor.Ofcweb.Fmash
import StationProcessor.Ofcweb.FmashAgree
import StationProcessor.Ofcweb.OFCb2000
import StationProcessor.Ofcweb.OpaqueAgree
import StationProcessor.Lib.Gregorian
import StationProcessor.Calendar
import StationProcessor.TimeOrder
import StationProcessor.RecordEnd
import StationProcessor.TimePrint
import StationProcessor.Lib.Runs
import StationProcessor.Diskloop.Spans
import StationProcessor.Diskloop.SpanReports
import StationProcessor.Diskloop.SearchErrors
import StationProcessor.Pcomm.Select
import StationProcessor.Pcomm.Writes
import StationProcessor.Pcomm.WriteRuns
import StationProcessor.Pcomm.Loop
import StationProcessor.Ida2liss.Progress
import StationProcessor.Aspseed.Durations
import StationProcessor.Diskloop.ReadIndex
import StationProcessor.Archd.MessageText
import StationProcessor.Archd.QueueClone
import StationProcessor.Netreq.ReadSocket
import StationProcessor.Diskloop.ConfigLines
import StationProcessor.Falcon.OpaqueChain
import StationProcessor.WildMatch
import StationProcessor.Ida2liss.FilterLists
import StationProcessor.Shake.Ufors
import StationProcessor.Netseed.DirReply
import StationProcessor.Lib330.DetectorRuns
import StationProcessor.Lib330.SliderRuns
import StationProcessor.Shake.UforsRecords
import StationProcessor.Lib330.CompressSeconds
