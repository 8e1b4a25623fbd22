import CommonComponent.FramedStream
import CommonComponent.LabelledRun
import CommonComponent.ProtoMsgCodec
import CommonComponent.RecordTimeoutMgr
import CommonComponent.RecordTimeoutMgrRun
import CommonComponent.SeqNum
import CommonComponent.TimerAxis
import CommonComponent.TimerAxisRun
import CommonComponent.ProtoLogic
import CommonComponent.ProtoLogicReassembly
import CommonComponent.TransCenter
import CommonComponent.TransCenterRun
import CommonComponent.TransCenterNotification
import CommonComponent.TransCenterPeerLoop
import CommonComponent.ProtoTcpClient
import CommonComponent.ProtoTcpClientRead
import CommonComponent.ProtoTcpClientFrames
import CommonComponent.TransCenterWatch
import CommonComponent.ProtoTcpClientPeers
import CommonComponent.ProtoTcpClientSharing
import CommonComponent.ProtoTcpClientConnection
import CommonComponent.ProtoTcpClientReconnect
import CommonComponent.TimerAxisRearm
import CommonComponent.ConnCenter
import CommonComponent.ConnCenterRun
import CommonComponent.ConnCenterClose
import CommonComponent.ProtoTcpClientCache
import CommonComponent.ProtoTcpClientOrder
import CommonComponent.ProtoTcpClientExpiry
import CommonComponent.ProtoMsgCodecRoundTrip
import CommonComponent.NormalConn
import CommonComponent.ConnPairing
import CommonComponent.ReadCallback
import CommonComponent.WebsocketParser
import CommonComponent.WsParser
import CommonComponent.WsReassembly
import CommonComponent.HttpParser
import CommonComponent.HttpParserChunks
import CommonComponent.HttpParserStream
import CommonComponent.HttpParserPipelining
import CommonComponent.HttpParserSharing
import CommonComponent.WebLogicPartMsg
import CommonComponent.ThreadTaskQueue
import CommonComponent.ThreadCommandOrder
import CommonComponent.ProtoMsgCodecLimit
import CommonComponent.ConnCenterCreate
import CommonComponent.SeqNumRun
import CommonComponent.ProtoTcpClientDisconnect
import CommonComponent.ConfCenter
import CommonComponent.ThreadStopLock
import CommonComponent.ProtoTcpClientRemoval
import CommonComponent.ProtoTcpClientCalls
import CommonComponent.FueledLoop
import CommonComponent.NormalConnWrite
import CommonComponent.TextPieces
import CommonComponent.HttpBoundary
import CommonComponent.WebUtil
import CommonComponent.HttpFormQuery
import CommonComponent.ConnCenterStorm
import CommonComponent.ProtoTcpClientCenter
import CommonComponent.ProtoTcpClientSend
import CommonComponent.FormatBuffer
import CommonComponent.HttpLines
import CommonComponent.HttpRspMaker
import CommonComponent.HttpReqDump
import CommonComponent.GlobLanguage
import CommonComponent.StrUtil
import CommonComponent.TextReplacement
import CommonComponent.StrPrintf
import CommonComponent.StrReplace
import CommonComponent.HexDump
import CommonComponent.NumStr
import CommonComponent.AddrPortUtil
import CommonComponent.TruncatedDivision
import CommonComponent.NumUtil
import CommonComponent.TimeCompare
import CommonComponent.Variant
import CommonComponent.VariantRun
import CommonComponent.RoundRobin
import CommonComponent.Scheduler
import CommonComponent.AppFrame
import CommonComponent.CopyMemory
import CommonComponent.CopyStore
import CommonComponent.TimerAxisData
import CommonComponent.TimerAxisRecycle
import CommonComponent.TransCenterData
import CommonComponent.AsyncDataLaw
import CommonComponent.TransCenterDataRun
import CommonComponent.FastCrc32Burst
import CommonComponent.ProtoSessionReplies
import CommonComponent.MultipartRoundTrip
import CommonComponent.WsMessages
import CommonComponent.ThreadTasks
import CommonComponent.ThreadTasksIds
import CommonComponent.ThreadTasksRun
import CommonComponent.MainThreadRun
import CommonComponent.HttpClientRun
