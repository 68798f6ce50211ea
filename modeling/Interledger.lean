import Interledger.Lib.Action
import Interledger.Lib.Base64
import Interledger.Lib.Bookkeeping
import Interledger.Lib.Bytes
import Interledger.Lib.Codec
import Interledger.Lib.Crypto
import Interledger.Lib.Calendar
import Interledger.Lib.Text
import Interledger.Lib.Heap
import Interledger.Lib.Machine
import Interledger.Lib.OrderedMap
import Interledger.Lib.RateInterval
import Interledger.Lib.SingleFlight
import Interledger.Ilp.Packet
import Interledger.Stream.Frame
import Interledger.Stream.Long
import Interledger.Stream.MultiplyDivide
import Interledger.Stream.CheckedLong
import Interledger.Stream.Receipt
import Interledger.Pay.Amount
import Interledger.Pay.Controllers
import Interledger.Pay.RateBounds
import Interledger.Pay.PathCapacity
import Interledger.Pay.Quote
import Interledger.Pay.StreamSender
import Interledger.Pay.Sender
import Interledger.Pay.Scheduler
import Interledger.Pay.Start
import Interledger.Pay.RateProbe
import Interledger.Pay.ProbeResult
import Interledger.Pay.PaymentSender
import Interledger.Pay.Accounting
import Interledger.Pay.ConstantRate
import Interledger.Pay.Payable
import Interledger.Pay.StartRun
import Interledger.Pay.Completion
import Interledger.Pay.Progress
import Interledger.Payout.PayoutConnection
import Interledger.Payout.Payouts
import Interledger.Payout.Progress
import Interledger.Stream.OffsetSorter
import Interledger.Stream.DataAndMoneyStream
import Interledger.Stream.MoneyHolds
import Interledger.Stream.Congestion
import Interledger.Stream.CongestionRange
import Interledger.Stream.Connection
import Interledger.Stream.HandlePrepare
import Interledger.Stream.StreamTable
import Interledger.Stream.OpenStreams
import Interledger.Stream.IncomingHold
import Interledger.Stream.ReceiveLimit
import Interledger.Stream.SendPacket
import Interledger.Stream.Counters
import Interledger.Stream.SplitMoney
import Interledger.Stream.HeldMoney
import Interledger.Stream.OutgoingHold
import Interledger.Stream.IssuedHolds
import Interledger.Stream.OutgoingData
import Interledger.Stream.Delivery
import Interledger.Stream.Transfer
import Interledger.Stream.SendLoop
import Interledger.Stream.ServerToken
import Interledger.Stream.ServerConnectionPool
import Interledger.Oer.Util
import Interledger.Oer.Writer
import Interledger.Oer.Reader
import Interledger.Oer.OctetString
import Interledger.Oer.Peek
import Interledger.Oer.Integer
import Interledger.Oer.Predictor
import Interledger.Oer.WriterInterface
import Interledger.Oer.WriterBytes
import Interledger.Oer.WriterMemory
import Interledger.Oer.Compound
import Interledger.IlpPacket.Address
import Interledger.IlpPacket.Date
import Interledger.IlpPacket.Codec
import Interledger.IlpPacket.PeerProtocol
import Interledger.IlpPacket.Relay
import Interledger.IlpPacket.Reply
import Interledger.IlpPacket.Errors
import Interledger.IlpPacket.Amount
import Interledger.Stream.PacketCodec
import Interledger.Stream.PacketSize
import Interledger.Stream.PacketEncryption
import Interledger.Stream.ConnectionTransfer
import Interledger.Stream.ExchangeRate
import Interledger.Stream.ReceiptFormat
import Interledger.Ccp.Uuid
import Interledger.Ccp.Codec
import Interledger.Ccp.Relay
import Interledger.StreamReceiver.Utils
import Interledger.StreamReceiver.Credentials
import Interledger.StreamReceiver.CreateReply
import Interledger.StreamReceiver.Instances
import Interledger.StreamReceiver.Sends
import Interledger.Pay.Request
import Interledger.Ildcp.Codec
import Interledger.Ildcp.Serve
