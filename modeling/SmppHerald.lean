import SmppHerald.AbsoluteTimes
import SmppHerald.AcceptedPdus
import SmppHerald.Accounting
import SmppHerald.AcknowledgedSubmissions
import SmppHerald.Acknowledgements
import SmppHerald.BindHandshake
import SmppHerald.BindOrder
import SmppHerald.BrokerAccounting
import SmppHerald.Buffer
import SmppHerald.CallbackOwners
import SmppHerald.CancelAgreement
import SmppHerald.CancelledDelivery
import SmppHerald.ClientConnection
import SmppHerald.ClientManager
import SmppHerald.ClientRun
import SmppHerald.CommandIds
import SmppHerald.ConnectionLoop
import SmppHerald.ConnectionManager
import SmppHerald.ConnectionRun
import SmppHerald.DecodeRuns
import SmppHerald.DecodedMessage
import SmppHerald.Delimiting
import SmppHerald.DeliveryHandover
import SmppHerald.DeliveryQueue
import SmppHerald.DeliveryReceipts
import SmppHerald.DeliveryWindow
import SmppHerald.Encodability
import SmppHerald.EncodedLayout
import SmppHerald.EndToEnd
import SmppHerald.ExpiredDelivery
import SmppHerald.FairTurns
import SmppHerald.FieldCodec
import SmppHerald.FieldSizes
import SmppHerald.GatewayRegistry
import SmppHerald.HandedRemoval
import SmppHerald.HandlerCalls
import SmppHerald.HandlerResponses
import SmppHerald.HeaderLayout
import SmppHerald.IdGenerators
import SmppHerald.InMemoryDelivery
import SmppHerald.InMemoryLoops
import SmppHerald.InMemoryRun
import SmppHerald.InMemoryStorage
import SmppHerald.Io
import SmppHerald.Json
import SmppHerald.Library.Base64
import SmppHerald.Library.BinarySearch
import SmppHerald.Library.ByteParser
import SmppHerald.Library.Callbacks
import SmppHerald.Library.CursorProgram
import SmppHerald.Library.Environment
import SmppHerald.Library.Failover
import SmppHerald.Library.FairLock
import SmppHerald.Library.FixedWidth
import SmppHerald.Library.Gregorian
import SmppHerald.Library.Interaction
import SmppHerald.Library.KeyedList
import SmppHerald.Library.Ledger
import SmppHerald.Library.MultiMap
import SmppHerald.Library.ParameterizedQuery
import SmppHerald.Library.Revocation
import SmppHerald.Library.Selecting
import SmppHerald.Library.SharedWriter
import SmppHerald.Library.SingleEmission
import SmppHerald.Library.StreamFraming
import SmppHerald.Library.Sweep
import SmppHerald.Library.TransitionSystem
import SmppHerald.Library.Turns
import SmppHerald.Library.Utf8
import SmppHerald.LoadBalancing
import SmppHerald.Message
import SmppHerald.MessageHandlers
import SmppHerald.Narrowing
import SmppHerald.OwnResponses
import SmppHerald.PduFormat
import SmppHerald.PeerAdmission
import SmppHerald.PlainText
import SmppHerald.PredefinedMessages
import SmppHerald.RabbitMqStorage
import SmppHerald.ReceiptCompletion
import SmppHerald.ReceiveBuffer
import SmppHerald.RedisAccounting
import SmppHerald.RedisAgreement
import SmppHerald.RedisDelivery
import SmppHerald.RedisStorage
import SmppHerald.Relay
import SmppHerald.ReplaceAgreement
import SmppHerald.RequestOrder
import SmppHerald.ResponseDispatch
import SmppHerald.ResponseEncoding
import SmppHerald.ResponseManagers
import SmppHerald.Responses
import SmppHerald.RestSubmission
import SmppHerald.RoundTrip
import SmppHerald.ServerAnswers
import SmppHerald.ServerConnection
import SmppHerald.ServerMessage
import SmppHerald.ServerRun
import SmppHerald.SessionRequests
import SmppHerald.SqlDelivery
import SmppHerald.SqlStatements
import SmppHerald.SqlStorage
import SmppHerald.StorageAgreement
import SmppHerald.StorageScans
import SmppHerald.SubmitMultiCopies
import SmppHerald.SupersedingSave
import SmppHerald.Time
import SmppHerald.TimeTexts
import SmppHerald.TouchedMessages
import SmppHerald.TransactionMode
import SmppHerald.TransactionRun
import SmppHerald.Truncation
import SmppHerald.UserIndex
import SmppHerald.ValidityPeriods
import SmppHerald.VarLengthInt
import SmppHerald.WireFormat
import SmppHerald.WireStreams
import SmppHerald.WriterDeadlock
import SmppHerald.WriterLock
