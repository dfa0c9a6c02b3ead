import Loomic.Alignment
import Loomic.Cleanup
import Loomic.ConvIds
import Loomic.Delivery
import Loomic.DeliveryOrder
import Loomic.Receipts
import Loomic.Routing
import Loomic.Snowflake
import Loomic.WholeFrames
import Loomic.Connections
import Loomic.Gauges
import Loomic.Reachability
import Loomic.Presence
import Loomic.DeliveryFormat
import Loomic.TextFrames
import Loomic.WebSocketTexts
import Loomic.AuthHandler
import Loomic.GroupsHandler
import Loomic.HttpAnswers
import Loomic.Lib.Scheduling
import Loomic.RefreshTokens
import Loomic.RequestIds
import Loomic.GroupAdmins
import Loomic.GroupCache
import Loomic.Reassembly
import Loomic.ChatFrames
import Loomic.Transports
import Loomic.ReadMarks
import Loomic.History
import Loomic.ChatGateway
import Loomic.UnreadCounters
import Loomic.DeletedMessages
import Loomic.MessageList
import Loomic.ReceiptGuesses
import Loomic.PgPool
import Loomic.FanOut
import Loomic.DoWrite
import Loomic.CurrentSessions
import Loomic.OfflineQueue
import Loomic.OldFormats
import Loomic.Previews
import Loomic.HistoryCursor
import Loomic.ConversationList
import Loomic.MessageMerge
import Loomic.ReceiptRanks
import Loomic.MessageBuffer
import Loomic.SendRoute
import Loomic.ProtoMessages
import Loomic.ProtoFields
import Loomic.RateLimiter
import Loomic.PasswordService
import Loomic.Dotenv
import Loomic.PathRendering
import Loomic.UploadedFiles
import Loomic.Multipart
import Loomic.IdStrings
import Loomic.UserSearch
import Loomic.StoredSession
import Loomic.QueryStrings
import Loomic.Authorization
import Loomic.OneAdmin
import Loomic.SessionRefresh
import Loomic.FirstFrames
import Loomic.Lib.Base64
import Loomic.Copies
import Loomic.BrowserTexts
import Loomic.ShownTexts
import Loomic.Accounts
import Loomic.GatewaySockets
import Loomic.JwtTokens
import Loomic.Heartbeats
import Loomic.RoutedRate
