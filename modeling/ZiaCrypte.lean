import ZiaCrypte.Lib.Run
import ZiaCrypte.Lib.Sift
import ZiaCrypte.Lib.Cursor
import ZiaCrypte.Lib.LinkedMap
import ZiaCrypte.Lib.Async
import ZiaCrypte.Lib.Filler
import ZiaCrypte.Lib.Slots
import ZiaCrypte.Lib.Ghosts
import ZiaCrypte.Lib.Hkdf
import ZiaCrypte.Lib.Sha256
import ZiaCrypte.Lib.Sha512
import ZiaCrypte.Engine.Bytes
import ZiaCrypte.Engine.Primitives
import ZiaCrypte.Engine.Hkdf
import ZiaCrypte.Engine.SafetyNumber
import ZiaCrypte.Engine.Ratchet
import ZiaCrypte.Engine.RatchetSpec
import ZiaCrypte.Engine.RatchetMoves
import ZiaCrypte.Engine.SessionRun
import ZiaCrypte.Engine.SessionStore
import ZiaCrypte.Engine.DecryptSpec
import ZiaCrypte.Engine.Instances
import ZiaCrypte.Engine.ReceiveChain
import ZiaCrypte.Engine.SkippedCache
import ZiaCrypte.Engine.Rejection
import ZiaCrypte.Engine.StoredEquivalence
import ZiaCrypte.Engine.X3dh
import ZiaCrypte.Engine.KeySchedule
import ZiaCrypte.Engine.Symbolic
import ZiaCrypte.Engine.Replay
import ZiaCrypte.Engine.Epochs
import ZiaCrypte.Engine.Delivery
import ZiaCrypte.Engine.SenderKeys
import ZiaCrypte.Engine.SenderChain
import ZiaCrypte.Engine.GroupDelivery
import ZiaCrypte.Engine.GroupReplay
import ZiaCrypte.Engine.GroupReads
import ZiaCrypte.Engine.GroupFailures
import ZiaCrypte.Engine.OwnSenderKeys
import ZiaCrypte.Engine.SendKeys
import ZiaCrypte.Engine.Handshake
import ZiaCrypte.Engine.Agreement
import ZiaCrypte.Chat.Envelope
import ZiaCrypte.Chat.Client
import ZiaCrypte.Chat.Openings
import ZiaCrypte.Chat.Sends
import ZiaCrypte.Chat.Receives
import ZiaCrypte.Chat.ChatService
import ZiaCrypte.Chat.Guarded
import ZiaCrypte.Chat.SafeBodies
import ZiaCrypte.Chat.SafeSends
import ZiaCrypte.Chat.SafeReceives
import ZiaCrypte.Chat.Effects
import ZiaCrypte.Chat.RunChecks
import ZiaCrypte.Chat.PollPinning
import ZiaCrypte.Chat.GroupMembership
import ZiaCrypte.Chat.PendingHandshake
import ZiaCrypte.Chat.KeyReuse
import ZiaCrypte.Chat.GroupRestarts
import ZiaCrypte.Chat.KeyDistribution
import ZiaCrypte.Server.Database
import ZiaCrypte.Server.Routes
import ZiaCrypte.Server.Recipients
import ZiaCrypte.Server.Delivery
import ZiaCrypte.Server.Prekeys
import ZiaCrypte.Server.PrekeyHandout
import ZiaCrypte.Inbox.Dart
import ZiaCrypte.Inbox.History
import ZiaCrypte.Inbox.Controls
import ZiaCrypte.Inbox.PollOnce
import ZiaCrypte.Inbox.Frames
import ZiaCrypte.Inbox.Scripted
import ZiaCrypte.Inbox.ControlAuthors
import ZiaCrypte.Inbox.Openings
import ZiaCrypte.Inbox.ControlFrame
import ZiaCrypte.Inbox.Isolation
import ZiaCrypte.Inbox.Batches
import ZiaCrypte.Inbox.PeerNames
import ZiaCrypte.Inbox.SealedTransport
import ZiaCrypte.Inbox.Backfill
import ZiaCrypte.Inbox.PollSteps
import ZiaCrypte.Inbox.Readings
import ZiaCrypte.Inbox.MessageLoss
import ZiaCrypte.Inbox.EngineViews
import ZiaCrypte.Inbox.KeyOrigins
import ZiaCrypte.Storage.IdentityStore
import ZiaCrypte.Storage.IdentityFormat
import ZiaCrypte.Storage.Device
import ZiaCrypte.Storage.EngineCalls
import ZiaCrypte.Storage.Persistence
import ZiaCrypte.Storage.EngineRuns
import ZiaCrypte.Storage.Symbolic
import ZiaCrypte.Storage.HandshakeAgreement
import ZiaCrypte.Storage.Consumption
import ZiaCrypte.Storage.IdentityFile
import ZiaCrypte.Storage.Vault
import ZiaCrypte.Storage.Backup
import ZiaCrypte.Storage.BackupFormat
import ZiaCrypte.Storage.BackupRoundTrip
import ZiaCrypte.Storage.BackupFailures
import ZiaCrypte.Storage.SessionVault
import ZiaCrypte.Storage.BackupSessions
import ZiaCrypte.Storage.PrekeyClient
import ZiaCrypte.Storage.PublishedPrekeys
import ZiaCrypte.Storage.PublishedRuns
import ZiaCrypte.Storage.SecureBlob
import ZiaCrypte.Lib.Index
import ZiaCrypte.Realtime.Gateway
import ZiaCrypte.Realtime.GatewaySpec
import ZiaCrypte.Realtime.GatewayIndexes
import ZiaCrypte.Realtime.PresenceSeen
import ZiaCrypte.Realtime.Revocation
import ZiaCrypte.Realtime.Observation
import ZiaCrypte.Realtime.Subscriptions
import ZiaCrypte.Realtime.Blocking
import ZiaCrypte.Realtime.SignalOrder
import ZiaCrypte.Server.BlockSecrecy
import ZiaCrypte.Server.RefreshTokens
import ZiaCrypte.Server.TwoFactor
import ZiaCrypte.Server.PasswordLimit
import ZiaCrypte.Server.PasswordReset
import ZiaCrypte.Server.IdentityKeys
import ZiaCrypte.Server.Totp
import ZiaCrypte.Server.ConversationRequests
import ZiaCrypte.Server.DirectConversations
import ZiaCrypte.Server.Attachments
import ZiaCrypte.Server.StoredObjects
import ZiaCrypte.Server.SealedDeposit
import ZiaCrypte.Calls.CallService
import ZiaCrypte.Calls.Signals
import ZiaCrypte.Calls.Coherence
import ZiaCrypte.Calls.Strangers
import ZiaCrypte.Calls.LeftRinging
import ZiaCrypte.Sending.Outbox
import ZiaCrypte.Sending.Guards
import ZiaCrypte.Sending.SafeSends
import ZiaCrypte.Sending.Lines
import ZiaCrypte.Sending.FailedSends
import ZiaCrypte.Sending.Receipts
import ZiaCrypte.Sending.Copies
import ZiaCrypte.Sending.Phases
import ZiaCrypte.Sending.Accounts
import ZiaCrypte.Sending.Deposits
import ZiaCrypte.Sending.Duplicates
import ZiaCrypte.Inbox.OrdinaryTexts
import ZiaCrypte.Inbox.Payloads
import ZiaCrypte.Inbox.JsonCodec
import ZiaCrypte.Inbox.SavedRecords
import ZiaCrypte.Inbox.Operations
import ZiaCrypte.Inbox.LosslessRecords
import ZiaCrypte.Inbox.LosslessRuns
import ZiaCrypte.Inbox.IdentityPinning
import ZiaCrypte.Inbox.DisappearingMessages
import ZiaCrypte.Inbox.Downloads
import ZiaCrypte.Channels.ChannelKey
import ZiaCrypte.Channels.ChannelService
import ZiaCrypte.Channels.Guards
import ZiaCrypte.Channels.SafeChannels
import ZiaCrypte.Channels.HeldKeys
import ZiaCrypte.Channels.ServerKeys
import ZiaCrypte.Channels.Readers
import ZiaCrypte.Channels.FailedRotations
import ZiaCrypte.Channels.Links
import ZiaCrypte.Update.UpdateService
import ZiaCrypte.Update.Versions
import ZiaCrypte.Update.Replay
import ZiaCrypte.App.CryptoIsolate
import ZiaCrypte.App.IsolateRefinement
import ZiaCrypte.App.ApiClient
import ZiaCrypte.Server.TokenChain
import ZiaCrypte.App.Renewals
import ZiaCrypte.Lib.Cascade
import ZiaCrypte.Server.Rows
import ZiaCrypte.Server.Administration
import ZiaCrypte.Server.AdminSteps
import ZiaCrypte.Server.AccountRemoval
import ZiaCrypte.Lib.Interleaving
import ZiaCrypte.Inbox.WireFormat
import ZiaCrypte.Inbox.SharedThread
import ZiaCrypte.Inbox.MemberDevices
import ZiaCrypte.Inbox.Convergence
import ZiaCrypte.Inbox.EndToEnd
import ZiaCrypte.Inbox.OrderedDelivery
