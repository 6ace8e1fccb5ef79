import OrderPlatform.Runs.Basic
import OrderPlatform.Runs.Pool
import OrderPlatform.Store.Table
import OrderPlatform.Store.Pages
import OrderPlatform.Store.Numeric
import OrderPlatform.Store.Expiring
import OrderPlatform.Store.Windows
import OrderPlatform.Store.Counters
import OrderPlatform.Store.Transaction
import OrderPlatform.Store.Once
import OrderPlatform.Store.Pipeline
import OrderPlatform.Store.CacheAside
import OrderPlatform.Store.LastWriter
import OrderPlatform.Wire.Values
import OrderPlatform.Wire.Texts
import OrderPlatform.Wire.Numerals
import OrderPlatform.Wire.NumberTexts
import OrderPlatform.Wire.DecimalTexts
import OrderPlatform.Wire.Doubles
import OrderPlatform.Wire.Calendar
import OrderPlatform.Wire.Broker
import OrderPlatform.Wire.Buffers
import OrderPlatform.Wire.Msk
import OrderPlatform.Wire.ColumnTexts
import OrderPlatform.Wire.Dtos
import OrderPlatform.PaymentService.Entities
import OrderPlatform.PaymentService.Charge
import OrderPlatform.PaymentService.Refund
import OrderPlatform.PaymentService.RefundPolicy
import OrderPlatform.PaymentService.RefundAmounts
import OrderPlatform.PaymentService.PaymentView
import OrderPlatform.PaymentService.Atomicity
import OrderPlatform.PaymentService.StatusMoves
import OrderPlatform.PaymentService.RefundRetries
import OrderPlatform.PaymentService.RefundPaths
import OrderPlatform.PaymentService.Accounting
import OrderPlatform.PaymentService.ConcurrentCharges
import OrderPlatform.PaymentService.Captures
import OrderPlatform.PaymentService.ChargeAnswers
import OrderPlatform.PaymentService.ConcurrentRefunds
import OrderPlatform.PaymentService.ColumnWidths
import OrderPlatform.PaymentService.Consumer
import OrderPlatform.PaymentService.Messages
import OrderPlatform.PaymentService.ConcurrentConsumers
import OrderPlatform.PaymentService.Lambda
import OrderPlatform.PaymentService.IngestionKeys
import OrderPlatform.PaymentService.Relay
import OrderPlatform.PaymentService.EventOrder
import OrderPlatform.PaymentService.ScaledRelay
import OrderPlatform.PaymentService.EventIdentity
import OrderPlatform.OrderService.Entities
import OrderPlatform.OrderService.StatusChanges
import OrderPlatform.OrderService.Lifecycle
import OrderPlatform.OrderService.Announcements
import OrderPlatform.OrderService.Relay
import OrderPlatform.OrderService.Draining
import OrderPlatform.OrderService.EventOrder
import OrderPlatform.OrderService.Creation
import OrderPlatform.OrderService.Validation
import OrderPlatform.OrderService.ClientFields
import OrderPlatform.OrderService.ColumnWidths
import OrderPlatform.OrderService.OrderNumbers
import OrderPlatform.OrderService.SequentialCreation
import OrderPlatform.OrderService.ConcurrentCreation
import OrderPlatform.OrderService.InventoryEvents
import OrderPlatform.OrderService.InventoryConsumer
import OrderPlatform.OrderService.EventWindow
import OrderPlatform.OrderService.EventLog
import OrderPlatform.OrderService.Controller
import OrderPlatform.OrderService.StaffAccess
import OrderPlatform.NotificationService.Entities
import OrderPlatform.NotificationService.Events
import OrderPlatform.NotificationService.Consumer
import OrderPlatform.NotificationService.Duplicates
import OrderPlatform.NotificationService.Lambda
import OrderPlatform.NotificationService.Dispatch
import OrderPlatform.NotificationService.Retries
import OrderPlatform.ProductService.Entities
import OrderPlatform.ProductService.Calls
import OrderPlatform.ProductService.SingleProducts
import OrderPlatform.ProductService.Listings
import OrderPlatform.ProductService.Updates
import OrderPlatform.ProductService.Existence
import OrderPlatform.ProductService.Echoes
import OrderPlatform.Saga.System
import OrderPlatform.Saga.Reception
import OrderPlatform.Saga.OrderCreated
import OrderPlatform.Saga.ColumnWidths
import OrderPlatform.Saga.OrderBodies
import OrderPlatform.Saga.Currencies
import OrderPlatform.Saga.Cancellation
import OrderPlatform.Saga.Network
import OrderPlatform.Saga.Announcements
import OrderPlatform.Saga.OrderPayments
import OrderPlatform.Saga.Books
import OrderPlatform.Saga.Undisturbed
import OrderPlatform.Saga.Journal
import OrderPlatform.Saga.OrderCharges
import OrderPlatform.Saga.Settlement
import OrderPlatform.Saga.OrderNotices
import OrderPlatform.Saga.Deliveries
import OrderPlatform.Saga.Recovery
import OrderPlatform.Saga.Consumers
import OrderPlatform.Saga.EventOrder
import OrderPlatform.Saga.LambdaIngestion
import OrderPlatform.Saga.Listings
import OrderPlatform.NotificationService.Dispatchers
import OrderPlatform.Access.RefreshTokens
import OrderPlatform.Access.Credentials
import OrderPlatform.UserService.Registration
import OrderPlatform.UserService.TokenLifetime
import OrderPlatform.UserService.Sessions
import OrderPlatform.UserService.Addresses
import OrderPlatform.Saga.References
import OrderPlatform.Saga.OwnPayments
import OrderPlatform.Saga.Quotes
import OrderPlatform.ApiGateway.Proxy
import OrderPlatform.ApiGateway.PlacedOrders
import OrderPlatform.ApiGateway.Profile
import OrderPlatform.ApiGateway.Throttler
import OrderPlatform.ApiGateway.RateLimit
import OrderPlatform.ApiGateway.Blocks
import OrderPlatform.ApiGateway.Lockout
