import BusinessPlatform.Proofs.TokenRotation
import BusinessPlatform.Proofs.KeysetWalk
import BusinessPlatform.Proofs.Ledger
import BusinessPlatform.Proofs.Conservation
import BusinessPlatform.Proofs.SyncOnce
import BusinessPlatform.Proofs.SyncPrice
import BusinessPlatform.Proofs.SaleAtomicity
import BusinessPlatform.Proofs.ConcurrentAdjustment
import BusinessPlatform.Proofs.BookingLink
import BusinessPlatform.Proofs.OfflineInbox
import BusinessPlatform.Proofs.TenantIsolation
import BusinessPlatform.Proofs.BookingLifecycle
import BusinessPlatform.Proofs.BookingFilters
import BusinessPlatform.Proofs.ReservationLifecycle
import BusinessPlatform.Proofs.ReservationOverlap
import BusinessPlatform.Proofs.DeviceLifecycle
import BusinessPlatform.Proofs.LineOrder
import BusinessPlatform.Proofs.CartAdditions
import BusinessPlatform.Proofs.PermissionGrants
import BusinessPlatform.Proofs.LastOwner
import BusinessPlatform.Proofs.FeedWalk
import BusinessPlatform.Proofs.MemoFreshness
import BusinessPlatform.Proofs.PermissionAgreement
import BusinessPlatform.Proofs.BookingConflicts
import BusinessPlatform.Proofs.PriceUpsert
import BusinessPlatform.Proofs.Reconciliation
import BusinessPlatform.Proofs.OrderBodies
import BusinessPlatform.Proofs.CancelRoom
import BusinessPlatform.Proofs.Checkout
import BusinessPlatform.Proofs.SaleRecords
import BusinessPlatform.Proofs.SessionLifecycle
import BusinessPlatform.Proofs.GuardedRequests
