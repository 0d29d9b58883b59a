import Hakawi.Payments.RefundLedger
import Hakawi.Payments.PendingReports
import Hakawi.Rentals.Extensions
import Hakawi.RenderHtml.Agreement
import Hakawi.Resilience.ProtectedCalls
import Hakawi.Resilience.Concurrency
import Hakawi.Throttler.Window
import Hakawi.Waf.FailClosed
import Hakawi.Waf.PermanentBlocks
import Hakawi.Waf.Padding
import Hakawi.Caching.KeyCollisions
import Hakawi.Caching.CacheInterceptor
import Hakawi.Social.Recount
import Hakawi.Moderation.Escalation
import Hakawi.Moderation.Enforcement
import Hakawi.Auth.Rotation
import Hakawi.Auth.Revocation
import Hakawi.Partitions.CutoverRuns
import Hakawi.Stories.SlugRaces
import Hakawi.Partitions.ReactionTotals
import Hakawi.Events.Replays
import Hakawi.Admin.UserRoles
import Hakawi.Contests.Lifecycle
import Hakawi.Contests.Submissions
import Hakawi.EmailVerification.Codes
import Hakawi.Mfa.BackupCodes
import Hakawi.Lockout.Expiry
import Hakawi.Lockout.Existence
import Hakawi.Badges.Awards
import Hakawi.Entitlements.PartialRefunds
import Hakawi.Library.Entries
import Hakawi.Commerce.Replicas
import Hakawi.Commerce.CurrentReads
import Hakawi.Stories.ReplicaRuns
import Hakawi.Migrations.Refusals
import Hakawi.Uploads.Cleanup
import Hakawi.RenderHtml.RawText
import Hakawi.SanitizeHtml.SurvivingText
import Hakawi.Messages.Transports
import Hakawi.Payments.Replays
import Hakawi.Sanity.Convergence
import Hakawi.Stories.SlugShape
import Hakawi.Contests.Duplicates
import Hakawi.Contests.PublisherStats
import Hakawi.Admin.Expiry
import Hakawi.Notifications.Preferences
import Hakawi.EmailVerification.UserTokens
import Hakawi.Publishers.Writers
