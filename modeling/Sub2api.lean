import Sub2api.Antigravity.RandomID
import Sub2api.Antigravity.RoundTrip
import Sub2api.ApiCompat.AnthropicItems
import Sub2api.ApiCompat.BlockDiscipline
import Sub2api.ApiCompat.ChatAgreement
import Sub2api.ApiCompat.ChatDegeneration
import Sub2api.ApiCompat.ChatDelivery
import Sub2api.ApiCompat.DirectResponse
import Sub2api.ApiCompat.FlatUnions
import Sub2api.ApiCompat.LegacyIDs
import Sub2api.ApiCompat.StreamAgreement
import Sub2api.ApiCompat.ThinkingReplay
import Sub2api.AuthCache.Converge
import Sub2api.BatchImage.Indexing
import Sub2api.BatchImage.QueueSafety
import Sub2api.BatchImage.StatusRuns
import Sub2api.Bedrock.Safety
import Sub2api.Billing.CircuitBreaker
import Sub2api.Billing.ExactlyOnce
import Sub2api.Billing.InflightLedger
import Sub2api.Billing.InflightRelease
import Sub2api.Billing.QuotaSignal
import Sub2api.ChannelModels.Lookup
import Sub2api.Channels.Fresh
import Sub2api.Concurrency.Caps
import Sub2api.FixedCharge.Balance
import Sub2api.HttpUtil.RequestBody
import Sub2api.Idempotency.StoredResponse
import Sub2api.Migrations.Indexes
import Sub2api.ModelPool.Interleavings
import Sub2api.Moderation.NaiveSearch
import Sub2api.OpenAIScheduler.Ranking
import Sub2api.OpenAIWS.Newest
import Sub2api.Payment.RechargeBonus
import Sub2api.PlatformQuota.Flush
import Sub2api.PlatformQuota.Refresh
import Sub2api.Pricing.ContextTiers
import Sub2api.Proxies.Fallback
import Sub2api.RateLimit.Cache
import Sub2api.Redeem.Once
import Sub2api.Relay.Turns
import Sub2api.ResponsesInput.CallIDs
import Sub2api.ResponsesInput.ContinuationAgreement
import Sub2api.Scheduler.Coalescing
import Sub2api.Scheduler.ReadOrder
import Sub2api.SessionLimit.Limit
import Sub2api.Sessions.SingleKey
import Sub2api.Subscription.Maintenance
import Sub2api.Thinking.PreFilter
import Sub2api.Translate.Probes
import Sub2api.Websearch.Quota
