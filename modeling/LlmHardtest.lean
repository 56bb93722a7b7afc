import LlmHardtest.Calibration.Holdout
import LlmHardtest.Campaign.Progress
import LlmHardtest.Campaign.RepoStatus
import LlmHardtest.Community.CatalogQueries
import LlmHardtest.Community.Containment
import LlmHardtest.Community.DatabaseComparison
import LlmHardtest.Community.Graceful
import LlmHardtest.Community.SecretTokens
import LlmHardtest.Community.Shortlist
import LlmHardtest.Community.SignFlipFloor
import LlmHardtest.Round4.DiffAccounting
import LlmHardtest.Round4.LastSummary
import LlmHardtest.Round4.ManagerUtility
import LlmHardtest.Round4.Points
import LlmHardtest.Round4.ReportSearch
import LlmHardtest.Round4.SealedRun
import LlmHardtest.Round4.Soundness
import LlmHardtest.Round5.CacheVariants
import LlmHardtest.Round5.JsonlStream
import LlmHardtest.Round5.LeaseFencing
import LlmHardtest.Round5.Monitor
import LlmHardtest.Round5.OrderFree
import LlmHardtest.Round5.PlanAgreement
import LlmHardtest.Round5.RunAgreement
import LlmHardtest.Round5.RunPilot
import LlmHardtest.Round5.SafeJourneys
import LlmHardtest.Round5.SignedRequests
import LlmHardtest.Round5.SnapshotCache
