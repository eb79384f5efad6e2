import Liteset.Security.PermissionFrame
import Liteset.Security.AuthCacheSafety
import Liteset.Events.Delivery
import Liteset.Sql.AdhocConfinement
import Liteset.Security.GuestConfinement
import Liteset.SqlLab.TabHistory
import Liteset.Tasks.SqlLabStop
import Liteset.Security.GuestToken
import Liteset.Security.Revocation
import Liteset.Events.AsyncJob
import Liteset.Dashboard.DragDropSafety
import Liteset.Reports.GracePeriods
import Liteset.Dashboard.FilterUpdates
import Liteset.Dashboard.FilterDependencies
import Liteset.Tasks.DistributedLock
import Liteset.Dashboard.HydrateSafety
import Liteset.Sql.TableExtractionSafety
import Liteset.Sql.RowSecuritySafety
import Liteset.Sql.MutationGateSafety
import Liteset.Tasks.Scheduler
import Liteset.Events.StaleChannels
import Liteset.Dashboard.FormDataCache
import Liteset.Security.OAuth2Refresh
import Liteset.Security.SchemaListing
import Liteset.Charts.ChartDataCacheSafety
import Liteset.Security.ListenerRuns
import Liteset.Charts.AnnotationDataSafety
import Liteset.Security.TableAccess
import Liteset.Charts.ChartRequests
import Liteset.Embedded.Switchboard
import Liteset.Sql.ExtraCacheKeys
import Liteset.Security.SecretsMigrator
import Liteset.KeyValue.ExpiringEntries
import Liteset.Security.JinjaAccessSafety
import Liteset.Charts.LabelsColorMapSafety
import Liteset.Sql.SeriesLimitSafety
import Liteset.Sql.FilterValuesSafety
import Liteset.Sql.FilterReports
import Liteset.Charts.Granularity
import Liteset.Assets.ImportLinks
import Liteset.Assets.ExportPositionSafety
import Liteset.Assets.DashboardCopySafety
import Liteset.Charts.CustomTimeRangeSafety
import Liteset.Charts.TimeShiftsSafety
import Liteset.Charts.FlatColumns
import Liteset.Dashboard.TabDrops
import Liteset.Dashboard.ParentsList
import Liteset.Dashboard.CreatedPaths
import Liteset.Middleware.RateLimitSafety
import Liteset.Security.SafeRedirect
import Liteset.Sql.StatementCalls
import Liteset.Sql.KqlLimit
import Liteset.Dashboard.RowWidthsSafety
import Liteset.SqlLab.Tables
import Liteset.Events.Cursor
import Liteset.Middleware.ProxyFixSafety
import Liteset.Assets.DatasetNames
import Liteset.Dashboard.DataMasks
import Liteset.Security.RowRuleKeys
import Liteset.Charts.CsvExport
import Liteset.Charts.DateTexts
import Liteset.Dashboard.ParentLookups
import Liteset.Dashboard.CrossFilters
import Liteset.Reports.SlackUpgrade
import Liteset.Assets.MetadataRefresh
import Liteset.ListView.UrlFilters
import Liteset.Assets.ImplicitTags
