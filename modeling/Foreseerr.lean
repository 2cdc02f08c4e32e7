import Foreseerr.AfterRemove
import Foreseerr.AnilistSync
import Foreseerr.EpisodeSync
import Foreseerr.MemCacheBudget
import Foreseerr.ScanShow
import Foreseerr.TraktSync
import Foreseerr.Table
import Foreseerr.Lifecycle
import Foreseerr.EpisodeSelect
import Foreseerr.RequestCreate
import Foreseerr.RequestSeasons
import Foreseerr.RequestEdit
import Foreseerr.RequestQuota
import Foreseerr.RequestEpisodes
import Foreseerr.Json
import Foreseerr.SettingsStore
import Foreseerr.RowCache
import Foreseerr.Resolutions
import Foreseerr.MappingCaches
import Foreseerr.MappingDatasets
import Foreseerr.ReleaseStore
import Foreseerr.MediaSave
import Foreseerr.Writes
import Foreseerr.SeasonResets
import Foreseerr.PlexRecent
import Foreseerr.AnilistActions
import Foreseerr.FencedLease
import Foreseerr.JellyfinCache
import Foreseerr.UserPermissions
import Foreseerr.BlocklistedTags
import Foreseerr.Interventions
import Foreseerr.ReleaseLease
import Foreseerr.EpisodeRanges
import Foreseerr.SimklEpisodes
import Foreseerr.AnilistEpisodes
import Foreseerr.Mirror
import Foreseerr.SimklLibrary
import Foreseerr.SimklSync
import Foreseerr.SimklMirror
import Foreseerr.Scheduler
import Foreseerr.TraktRefresh
import Foreseerr.TraktLinks
import Foreseerr.SimklTokens
import Foreseerr.AuthReset
import Foreseerr.DesktopTickets
import Foreseerr.ImageCache
import Foreseerr.ImportCandidates
import Foreseerr.ManualImports
import Foreseerr.ImportsOnce
import Foreseerr.HeldUnits
import Foreseerr.SeasonEdits
import Foreseerr.ShowRescan
import Foreseerr.ScanQualities
import Foreseerr.JobSlots
import Foreseerr.WatchAhead
import Foreseerr.Double
import Foreseerr.TraktWrites
import Foreseerr.Cron
import Foreseerr.Calendar
import Foreseerr.CronNext
import Foreseerr.SkippedEpisodes
import Foreseerr.DateReading
import Foreseerr.MixedOrder
import Foreseerr.TitleOrder
import Foreseerr.Qs
import Foreseerr.FormShape
import Foreseerr.FormKeys
import Foreseerr.CsrfForm
import Foreseerr.RangePairs
import Foreseerr.Paging
import Foreseerr.TraktItems
import Foreseerr.TraktPages
import Foreseerr.RequestRouting
import Foreseerr.Migrating
import Foreseerr.SettingsMigrations
import Foreseerr.MigratedOnce
import Foreseerr.FilteredPages
import Foreseerr.ActionDispatcher
import Foreseerr.BoundedLru
import Foreseerr.ByteRanges
import Foreseerr.ReleaseGrab
import Foreseerr.KeywordPages
import Foreseerr.ExpressRoute
import Foreseerr.FailureSummary
import Foreseerr.CheckedReads
import Foreseerr.DnsAnswers
import Foreseerr.Ajv
import Foreseerr.SchemaMeaning
import Foreseerr.AjvMeaning
import Foreseerr.UnavailableRuns
import Foreseerr.TitleFrames
import Foreseerr.ScanTitles
import Foreseerr.Blocklist
import Foreseerr.SaveSteps
import Foreseerr.GivenUp
import Foreseerr.ArrScan
import Foreseerr.ArrRuns
import Foreseerr.ArrGrounds
import Foreseerr.AvailabilityPages
