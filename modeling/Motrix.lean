import Motrix.Bridge.NativeTicket
import Motrix.Bridge.PreimageInjective
import Motrix.Bridge.EnvelopeDelivery
import Motrix.Bridge.CredentialRevocation
import Motrix.Bridge.DeviceCodeRuns
import Motrix.Bridge.ProjectionTombstone
import Motrix.Bridge.NonceOrigins
import Motrix.Bridge.ReconnectSecrecy
import Motrix.Bridge.PairOrdering
import Motrix.Bridge.PairSlots
import Motrix.Finalize.FileNameAgreement
import Motrix.Plugin.ChainMerge
import Motrix.Plugin.LaneDeadlock
import Motrix.Activity.MutationLanes
import Motrix.Task.TaskRuns
import Motrix.Task.MediaOutcomes
import Motrix.Engine.JsonRpcRuns
import Mathlib.Data.List.Basic
import Motrix.Lib.Trace
import Motrix.Media.HlsSegments
import Motrix.Download.SegmentSettling
import Motrix.Download.SourceCorrections
import Motrix.Plugin.PostOrphans
import Motrix.Plugin.StorageVersions
import Motrix.Plugin.CookieJar
import Motrix.Bridge.ReconnectRateLimit
import Motrix.Finalize.SanitizedNames
import Motrix.Finalize.ArtifactLease
import Motrix.Plugin.MetadataQuota
import Motrix.Bridge.IdempotentAdds
import Motrix.Bridge.PairingPrompts
import Motrix.Bridge.Base64Url
import Motrix.Activity.CompactionRuns
import Motrix.Media.MasterPlaylist
import Motrix.Media.DashExpansion
import Motrix.Task.UploadBooks
import Motrix.Task.BtAdmission
import Motrix.Finalize.PublishedTarget
import Motrix.Engine.TaskCookies
import Motrix.Engine.PollingRuns
import Motrix.Engine.OutputHeaders
import Motrix.Torrent.VerifiedPieces
import Motrix.Stats.TransferBooks
import Motrix.Task.MergeLosses
import Motrix.Lib.LikePattern
import Motrix.Plugin.StorageKeys
import Motrix.Lib.Rounding
import Motrix.Lib.LexImage
import Motrix.Plugin.VersionOrder
import Motrix.Plugin.LaneAdmission
import Motrix.Plugin.TombstoneBooks
import Motrix.Plugin.DeliveryBatch
import Motrix.Plugin.MoextExtraction
import Motrix.Lib.Grouping
import Motrix.Legacy.RequestSettings
import Motrix.Lib.JsonTree
import Motrix.Session.PortableAttempts
import Motrix.Lib.TextLines
import Motrix.Engine.SessionSettled
import Motrix.Task.BtStoragePaths
import Motrix.SpeedLimit.PushRecord
import Motrix.Renderer.SelectionInvariant
import Motrix.Plugin.HostPermission
import Motrix.Torrent.SelectionOnce
import Motrix.Log.LogSecrets
import Motrix.Plugin.CommandRates
import Motrix.Download.SourceRanges
