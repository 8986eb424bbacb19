import Vaulthalla.Access.Corridor
import Vaulthalla.Access.Subtree
import Vaulthalla.Content.FailureSafety
import Vaulthalla.Content.LiveRecovery
import Vaulthalla.Content.UploadAgreement
import Vaulthalla.Crypto.StickyFailure
import Vaulthalla.Glob.PatternLanguage
import Vaulthalla.Identity.AccountEdits
import Vaulthalla.Identity.DeviceRevocation
import Vaulthalla.Identity.SessionRevocation
import Vaulthalla.Manifest.NoLostUpdate
import Vaulthalla.Pricing.CommittedCost
import Vaulthalla.Recovery.PolicyCache
import Vaulthalla.Recovery.RestoreRuns
import Vaulthalla.Recovery.VersionRetention
import Vaulthalla.S3Gateway.HeadAgreement
import Vaulthalla.S3Gateway.Listing
import Vaulthalla.S3Gateway.RequestBudget
import Vaulthalla.S3Gateway.RequestExpiry
import Vaulthalla.S3Gateway.SignedTarget
import Vaulthalla.S3Gateway.WritePermission
import Vaulthalla.Share.Confinement
import Vaulthalla.Share.Delegation
import Vaulthalla.Share.DownloadBound
import Vaulthalla.Share.GuessBound
import Vaulthalla.Share.RateWindow
import Vaulthalla.Share.UploadBound
import Vaulthalla.Sync.EditSafety
import Vaulthalla.Sync.PassLease
import Vaulthalla.Sync.StaysScheduled
import Vaulthalla.Sync.TwoSided
import Vaulthalla.Sync.UnconfirmedRemoval
import Vaulthalla.Upload.RepeatedFinish
import Vaulthalla.Upload.StoredBodies
import Vaulthalla.Upstream.Guard
import Vaulthalla.Upstream.Lifecycle
import Vaulthalla.Vault.BacklogReplay
import Vaulthalla.Vault.DeletionSafety
import Vaulthalla.Vault.ImportSafety
import Vaulthalla.Vault.KeyAgreement
import Vaulthalla.Vault.PurgeOwnership
import Vaulthalla.Vault.RotationSafety
