import EasyDeploy.Retention.ChunkInvariance
import EasyDeploy.Retention.SecretExposure
import EasyDeploy.Retention.ValueMasking
import EasyDeploy.Retention.LogWindow
import EasyDeploy.Retention.LogAccounting
import EasyDeploy.Retention.LogFinality
import EasyDeploy.Retention.LogConservation
import EasyDeploy.Orchestrator.Lifecycle
import EasyDeploy.Orchestrator.ClosedRuns
import EasyDeploy.Orchestrator.SkipTrust
import EasyDeploy.Orchestrator.RunOutcome
import EasyDeploy.Orchestrator.Canonicality
import EasyDeploy.Orchestrator.ConfirmedPlans
import EasyDeploy.ReleaseQueue.CompletedRuns
import EasyDeploy.ReleaseQueue.PairedRuns
import EasyDeploy.ReleaseQueue.TaskExclusion
import EasyDeploy.ReleaseQueue.DueRuns
import EasyDeploy.ReleaseQueue.TaskLifecycle
import EasyDeploy.ReleaseQueue.ComposeChannel
import EasyDeploy.ReleaseQueue.BoundConfigurations
import EasyDeploy.ReleaseQueue.BindingRuns
import EasyDeploy.Auth.CompleteRevocation
import EasyDeploy.Auth.LoginLockout
import EasyDeploy.Auth.TokenQuota
import EasyDeploy.Auth.RefreshRotation
import EasyDeploy.Auth.DependencyClosure
import EasyDeploy.Releases.CompleteReleases
import EasyDeploy.BinaryTask.TrafficSafety
import EasyDeploy.Web.Retries
import EasyDeploy.Releases.UnitReleases
import EasyDeploy.Releases.ArtifactCleanup
import EasyDeploy.Apps.SnapshotRestore
import EasyDeploy.Apps.SettingsEdits
import EasyDeploy.Apps.PackageExtraction
import EasyDeploy.Apps.RuntimeMetadata
import EasyDeploy.Apps.PackageNames
import EasyDeploy.BinaryReleases.SerialRuns
import EasyDeploy.Uploads.CompleteListings
import EasyDeploy.Uploads.SessionProgress
import EasyDeploy.UnitRuntime.PublishedFiles
import EasyDeploy.Configs.RotatedRuns
import EasyDeploy.Configs.DeployChecks
import EasyDeploy.Remote.SameExecution
import EasyDeploy.Remote.CommandCapture
import EasyDeploy.RuntimeFs.ReleasePaths
import EasyDeploy.RuntimeFs.UnitDirectives
import EasyDeploy.RuntimeFs.SlotCommands
import EasyDeploy.BinaryTask.HealthEndpoints
