import RenderMesh.Core.Prog
import RenderMesh.Core.Answers
import RenderMesh.Core.Results
import RenderMesh.Core.Typestate
import RenderMesh.Core.FileTree
import RenderMesh.Core.Walk
import RenderMesh.Core.FileOps
import RenderMesh.Core.Text
import RenderMesh.Core.UnixPath
import RenderMesh.Core.Labels
import RenderMesh.Core.Percent
import RenderMesh.Dto
import RenderMesh.Mirror.Keys
import RenderMesh.Mirror.Confined
import RenderMesh.Mirror.ReadObject
import RenderMesh.Server.World
import RenderMesh.Server.Async
import RenderMesh.Server.EdgeConfig
import RenderMesh.Cdn.Plan
import RenderMesh.Refresh.Freshness
import RenderMesh.Refresh.Sync
import RenderMesh.Refresh.Templates
import RenderMesh.Refresh.Snapshot
import RenderMesh.Refresh.Partition
import RenderMesh.Refresh.Isolation
import RenderMesh.Refresh.Cleanup
import RenderMesh.Refresh.Swap
import RenderMesh.Refresh.Stops
import RenderMesh.Refresh.Staging
import RenderMesh.Refresh.Staged
import RenderMesh.Refresh.Runs
import RenderMesh.Refresh.Config
import RenderMesh.Refresh.Standing
import RenderMesh.Refresh.Healthy
import RenderMesh.Refresh.Shadows
import RenderMesh.Refresh.Generation
import RenderMesh.Refresh.Calls
import RenderMesh.Refresh.Registry
import RenderMesh.Refresh.Barrier
import RenderMesh.Refresh.Reload
import RenderMesh.Gateway.StaticRules
import RenderMesh.Gateway.Http
import RenderMesh.Gateway.Service
import RenderMesh.Gateway.Scene
import RenderMesh.Gateway.Confined
import RenderMesh.Gateway.Reading
import RenderMesh.Gateway.Totality
import RenderMesh.Gateway.Route
import RenderMesh.Gateway.Reachable
import RenderMesh.Gateway.RuleSelection
import RenderMesh.Gateway.HeadRequests
import RenderMesh.Gateway.HeaderMaps
import RenderMesh.Gateway.SafeHeaders
import RenderMesh.Gateway.Chain
import RenderMesh.Gateway.Missing
import RenderMesh.Domains.Manifest
import RenderMesh.Domains.Hosts
import RenderMesh.Domains.Resolver
import RenderMesh.Domains.Derived
import RenderMesh.Domains.Cors
import RenderMesh.Domains.GlobalWildcard
import RenderMesh.Bugs.TornActivation
import RenderMesh.Bugs.KeyCollision
import RenderMesh.Bugs.StaleMirror
import RenderMesh.Bugs.UnseenMirror
import RenderMesh.Bugs.TakenPlaces
import RenderMesh.Bugs.ShadowedSidecar
import RenderMesh.Bugs.HostCollision
import RenderMesh.Bugs.BlockedPath
import RenderMesh.Bugs.HookHeaders
import RenderMesh.Bugs.ParamsAlone
import RenderMesh.Core.Loop
import RenderMesh.Core.Paging
import RenderMesh.Core.Versions
import RenderMesh.Core.Along
import RenderMesh.Core.Framing
import RenderMesh.Cdn.Saas
import RenderMesh.Cdn.Cloud
import RenderMesh.Cdn.Pagination
import RenderMesh.Cdn.Invalidation
import RenderMesh.Cdn.References
import RenderMesh.Refresh.CdnPhase
import RenderMesh.Cdn.Merge
import RenderMesh.Cdn.Reconcile
import RenderMesh.Cdn.Concurrent
import RenderMesh.Mirror.S3
import RenderMesh.Bugs.EndlessListing
import RenderMesh.Cdn.Cloudflare
import RenderMesh.Cdn.CloudFront
import RenderMesh.Cdn.Zone
import RenderMesh.Bugs.SpelledRecords
import RenderMesh.Bugs.RedirectTargets
import RenderMesh.Bugs.VaryOrigin
import RenderMesh.Bugs.SpelledPaths
import RenderMesh.Bugs.LostPurges
import RenderMesh.Bugs.DottedReserved
import RenderMesh.Refresh.Activations
import RenderMesh.Startup.Runtime
import RenderMesh.Startup.Construction
import RenderMesh.Bugs.EagerStartup
import RenderMesh.Startup.Purges
import RenderMesh.Domains.HostGrammar
import RenderMesh.Bugs.MixedGenerations
import RenderMesh.Bugs.SharedDomains
import RenderMesh.Bugs.OvertakenListing
import RenderMesh.Refresh.Neighbours
import RenderMesh.Refresh.Places
import RenderMesh.Refresh.Progress
import RenderMesh.Refresh.Delivery
import RenderMesh.Refresh.LocalOrigin
import RenderMesh.Core.StackWalk
import RenderMesh.Mirror.LocalDirectory
import RenderMesh.Mirror.LocalListing
import RenderMesh.Refresh.Consecutive
import RenderMesh.Gateway.ChangedAnswers
import RenderMesh.Gateway.PlannedPaths
import RenderMesh.Routes.Started
import RenderMesh.Routes.System
import RenderMesh.Routes.Traffic
import RenderMesh.Server.Debris
import RenderMesh.Refresh.Unfinished
import RenderMesh.Refresh.Restarts
