import Dass.Lib.Run
import Dass.Lib.Heap
import Dass.CronDispatch
import Dass.CronSync
import Dass.System
import Dass.ClaimOwnership
import Dass.OrphanRecovery
import Dass.Delivery
import Dass.Overlap
import Dass.SchedulerLoop
import Dass.LeaderElection
import Dass.CronLiveness
import Dass.DependencyScheduler
import Dass.DependencyGuard
import Dass.DependencyRuns
import Dass.FanIn
import Dass.ClaimLedger
import Dass.LockColumns
import Dass.Routing
import Dass.FailureHandling
import Dass.DependencyGraph
import Dass.QueuePool
import Dass.Heartbeat
import Dass.CronAtomic
import Dass.DependencyPass
import Dass.FirstGeneration
import Dass.DependencyFaults
import Dass.SyncCursor
import Dass.DispatchPass
import Dass.DependencyRule
import Dass.RetryChain
import Dass.RoutingSession
import Dass.RequestedDependencies
import Dass.StaleUpdates
import Dass.OneTimeJobs
import Dass.JobColumns
import Dass.OverlappingUpdates
import Dass.DependencyReplay
import Dass.CycleCheck
import Dass.Acknowledgement
import Dass.Lib.JsonText
import Dass.MessageBody
import Dass.LockSessions
import Dass.Lib.Argv
import Dass.CurlCommand
import Dass.DockerCommand
import Dass.Lib.Utf8
import Dass.ExecutionOutcome
import Dass.Lib.RoundLoop
import Dass.KubernetesExecution
import Dass.VMService
import Dass.AutoScaler
import Dass.FleetRuns
import Dass.Lib.Paging
import Dass.Lib.Like
import Dass.JobListing
import Dass.Lib.Ddl
import Dass.Migrations
import Dass.Lib.JsonTree
import Dass.Lib.JsonStyle
import Dass.Lib.Ecma
import Dass.JsonExchange
import Dass.JobForm
import Dass.EditForm
import Dass.Lib.Counting
import Dass.Cascade
import Dass.Backlog
import Dass.Lib.Instants
import Dass.CronCoverage
import Dass.TaskHistory
import Dass.Polling
import Dass.ReplicaHealth
import Dass.Lib.DdlLocks
import Dass.ConcurrentUpgrades
import Dass.Completion
import Dass.Lib.UrlEncoded
import Dass.ListRequest
import Dass.JobsPage
import Dass.WhatRuns
import Dass.Lib.Expansion
import Dass.JobManifest
import Dass.RepeatedUpdates
import Dass.Lib.DdlChanges
import Dass.Downgrades
import Dass.JobPicker
