import NovaNas.Plugins.Unpacking
import NovaNas.Plugins.Upkeep
import NovaNas.Tpm.Wire
import NovaNas.Api.PoolDependents
import NovaNas.Audit.ExportEnds
import NovaNas.Auth.Jwks
import NovaNas.Csi.Capacity
import NovaNas.Csi.ReadOnly
import NovaNas.Csi.Sizes
import NovaNas.Csi.Teardown
import NovaNas.Iscsi.TargetTree
import NovaNas.Jobs.Verdicts
import NovaNas.Krb5.Idmapd
import NovaNas.Krb5.Krb5Conf
import NovaNas.Krb5.Paging
import NovaNas.Krb5.Separation
import NovaNas.Network.Bonds
import NovaNas.Notifycenter.Badge
import NovaNas.Plugins.Deadlocks
import NovaNas.Plugins.FailedUpgrades
import NovaNas.Plugins.Precedence
import NovaNas.Plugins.Preview
import NovaNas.Plugins.Router
import NovaNas.Plugins.TrustKeys
import NovaNas.Replication.Races
import NovaNas.Replication.RunHistory
import NovaNas.Replication.S3
import NovaNas.Replication.TickLoop
import NovaNas.Scheduler.Bases
import NovaNas.Scheduler.CronGrammar
import NovaNas.Scheduler.RetentionCounts
import NovaNas.Scheduler.SnapshotNames
import NovaNas.Scrub.Busy
import NovaNas.Shares.Protocol
import NovaNas.Shares.SambaWrites
import NovaNas.Smtp.Message
import NovaNas.Vms.Listing
import NovaNas.Workloads.Addressing
import NovaNas.Zfs.Escrow
import NovaNas.Zfs.EscrowList
import NovaNas.Zfs.PoolTree
import NovaNas.Zfs.PoolWrite
