import DeviceDB.Go.Basic
import DeviceDB.Data.DVV
import DeviceDB.Data.SiblingSet
import DeviceDB.Data.SyncLaws
import DeviceDB.Data.Write
import DeviceDB.Data.Iter
import DeviceDB.Data.Hash
import DeviceDB.Data.Read
import DeviceDB.Data.Converge
import DeviceDB.Replication.Replicas
import DeviceDB.Node.GarbageCollector
import DeviceDB.Site.SiteFactory
import DeviceDB.Cluster.State
import DeviceDB.Cluster.Frame
import DeviceDB.Cluster.Ownership
import DeviceDB.Transfer.Proposer
import DeviceDB.Transfer.Cancellation
