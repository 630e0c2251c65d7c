import Kne.LinkPair
import Kne.LinkFanout
import Kne.DemuxModel
import Kne.DemuxLife
import Kne.DemuxFrames
import Kne.ServerModel
import Kne.ServerRegistry
import Kne.ServerClose
import Kne.TopoModel
import Kne.TopoWiring
import Kne.TopoEnds
import Kne.SpecsModel
import Kne.SpecsOrder
import Kne.SpecsPeers
import Kne.TopoNodes
import Kne.SpecsLinks
import Kne.TopoNames
import Kne.SpecsPods
import Kne.CtlSteps
import Kne.CtlTopos
import Kne.CtlCreate
import Kne.CtlKubecfg
import Kne.NsClose
import Kne.NsWatch
import Kne.NodeModel
import Kne.Push
import Kne.NodePrograms
import Kne.NodeServices
import Kne.NodeMade
import Kne.NodeDelete
import Kne.NodeFailed
import Kne.NodeShow
import Kne.NodeConfig
import Kne.NodeLabels
import Kne.NodePanics
import Kne.NodeRename
import Kne.NodeWaits
import Kne.PodDedup
import Kne.CreateWatch
import Kne.HostConstraints
import Kne.StatusRounds
import Kne.CliModel
import Kne.ConfigPush
import Kne.JunosRetry
import Kne.CertWait
import Kne.KeysightShow
import Kne.OperatorPorts
import Kne.AristaNames
import Kne.CiscoPorts
import Kne.SpecsAlike
import Kne.WiringOrder
import Kne.DeployModel
import Kne.DeployWalk
import Kne.DeployEntries
import Kne.DeployPanics
import Kne.DeployFiles
import Kne.DeploySlots
import Kne.HostPorts
import Kne.WirePlan
import Kne.CiscoCommit
import Kne.NokiaEcho
import Kne.LineCards
import Kne.MetalPool
import Kne.TopoRing
import Kne.IngressDrops
import Kne.LogShim
import Kne.ShimOrder
import Kne.DeployHealth
import Kne.KindClusters
import Kne.KindNodes
import Kne.EventTimes
import Kne.PeerAddresses
import Kne.Backrefs
import Kne.MeshTopos
import Kne.ReconcileModel
import Kne.ReconcileFresh
import Kne.WireModel
import Kne.WireTables
import Kne.WireMesh
import Kne.WireSafety
import Kne.Tallies
import Kne.CarrierModel
import Kne.CarrierSync
import Kne.CarrierSettle
import Kne.WireStreams
import Kne.DeployGroup
import Kne.Interrupts
import Kne.VethModel
import Kne.VethKernel
import Kne.VethPasses
import Kne.MeshPods
import Kne.KeyedLists
import Kne.WireStore
import Kne.WireStoreView
import Kne.WireStoreInv
import Kne.WireStoreTurns
import Kne.WireRestore
import Kne.WireStoreSync
import Kne.WireStoreAlive
import Kne.WireStoreSettle
