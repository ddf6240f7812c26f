import LdkController.Paging
import LdkController.Routes

/-!
# Nodes of the network

`list_network_nodes`, `get_network_node` and `get_network_stats` of
`src/lightning/ldk_service.rs`. The graph is that of `Routes` together with its
table of nodes, each with the ids of its channels. A node's capacity is a sum
that panics (`none`) where the build checks for overflow; the total of the
statistics stays at the largest word instead.
-/

namespace LdkController

open Lib

structure NodeAnnouncement where
  alias_ : String
  rgb : Vector UInt8 3
  addresses : List String
  lastUpdate : UInt32

structure NodeInfo where
  channels : List UInt64
  announcementInfo : Option NodeAnnouncement

structure NodeGraph where
  channels : NetworkGraph
  nodes : Table NodeId NodeInfo

structure NetworkNodeInfo where
  pubkey : String
  alias_ : String
  color : String
  numChannels : Nat
  totalCapacity : Nat
  addresses : List String
  lastUpdate : UInt32

structure NetworkStats where
  numNodes : Nat
  numChannels : Nat
  totalCapacity : Nat
  avgChannelSize : Nat
  maxChannelSize : Nat
deriving DecidableEq, Repr

def ChannelInfo.capacity (ch : ChannelInfo) : Nat := ch.capacitySats.getD 0

/-- The capacities of the channels with these ids; an id that the graph does not know is left out. -/
def capacities (graph : NetworkGraph) (scids : List UInt64) : List Nat :=
  (scids.filterMap graph.lookup).map ChannelInfo.capacity

/-- `Iterator::sum` -/
def sumU64 (b : Build) (l : List Nat) : Option Nat := l.foldlM b.addU64 0

def mapNodeInfo (b : Build) (graph : NodeGraph) (nodeId : NodeId) (info : NodeInfo) : Option NetworkNodeInfo := do
  let totalCapacity ← sumU64 b (capacities graph.channels info.channels)
  let numChannels := info.channels.length
  match info.announcementInfo with
  | some ann =>
    return ⟨nodeId.toString, ann.alias_, "#" ++ hexString ann.rgb.toList, numChannels, totalCapacity, ann.addresses,
      ann.lastUpdate⟩
  | none => return ⟨nodeId.toString, "", "#000000", numChannels, totalCapacity, [], 0⟩

/-- The page is cut from the ids, before their nodes are looked up. -/
def listNetworkNodes (b : Build) (graph : NodeGraph) (limit offset : Nat) : Option (List NetworkNodeInfo) :=
  (((graph.nodes.keys.drop offset).take limit).filterMap fun nodeId =>
    (graph.nodes.lookup nodeId).map (mapNodeInfo b graph nodeId)).mapM id

def getNetworkNode (b : Build) (graph : NodeGraph) (nodeId : NodeId) : Option (Option NetworkNodeInfo) :=
  (graph.nodes.lookup nodeId).mapM (mapNodeInfo b graph nodeId)

def satAddU64 (a b : Nat) : Nat := min (a + b) u64Max

/-- The body of the loop over the channels. -/
def addCapacity (acc : Nat × Nat) (cap : Nat) : Nat × Nat :=
  (satAddU64 acc.1 cap, if acc.2 < cap then cap else acc.2)

def getNetworkStats (graph : NodeGraph) : NetworkStats :=
  let numChannels := graph.channels.keys.length
  let acc := (capacities graph.channels graph.channels.keys).foldl addCapacity (0, 0)
  let avgChannelSize := if 0 < numChannels then acc.1 / numChannels else 0
  ⟨graph.nodes.keys.length, numChannels, acc.1, avgChannelSize, acc.2⟩

end LdkController
