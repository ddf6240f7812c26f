import LdkController.Channels
import LdkController.Listings
import LdkController.NetworkNodes
import LdkController.ProfileJson

/-!
# Control methods

`process_control_request` of `src/lib.rs` with all its methods, and the calls of
`src/lightning/ldk_service.rs` that they make. Parameters are JSON values; the
text with which a decoder refuses them is that of `refusal`. What an answer does
to the node is the command it gives: the node decides what becomes of it.
-/

namespace LdkController

open Lib

/-! ## The node under control -/

structure ManagedChannel extends ChannelDetails where
  userChannelId : Nat

structure PeerDetails where
  nodeId : String
  address : String
  isConnected : Bool
deriving DecidableEq, Repr

inductive NodeCommand where
  | openChannel (nodeId : NodeId) (address : String) (channelAmountSats : Nat) (pushToCounterpartyMsat : Option Nat)
  | connect (nodeId : NodeId) (address : String) (persist : Bool)
  | disconnect (nodeId : NodeId)
  | closeChannel (userChannelId : Nat) (counterpartyNodeId : String)
  | forceCloseChannel (userChannelId : Nat) (counterpartyNodeId : String) (reason : Option String)
  | updateChannelConfig (userChannelId : Nat) (counterpartyNodeId : String) (config : ChannelConfig)

/-- What the node holds, and what it answers to the commands of one request. -/
structure ControlNode where
  parsePublicKey : String → Except String NodeId
  parseSocketAddress : String → Except String String
  run : NodeCommand → Except String Unit
  nodeId : NodeId
  channels : List ManagedChannel
  peers : List PeerDetails
  graph : NodeGraph

/-- The variants of `LdkServiceError` with which a command ends. -/
inductive CommandError where
  | invalidPubkey (msg : String)
  | channelFailed (msg : String)
  | peerFailed (msg : String)
deriving DecidableEq, Repr

def CommandError.display : CommandError → String
  | .invalidPubkey msg => "invalid pubkey: " ++ msg
  | .channelFailed msg => "channel operation failed: " ++ msg
  | .peerFailed msg => "peer operation failed: " ++ msg

structure Commanded where
  command : Option NodeCommand
  result : Except CommandError Unit

namespace ControlNode

variable (node : ControlNode)

def give (command : NodeCommand) (failed : String → CommandError) : Commanded :=
  ⟨some command, (node.run command).mapError failed⟩

def openChannel (counterpartyPubkey counterpartyAddr : String) (channelAmountSats : Nat)
    (pushToCounterpartyMsat : Option Nat) : Commanded :=
  match node.parsePublicKey counterpartyPubkey with
  | .error e => ⟨none, .error (.invalidPubkey e)⟩
  | .ok nodeId =>
    match node.parseSocketAddress counterpartyAddr with
    | .error e => ⟨none, .error (.channelFailed e)⟩
    | .ok addr => node.give (.openChannel nodeId addr channelAmountSats pushToCounterpartyMsat) .channelFailed

def connectPeer (counterpartyPubkey counterpartyAddr : String) : Commanded :=
  match node.parsePublicKey counterpartyPubkey with
  | .error e => ⟨none, .error (.invalidPubkey e)⟩
  | .ok nodeId =>
    match node.parseSocketAddress counterpartyAddr with
    | .error e => ⟨none, .error (.peerFailed e)⟩
    | .ok addr => node.give (.connect nodeId addr true) .peerFailed

def disconnectPeer (counterpartyPubkey : String) : Commanded :=
  match node.parsePublicKey counterpartyPubkey with
  | .error e => ⟨none, .error (.invalidPubkey e)⟩
  | .ok nodeId => node.give (.disconnect nodeId) .peerFailed

def findChannel (channelId : String) : Option ManagedChannel := node.channels.find? (·.channelId = channelId)

def closeChannel (channelId : String) (force : Bool) : Commanded :=
  match node.findChannel channelId with
  | none => ⟨none, .error (.channelFailed ("channel not found: " ++ channelId))⟩
  | some details =>
    if force then
      node.give (.forceCloseChannel details.userChannelId details.counterpartyNodeId
        (some "closed via control API")) .channelFailed
    else node.give (.closeChannel details.userChannelId details.counterpartyNodeId) .channelFailed

/-- A fee that is not given stays as the channel has it. -/
def setChannelFees (channelId : String) (baseFeeMsat feeRate : Option UInt32) : Commanded :=
  match node.findChannel channelId with
  | none => ⟨none, .error (.channelFailed ("channel not found: " ++ channelId))⟩
  | some details =>
    let config : ChannelConfig :=
      ⟨baseFeeMsat.getD details.config.forwardingFeeBaseMsat,
        feeRate.getD details.config.forwardingFeeProportionalMillionths⟩
    node.give (.updateChannelConfig details.userChannelId details.counterpartyNodeId config) .channelFailed

end ControlNode

structure LdkPeerInfo where
  pubkey : String
  address : String
  connected : Bool
  numChannels : Nat
deriving DecidableEq, Repr

def listPeers (node : ControlNode) : List LdkPeerInfo :=
  node.peers.map fun peer =>
    ⟨peer.nodeId, peer.address, peer.isConnected, (node.channels.filter (·.counterpartyNodeId = peer.nodeId)).length⟩

/-! ## Parameters -/

def deserializeU32 (j : Json) : Option UInt32 := do
  let n ← deserializeU64 j
  if n < 2 ^ 32 then some (UInt32.ofNat n) else none

structure OpenChannelParams where
  pubkey : String
  host : Option String
  amountSats : Nat
  pushAmount : Option Nat

/-- The last three fields are decoded and not used. -/
def OpenChannelParams.deserialize (j : Json) : Option OpenChannelParams := do
  let field ← j.struct ["pubkey", "host", "amount_sats", "push_amount", "private", "close_address", "notify"]
  let pubkey ← (field "pubkey").bind Json.string
  let host ← Json.defaulted none (Json.option Json.string) (field "host")
  let amountSats ← (field "amount_sats").bind deserializeU64
  let pushAmount ← Json.defaulted none (Json.option deserializeU64) (field "push_amount")
  let _ ← Json.defaulted none (Json.option Json.boolean) (field "private")
  let _ ← Json.defaulted none (Json.option Json.string) (field "close_address")
  let _ ← Json.defaulted none (Json.option Json.boolean) (field "notify")
  return ⟨pubkey, host, amountSats, pushAmount⟩

structure ConnectPeerParams where
  pubkey : String
  host : String

def ConnectPeerParams.deserialize (j : Json) : Option ConnectPeerParams := do
  let field ← j.struct ["pubkey", "host"]
  return ⟨← (field "pubkey").bind Json.string, ← (field "host").bind Json.string⟩

/-- A struct whose one field is a text that has to be there. -/
def deserializeText (name : String) (j : Json) : Option String := do
  let field ← j.struct [name]
  (field name).bind Json.string

structure CloseChannelParams where
  id : String
  force : Bool

def CloseChannelParams.deserialize (j : Json) : Option CloseChannelParams := do
  let field ← j.struct ["id", "force", "close_address", "notify"]
  let id ← (field "id").bind Json.string
  let force ← Json.defaulted false Json.boolean (field "force")
  let _ ← Json.defaulted none (Json.option Json.string) (field "close_address")
  let _ ← Json.defaulted none (Json.option Json.boolean) (field "notify")
  return ⟨id, force⟩

def deserializeGetChannelFeesParams (j : Json) : Option (Option String) := do
  let field ← j.struct ["id"]
  Json.defaulted none (Json.option Json.string) (field "id")

structure SetChannelFeesParams where
  id : String
  baseFee : Option UInt32
  feeRate : Option UInt32

def SetChannelFeesParams.deserialize (j : Json) : Option SetChannelFeesParams := do
  let field ← (j.rename "base_fee_msat" "base_fee").struct ["id", "base_fee", "fee_rate"]
  let id ← (field "id").bind Json.string
  let baseFee ← Json.defaulted none (Json.option deserializeU32) (field "base_fee")
  let feeRate ← Json.defaulted none (Json.option deserializeU32) (field "fee_rate")
  return ⟨id, baseFee, feeRate⟩

structure PageParams where
  limit : Nat
  offset : Nat

/-- `ListNetworkNodesParams`; a `usize` has 64 bits. -/
def PageParams.deserialize (j : Json) : Option PageParams := do
  let field ← j.struct ["limit", "offset"]
  return ⟨← Json.defaulted 100 deserializeU64 (field "limit"), ← Json.defaulted 0 deserializeU64 (field "offset")⟩

structure GetForwardingHistoryParams extends PageParams where
  fromSecs : Option Nat
  untilSecs : Option Nat

def GetForwardingHistoryParams.deserialize (j : Json) : Option GetForwardingHistoryParams := do
  let field ← j.struct ["from", "until", "limit", "offset"]
  let fromSecs ← Json.defaulted none (Json.option deserializeU64) (field "from")
  let untilSecs ← Json.defaulted none (Json.option deserializeU64) (field "until")
  let limit ← Json.defaulted 100 deserializeU64 (field "limit")
  let offset ← Json.defaulted 0 deserializeU64 (field "offset")
  return { limit, offset, fromSecs, untilSecs }

/-- `SubscribeParams` -/
def deserializeTypes (j : Json) : Option (List String) := do
  let field ← j.struct ["types"]
  match field "types" with
  | some (.arr types) => types.mapM Json.string
  | _ => none

/-! ## Answers -/

inductive ControlResult where
  | empty
  | status (status : String)
  | channels (channels : List ListedChannel)
  | peers (peers : List LdkPeerInfo)
  | fees (fees : List LdkChannelFees)
  | nodes (nodes : List NetworkNodeInfo)
  | node (node : NetworkNodeInfo)
  | stats (stats : NetworkStats)
  | channel (channel : NetworkChannelInfo)
  | forwards (forwards : List ForwardingEntry)
  | routes (routes : List FoundRoute)

structure ControlAnswer where
  command : Option NodeCommand
  result : Outcome ControlError ControlResult

def controlError (code message : String) : ControlError := ⟨code, message⟩

def ControlAnswer.refuse (code message : String) : ControlAnswer := ⟨none, .err (controlError code message)⟩

/-- An answer without a command; `none` is a panic. -/
def ControlAnswer.tell (result : Option ControlResult) : ControlAnswer :=
  ⟨none, match result with
    | some result => .ok result
    | none => .panic⟩

def Commanded.answer (commanded : Commanded) (method : String) (result : ControlResult) : ControlAnswer :=
  ⟨commanded.command,
    match commanded.result with
    | .ok _ => .ok result
    | .error e => .err (controlError "OTHER" (method ++ " failed: " ++ e.display))⟩

structure ControlBackend where
  service : Option ControlNode
  history : List ForwardingEntry
  refusal : String → Json → String

namespace ControlBackend

variable (build : Build) (b : ControlBackend)

/-- `serde_json::from_value` on the parameters of the method. -/
def withParams {α : Type} (method : String) (decode : Json → Option α) (params : Json) (arm : α → ControlAnswer) :
    ControlAnswer :=
  match decode params with
  | some a => arm a
  | none => .refuse "OTHER" ("invalid " ++ method ++ " params: " ++ b.refusal method params)

def withService (arm : ControlNode → ControlAnswer) : ControlAnswer :=
  match b.service with
  | some node => arm node
  | none => .refuse "OTHER" "ldk service unavailable"

def openChannel (params : Json) : ControlAnswer :=
  b.withParams "open_channel" OpenChannelParams.deserialize params fun p =>
    if p.amountSats = 0 then .refuse "OTHER" "amount_sats must be greater than 0"
    else b.withService fun node =>
      let answer := fun address =>
        (node.openChannel p.pubkey address p.amountSats p.pushAmount).answer "open_channel" .empty
      match p.host with
      | some host => answer host
      | none =>
        match (listPeers node).find? fun peer => peer.pubkey = p.pubkey && peer.connected with
        | some peer => answer peer.address
        | none => .refuse "OTHER" "peer not connected and no host provided"

def connectPeer (params : Json) : ControlAnswer :=
  b.withParams "connect_peer" ConnectPeerParams.deserialize params fun p =>
    b.withService fun node => (node.connectPeer p.pubkey p.host).answer "connect_peer" (.status "connected")

def disconnectPeer (params : Json) : ControlAnswer :=
  b.withParams "disconnect_peer" (deserializeText "pubkey") params fun pubkey =>
    b.withService fun node => (node.disconnectPeer pubkey).answer "disconnect_peer" (.status "disconnected")

def closeChannel (params : Json) : ControlAnswer :=
  b.withParams "close_channel" CloseChannelParams.deserialize params fun p =>
    b.withService fun node => (node.closeChannel p.id p.force).answer "close_channel" .empty

def setChannelFees (params : Json) : ControlAnswer :=
  b.withParams "set_channel_fees" SetChannelFeesParams.deserialize params fun p =>
    b.withService fun node => (node.setChannelFees p.id p.baseFee p.feeRate).answer "set_channel_fees" .empty

def managedChannels : List ChannelDetails := b.service.elim [] fun node => node.channels.map (·.toChannelDetails)

def listChannels : ControlAnswer :=
  .tell ((LdkController.listChannels build b.managedChannels).map .channels)

def listPeers : ControlAnswer := .tell (some (.peers (b.service.elim [] LdkController.listPeers)))

def getChannelFees (params : Json) : ControlAnswer :=
  b.withParams "get_channel_fees" deserializeGetChannelFeesParams params fun id =>
    .tell (some (.fees (LdkController.getChannelFees b.managedChannels id)))

def listNetworkNodes (params : Json) : ControlAnswer :=
  b.withParams "list_network_nodes" PageParams.deserialize params fun p =>
    .tell ((b.service.elim (some []) fun node => LdkController.listNetworkNodes build node.graph p.limit p.offset).map
      .nodes)

def getNetworkNode (params : Json) : ControlAnswer :=
  b.withParams "get_network_node" (deserializeText "pubkey") params fun pubkey =>
    b.withService fun node =>
      match node.parsePublicKey pubkey with
      | .error e =>
        .refuse "OTHER" ("get_network_node failed: " ++ (CommandError.invalidPubkey e).display)
      | .ok nodeId =>
        match LdkController.getNetworkNode build node.graph nodeId with
        | none => .tell none
        | some none => .refuse "NOT_FOUND" ("node not found: " ++ pubkey)
        | some (some info) => .tell (some (.node info))

def getNetworkStats : ControlAnswer :=
  .tell (some (.stats (b.service.elim ⟨0, 0, 0, 0, 0⟩ fun node => LdkController.getNetworkStats node.graph)))

def getNetworkChannel (params : Json) : ControlAnswer :=
  b.withParams "get_network_channel" (deserializeText "short_channel_id") params fun scidStr =>
    b.withService fun node =>
      match LdkController.getNetworkChannel node.graph.channels scidStr with
      | .error e =>
        .refuse "OTHER" ("get_network_channel failed: " ++ (CommandError.channelFailed e).display)
      | .ok none => .refuse "NOT_FOUND" ("channel not found: " ++ scidStr)
      | .ok (some channel) => .tell (some (.channel channel))

def getForwardingHistory (params : Json) : ControlAnswer :=
  b.withParams "get_forwarding_history" GetForwardingHistoryParams.deserialize params fun p =>
    .tell (some (.forwards (getHistory b.history p.fromSecs p.untilSecs p.limit p.offset)))

def routeService : Option RouteService :=
  b.service.map fun node => ⟨fun s => (node.parsePublicKey s).toOption, node.nodeId, node.graph.channels⟩

/-- A parameter of the wrong type reads as one that is missing. -/
def queryRoutes (params : Json) : ControlAnswer :=
  ⟨none, LdkController.queryRoutes build b.routeService ((params.get "destination").bind Json.string)
    ((params.get "amount").bind deserializeU64) ((params.get "max_routes").bind deserializeU64) >>= fun routes =>
      .ok (.routes routes)⟩

/-- The methods that change no store, in the order of the source. -/
def arm (method : String) (params : Json) : ControlAnswer :=
  if method = "open_channel" then b.openChannel params
  else if method = "connect_peer" then b.connectPeer params
  else if method = "disconnect_peer" then b.disconnectPeer params
  else if method = "list_channels" then b.listChannels build
  else if method = "list_peers" then b.listPeers
  else if method = "close_channel" then b.closeChannel params
  else if method = "get_channel_fees" then b.getChannelFees params
  else if method = "set_channel_fees" then b.setChannelFees params
  else if method = "list_network_nodes" then b.listNetworkNodes build params
  else if method = "get_network_node" then b.getNetworkNode build params
  else if method = "get_network_stats" then b.getNetworkStats
  else if method = "get_network_channel" then b.getNetworkChannel params
  else if method = "get_forwarding_history" then b.getForwardingHistory params
  else if method = "query_routes" then b.queryRoutes build params
  else .refuse "NOT_IMPLEMENTED" "control method not implemented yet"

end ControlBackend

/-- A `ControlRequest` with its parameters as they are written; parameters that are missing are `null`. -/
structure ControlCall where
  method : String
  params : Json

/-- `serde_json::from_value` finds every name of an object once: of two values the text gives a name, the last stays. -/
def lastOfEach (fields : List (String × Json)) : List (String × Json) :=
  fields.foldr (fun f kept => if f.1 ∈ kept.map (·.1) then kept else f :: kept) []

def ControlCall.deserialize (j : Json) : Option ControlCall := do
  let field ← j.struct ["method", "params"]
  let method ← (field "method").bind Json.string
  return ⟨method, match (field "params").getD .null with
    | .obj fields => .obj (lastOfEach fields)
    | params => params⟩

structure ControlReply where
  resultType : String
  result : Option ControlResult
  error : Option ControlError

/-- `reply` is `none` where the request panics. -/
structure Controlled where
  controller : Controller
  command : Option NodeCommand
  reply : Option ControlReply

def ControlReply.ofError (method : String) (error : ControlError) : ControlReply := ⟨method, none, some error⟩

def ControlReply.ofResult (method : String) (result : ControlResult) : ControlReply := ⟨method, some result, none⟩

def ControlAnswer.reply (answer : ControlAnswer) (method : String) : Option ControlReply :=
  match answer.result with
  | .ok result => some (.ofResult method result)
  | .err error => some (.ofError method error)
  | .panic => none

/-- The `subscribe_notifications` branch. -/
def handleNncSubscribeNotifications (b : ControlBackend) (c : Controller) (call : ControlCall)
    (callerPubkey : String) : Controller × ControlReply :=
  match deserializeTypes call.params with
  | none => (c, .ofError call.method
      ⟨"OTHER", "invalid subscribe_notifications params: " ++ b.refusal "subscribe_notifications" call.params⟩)
  | some types =>
    match types.find? fun t => t ∉ knownNncNotificationTypes with
    | some t => (c, .ofError "subscribe_notifications" ⟨"OTHER", "unknown notification type: " ++ t⟩)
    | none => (setSubscription c callerPubkey types, .ofResult "subscribe_notifications" .empty)

def processControlCall (build : Build) (b : ControlBackend) (c : Controller) (call : ControlCall) (callerPubkey : String) :
    Controlled :=
  match authorizeControlMethod c.toStores callerPubkey call.method with
  | .error error => ⟨c, none, some (.ofError call.method error)⟩
  | .ok _ =>
    if call.method ∉ supportedControlMethods then
      ⟨c, none, some (.ofError call.method ⟨"NOT_IMPLEMENTED", "unknown control method: " ++ call.method⟩)⟩
    else if call.method = "subscribe_notifications" then
      let (c, reply) := handleNncSubscribeNotifications b c call callerPubkey
      ⟨c, none, some reply⟩
    else
      let answer := b.arm build call.method call.params
      ⟨c, answer.command, answer.reply call.method⟩

/-! ## The request without what it does to the node -/

section
variable (render : ControlResult → String) (build : Build) (b : ControlBackend) (call : ControlCall)

/-- `render` writes a result into a response. -/
def ControlReply.response (reply : ControlReply) : ControlResponse :=
  ⟨reply.resultType, reply.result.map render, reply.error⟩

/-- What a request that panics is answered does not matter. -/
def controlBackend : ControlRequest → String → ControlResponse := fun _ _ =>
  (((b.arm build call.method call.params).reply call.method).map (ControlReply.response render)).getD
    ⟨call.method, none, none⟩

def ControlCall.request : ControlRequest :=
  ⟨call.method, match deserializeTypes call.params with
    | some types => .ok types
    | none => .error (b.refusal "subscribe_notifications" call.params)⟩

/-- `processControlRequest` is what remains of a call that does not panic. -/
theorem processControlRequest_of_processControlCall (hempty : render .empty = "\x7b\x7d") {c : Controller}
    {callerPubkey : String} {reply : ControlReply} (h : (processControlCall build b c call callerPubkey).reply = some reply) :
    processControlRequest (controlBackend render build b call) c (call.request b) callerPubkey =
      ((processControlCall build b c call callerPubkey).controller, reply.response render) := by
  simp only [processControlCall, processControlRequest, ControlCall.request] at h ⊢
  cases hauthorized : authorizeControlMethod c.toStores callerPubkey call.method with
  | error error =>
    simp only [hauthorized] at h ⊢
    obtain rfl := Option.some.inj h
    rfl
  | ok _ =>
    simp only [hauthorized] at h ⊢
    by_cases hsupported : call.method ∈ supportedControlMethods
    swap
    · simp only [hsupported, not_false_eq_true, if_true] at h ⊢
      obtain rfl := Option.some.inj h
      rfl
    · simp only [hsupported, not_true_eq_false, if_false] at h ⊢
      by_cases hsubscribe : call.method = "subscribe_notifications"
      · simp only [hsubscribe, if_true, handleNncSubscribeNotifications] at h ⊢
        cases htypes : deserializeTypes call.params with
        | none =>
          simp only [htypes] at h ⊢
          obtain rfl := Option.some.inj h
          rfl
        | some types =>
          simp only [htypes] at h ⊢
          cases hfind : types.find? fun t => t ∉ knownNncNotificationTypes with
          | some t =>
            simp only [hfind] at h ⊢
            obtain rfl := Option.some.inj h
            rfl
          | none =>
            simp only [hfind] at h ⊢
            obtain rfl := Option.some.inj h
            simp only [ControlReply.response, ControlReply.ofResult, Option.map_some, hempty]
      · simp only [hsubscribe, if_false] at h ⊢
        rw [controlBackend, h]
        rfl

end

end LdkController
