import LdkController.Notifications
import LdkController.ShortChannelId

/-!
# Channels of the node

`list_channels` and `get_channel_fees` of `src/lightning/ldk_service.rs`. Keys,
channel ids and transaction ids are the texts they are written as. The capacity
is a product that panics (`none`) where the build checks for overflow.
-/

namespace LdkController

open Lib

structure OutPoint where
  txid : String
  vout : UInt32

structure ChannelConfig where
  forwardingFeeBaseMsat : UInt32
  forwardingFeeProportionalMillionths : UInt32

structure ChannelDetails where
  channelId : String
  counterpartyNodeId : String
  fundingTxo : Option OutPoint
  shortChannelId : Option UInt64
  channelValueSats : Nat
  outboundCapacityMsat : Nat
  inboundCapacityMsat : Nat
  isChannelReady : Bool
  isUsable : Bool
  isAnnounced : Bool
  inboundHtlcMinimumMsat : Nat
  inboundHtlcMaximumMsat : Option Nat
  config : ChannelConfig

/-! ## `list_channels` -/

structure ListedChannel extends LdkChannelInfo where
  peerPubkey : String
  state : String
  fundingTxid : Option String
  fundingOutputIndex : Option UInt32

def ChannelDetails.state (channel : ChannelDetails) : String :=
  if channel.isChannelReady && channel.isUsable then "active"
  else if channel.isChannelReady then "inactive"
  else "pending_open"

def ldkChannelInfo (b : Build) (channel : ChannelDetails) : Option ListedChannel := do
  let capacity ← b.mulU64 channel.channelValueSats 1000
  return {
    id := channel.channelId
    shortChannelId := channel.shortChannelId.map formatScid
    capacity
    localBalance := channel.outboundCapacityMsat
    remoteBalance := channel.inboundCapacityMsat
    isPrivate := !channel.isAnnounced
    peerPubkey := channel.counterpartyNodeId
    state := channel.state
    fundingTxid := channel.fundingTxo.map OutPoint.txid
    fundingOutputIndex := channel.fundingTxo.map OutPoint.vout }

def listChannels (b : Build) (channels : List ChannelDetails) : Option (List ListedChannel) :=
  channels.mapM (ldkChannelInfo b)

/-! ## `get_channel_fees` -/

structure LdkChannelFees where
  id : String
  shortChannelId : Option String
  peerPubkey : String
  baseFee : UInt32
  feeRate : UInt32
  minHtlc : Nat
  maxHtlc : Option Nat

def ChannelDetails.fees (channel : ChannelDetails) : LdkChannelFees where
  id := channel.channelId
  shortChannelId := channel.shortChannelId.map formatScid
  peerPubkey := channel.counterpartyNodeId
  baseFee := channel.config.forwardingFeeBaseMsat
  feeRate := channel.config.forwardingFeeProportionalMillionths
  minHtlc := channel.inboundHtlcMinimumMsat
  maxHtlc := channel.inboundHtlcMaximumMsat

def getChannelFees (channels : List ChannelDetails) (channelId : Option String) : List LdkChannelFees :=
  (channels.filter fun c => channelId.all fun id => c.channelId = id).map ChannelDetails.fees

end LdkController
