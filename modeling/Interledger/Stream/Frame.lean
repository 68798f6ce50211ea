import Interledger.Ilp.Packet

/-!
# STREAM frames

The fifteen frames of `ilp-protocol-stream/src/packet.ts`, each with the properties its class
declares. A `Long` is an unsigned 64-bit integer of `long.js`.
-/

namespace Interledger.Stream

open Ilp (Buffer)

/-- An unsigned `Long`. -/
abbrev Long := BitVec 64

/-- `ErrorCode`, the byte a close frame carries. -/
abbrev ErrorCode := UInt8

namespace ErrorCode

def noError : ErrorCode := 0x01
def internalError : ErrorCode := 0x02
def flowControlError : ErrorCode := 0x04
def streamIdError : ErrorCode := 0x05
def streamStateError : ErrorCode := 0x06
def protocolViolation : ErrorCode := 0x08
def applicationError : ErrorCode := 0x09

end ErrorCode

/-- `Frame`. -/
inductive Frame
  | connectionClose (errorCode : ErrorCode) (errorMessage : String)
  | connectionNewAddress (sourceAccount : String)
  | connectionMaxData (maxOffset : Long)
  | connectionDataBlocked (maxOffset : Long)
  | connectionMaxStreamId (maxStreamId : Long)
  | connectionStreamIdBlocked (maxStreamId : Long)
  | connectionAssetDetails (sourceAssetCode : String) (sourceAssetScale : UInt8)
  | streamClose (streamId : Long) (errorCode : ErrorCode) (errorMessage : String)
  | streamMoney (streamId shares : Long)
  | streamMaxMoney (streamId receiveMax totalReceived : Long)
  | streamMoneyBlocked (streamId sendMax totalSent : Long)
  | streamData (streamId offset : Long) (data : Buffer)
  | streamMaxData (streamId maxOffset : Long)
  | streamDataBlocked (streamId maxOffset : Long)
  | streamReceipt (streamId : Long) (receipt : Buffer)
  deriving DecidableEq

/-- The type an ILP packet or a STREAM packet says it has. -/
inductive IlpPacketType
  | prepare
  | fulfill
  | reject
  | other (type : UInt8)
  deriving DecidableEq

/-- `Packet`: what the two ends of a connection exchange inside the data of ILP packets. -/
structure Packet where
  sequence : Long
  ilpPacketType : IlpPacketType
  prepareAmount : Long
  frames : List Frame
  deriving DecidableEq

end Interledger.Stream
