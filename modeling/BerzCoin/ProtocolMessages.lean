import BerzCoin.CoreTransaction

/-! The payloads of the peer protocol. Every class has the fields of the source in the width of
their encoding; fields of a fixed number of bytes are byte strings. -/
namespace BerzCoin

namespace Serializer

def readUint8 : Reader UInt8 := do
  let n ← unpackFrom 1
  pure (UInt8.ofNat n)

def readUint16 : Reader UInt16 := do
  let n ← unpackFrom 2
  pure (UInt16.ofNat n)

def writeUint8 (value : UInt8) : Bytes := leBytes 1 value.toNat
def writeUint16 (value : UInt16) : Bytes := leBytes 2 value.toNat

/-- `value.encode('utf-8')`. A Lean string has no surrogates, so it can be encoded. -/
def encodeUtf8 (value : String) : Bytes := value.toByteArray.data.toList

/-- `data.decode('utf-8')`. -/
def decodeUtf8 (data : Bytes) : Except PyError String :=
  match String.fromUTF8? ⟨data.toArray⟩ with
  | some value => .ok value
  | none => .error (.valueError "'utf-8' codec can't decode bytes")

def readString : Reader String := fun data offset =>
  match (do let length ← readVarint; readBytes length : Reader Bytes) data offset with
  | .error e => .error e
  | .ok (stringBytes, offset) => (decodeUtf8 stringBytes).map fun value => (value, offset)

def writeString (value : String) : Bytes := writeBytes (encodeUtf8 value)

/-- `data[offset:]`. -/
def restFrom (data : Bytes) (offset : ℕ) : Bytes := data.drop offset

/-- `1 if flag else 0`. -/
def writeFlag (flag : Bool) : Bytes := writeUint8 (if flag then 1 else 0)

def readFlag : Reader Bool := do
  let flag ← readUint8
  pure (flag ≠ 0)

/-- A field that older peers do not send. -/
def readOptionalString : Reader String := fun data offset =>
  if offset < data.length then readString data offset else .ok ("", offset)

/-- A count and the values. -/
def writeList {α : Type} (write : α → Bytes) (values : List α) : Bytes :=
  writeVarint values.length ++ values.flatMap write

def readList {α : Type} (read : Reader α) : Reader (List α) := do
  let count ← readVarint
  readMany read count

def readVarBytes : Reader Bytes := do
  let length ← readVarint
  readBytes length

end Serializer

open Serializer

structure VersionMessage where
  version : UInt32 := 70015
  services : UInt64 := 1
  timestamp : UInt64 := 0
  addrRecvServices : UInt64 := 1
  addrRecvIp : Bytes := List.replicate 16 0
  addrRecvPort : UInt16 := 8333
  addrFromServices : UInt64 := 1
  addrFromIp : Bytes := List.replicate 16 0
  addrFromPort : UInt16 := 8333
  nonce : UInt64 := 0
  userAgent : String := "/BerzCoin:1.0/"
  startHeight : UInt32 := 0
  relay : Bool := true
  network : String := ""
  nodeId : String := ""
  bestBlockHash : String := ""
  deriving DecidableEq

namespace VersionMessage

def serialize (m : VersionMessage) : Bytes :=
  writeUint32 m.version ++ (writeUint64 m.services ++ (writeUint64 m.timestamp ++
    (writeUint64 m.addrRecvServices ++ (m.addrRecvIp ++ (writeUint16 m.addrRecvPort ++
    (writeUint64 m.addrFromServices ++ (m.addrFromIp ++ (writeUint16 m.addrFromPort ++
    (writeUint64 m.nonce ++ (writeString m.userAgent ++ (writeUint32 m.startHeight ++
    (writeFlag m.relay ++ (writeString m.network ++ (writeString m.nodeId ++
      writeString m.bestBlockHash))))))))))))))

def deserialize : Reader VersionMessage := do
  let version ← readUint32
  let services ← readUint64
  let timestamp ← readUint64
  let addrRecvServices ← readUint64
  let addrRecvIp ← readBytes 16
  let addrRecvPort ← readUint16
  let addrFromServices ← readUint64
  let addrFromIp ← readBytes 16
  let addrFromPort ← readUint16
  let nonce ← readUint64
  let userAgent ← readString
  let startHeight ← readUint32
  let relay ← readFlag
  let network ← readOptionalString
  let nodeId ← readOptionalString
  let bestBlockHash ← readOptionalString
  pure ⟨version, services, timestamp, addrRecvServices, addrRecvIp, addrRecvPort, addrFromServices,
    addrFromIp, addrFromPort, nonce, userAgent, startHeight, relay, network, nodeId, bestBlockHash⟩

end VersionMessage

/-- `hash_count` is read from the wire and not written. -/
structure GetHeadersMessage where
  version : UInt32 := 70015
  hashCount : ℕ := 1
  blockLocatorHashes : List Bytes := []
  hashStop : Bytes := zeroHash
  deriving DecidableEq

namespace GetHeadersMessage

def serialize (m : GetHeadersMessage) : Bytes :=
  writeUint32 m.version ++ (writeList id m.blockLocatorHashes ++ m.hashStop)

def deserialize : Reader GetHeadersMessage := do
  let version ← readUint32
  let count ← readVarint
  let locator ← readMany (readBytes 32) count
  let hashStop ← readBytes 32
  pure ⟨version, count, locator, hashStop⟩

end GetHeadersMessage

structure HeadersMessage where
  headers : List Bytes := []
  deriving DecidableEq

namespace HeadersMessage

/-- Nothing is written after a header. -/
def serialize (m : HeadersMessage) : Bytes := writeList id m.headers

/-- After each header a transaction count is read. -/
def deserialize : Reader HeadersMessage := do
  let headers ← readList (do
    let header ← readBytes 80
    let _txCount ← readVarint
    pure header)
  pure ⟨headers⟩

end HeadersMessage

structure GetBlocksMessage where
  version : UInt32 := 70015
  blockLocatorHashes : List Bytes := []
  hashStop : Bytes := zeroHash
  deriving DecidableEq

namespace GetBlocksMessage

def serialize (m : GetBlocksMessage) : Bytes :=
  writeUint32 m.version ++ (writeList id m.blockLocatorHashes ++ m.hashStop)

def deserialize : Reader GetBlocksMessage := do
  let version ← readUint32
  let locator ← readList (readBytes 32)
  let hashStop ← readBytes 32
  pure ⟨version, locator, hashStop⟩

end GetBlocksMessage

/-- The inventory of `inv` and `getdata`. -/
def writeInventory (inventory : List (UInt32 × Bytes)) : Bytes :=
  writeList (fun item => writeUint32 item.1 ++ item.2) inventory

def readInventory : Reader (List (UInt32 × Bytes)) :=
  readList do
    let invType ← readUint32
    let invHash ← readBytes 32
    pure (invType, invHash)

structure InvMessage where
  inventory : List (UInt32 × Bytes) := []
  deriving DecidableEq

namespace InvMessage

def serialize (m : InvMessage) : Bytes := writeInventory m.inventory

def deserialize : Reader InvMessage := do
  let inventory ← readInventory
  pure ⟨inventory⟩

end InvMessage

structure GetDataMessage where
  inventory : List (UInt32 × Bytes) := []
  deriving DecidableEq

namespace GetDataMessage

def serialize (m : GetDataMessage) : Bytes := writeInventory m.inventory

def deserialize : Reader GetDataMessage := do
  let inventory ← readInventory
  pure ⟨inventory⟩

end GetDataMessage

/-- `cls(data[offset:]), len(data) - offset`: the second component is a length. -/
def readRest : Reader Bytes := fun data offset => .ok (restFrom data offset, data.length - offset)

structure BlockMessage where
  block : Bytes := []
  deriving DecidableEq

namespace BlockMessage

def serialize (m : BlockMessage) : Bytes := m.block

def deserialize : Reader BlockMessage := do
  let block ← readRest
  pure ⟨block⟩

end BlockMessage

structure TxMessage where
  transaction : Bytes := []
  deriving DecidableEq

namespace TxMessage

def serialize (m : TxMessage) : Bytes := m.transaction

def deserialize : Reader TxMessage := do
  let transaction ← readRest
  pure ⟨transaction⟩

end TxMessage

/-- A dictionary of `addr`; a key may be missing. -/
structure PeerAddress where
  time : Option UInt32
  services : Option UInt64
  ip : Option Bytes
  port : Option UInt16
  deriving DecidableEq

namespace PeerAddress

def serialize (addr : PeerAddress) : Bytes :=
  writeUint32 (addr.time.getD 0) ++ (writeUint64 (addr.services.getD 1) ++
    (addr.ip.getD (List.replicate 16 0) ++ writeUint16 (addr.port.getD 8333)))

def deserialize : Reader PeerAddress := do
  let timestamp ← readUint32
  let services ← readUint64
  let ip ← readBytes 16
  let port ← readUint16
  pure ⟨some timestamp, some services, some ip, some port⟩

end PeerAddress

structure AddrMessage where
  addresses : List PeerAddress := []
  deriving DecidableEq

namespace AddrMessage

def serialize (m : AddrMessage) : Bytes := writeList PeerAddress.serialize m.addresses

def deserialize : Reader AddrMessage := do
  let addresses ← readList PeerAddress.deserialize
  pure ⟨addresses⟩

end AddrMessage

structure PingMessage where
  nonce : UInt64 := 0
  deriving DecidableEq

namespace PingMessage

def serialize (m : PingMessage) : Bytes := writeUint64 m.nonce

def deserialize : Reader PingMessage := do
  let nonce ← readUint64
  pure ⟨nonce⟩

end PingMessage

structure PongMessage where
  nonce : UInt64 := 0
  deriving DecidableEq

namespace PongMessage

def serialize (m : PongMessage) : Bytes := writeUint64 m.nonce

def deserialize : Reader PongMessage := do
  let nonce ← readUint64
  pure ⟨nonce⟩

end PongMessage

structure RejectMessage where
  message : String := ""
  code : UInt8 := 0
  reason : String := ""
  data : Bytes := []
  deriving DecidableEq

namespace RejectMessage

def serialize (m : RejectMessage) : Bytes :=
  writeString m.message ++ (writeUint8 m.code ++ (writeString m.reason ++ m.data))

def deserialize : Reader RejectMessage := do
  let message ← readString
  let code ← readUint8
  let reason ← readString
  fun data offset => .ok (⟨message, code, reason, restFrom data offset⟩, data.length)

end RejectMessage

structure SendCmpctMessage where
  announce : Bool := false
  version : UInt64 := 1
  deriving DecidableEq

namespace SendCmpctMessage

def serialize (m : SendCmpctMessage) : Bytes := writeFlag m.announce ++ writeUint64 m.version

def deserialize : Reader SendCmpctMessage := do
  let announce ← readFlag
  let version ← readUint64
  pure ⟨announce, version⟩

end SendCmpctMessage

/-- A prefilled transaction stands with its position in the block. -/
structure CmpctBlockMessage where
  header : Bytes := []
  nonce : UInt64 := 0
  shortids : List ℕ := []
  prefilledTxn : List (ℕ × Bytes) := []
  deriving DecidableEq

namespace CmpctBlockMessage

def serialize (m : CmpctBlockMessage) : Except PyError Bytes :=
  if m.header.length ≠ 80 then .error (.valueError "Compact block header must be 80 bytes")
  else if m.shortids.any (0xFFFFFFFFFFFF < ·) then .error (.valueError "shortid out of 48-bit range")
  else
    .ok (m.header ++ (writeUint64 m.nonce ++ (writeList (leBytes 6) m.shortids ++
      writeList (fun p => writeVarint p.1 ++ writeBytes p.2) m.prefilledTxn)))

def deserialize : Reader CmpctBlockMessage := do
  let header ← readBytes 80
  let nonce ← readUint64
  let shortids ← readList do
    let shortidBytes ← readBytes 6
    pure (leNat shortidBytes)
  let prefilledTxn ← readList do
    let index ← readVarint
    let txBytes ← readVarBytes
    pure (index, txBytes)
  pure ⟨header, nonce, shortids, prefilledTxn⟩

end CmpctBlockMessage

structure GetBlockTxnMessage where
  blockHash : Bytes := zeroHash
  indexes : List ℕ := []
  deriving DecidableEq

namespace GetBlockTxnMessage

def serialize (m : GetBlockTxnMessage) : Bytes := m.blockHash ++ writeList writeVarint m.indexes

def deserialize : Reader GetBlockTxnMessage := do
  let blockHash ← readBytes 32
  let indexes ← readList readVarint
  pure ⟨blockHash, indexes⟩

end GetBlockTxnMessage

structure BlockTxnMessage where
  blockHash : Bytes := zeroHash
  transactions : List Bytes := []
  deriving DecidableEq

namespace BlockTxnMessage

def serialize (m : BlockTxnMessage) : Bytes := m.blockHash ++ writeList writeBytes m.transactions

def deserialize : Reader BlockTxnMessage := do
  let blockHash ← readBytes 32
  let transactions ← readList readVarBytes
  pure ⟨blockHash, transactions⟩

end BlockTxnMessage

structure JoinRequestMessage where
  nodeId : String := ""
  pubkey : String := ""
  listenPort : UInt16 := 0
  nonce : UInt64 := 0
  timestamp : UInt64 := 0
  deriving DecidableEq

namespace JoinRequestMessage

def serialize (m : JoinRequestMessage) : Bytes :=
  writeString m.nodeId ++ (writeString m.pubkey ++ (writeUint16 m.listenPort ++
    (writeUint64 m.nonce ++ writeUint64 m.timestamp)))

def deserialize : Reader JoinRequestMessage := do
  let nodeId ← readString
  let pubkey ← readString
  let listenPort ← readUint16
  let nonce ← readUint64
  let timestamp ← readUint64
  pure ⟨nodeId, pubkey, listenPort, nonce, timestamp⟩

end JoinRequestMessage

structure JoinChallengeMessage where
  challengeId : UInt64 := 0
  challenge : Bytes := []
  expiresAt : UInt64 := 0
  deriving DecidableEq

namespace JoinChallengeMessage

def serialize (m : JoinChallengeMessage) : Bytes :=
  writeUint64 m.challengeId ++ (writeBytes m.challenge ++ writeUint64 m.expiresAt)

def deserialize : Reader JoinChallengeMessage := do
  let challengeId ← readUint64
  let challenge ← readVarBytes
  let expiresAt ← readUint64
  pure ⟨challengeId, challenge, expiresAt⟩

end JoinChallengeMessage

structure JoinAttestMessage where
  candidateNodeId : String := ""
  verifierNodeId : String := ""
  verifierPubkey : String := ""
  challengeId : UInt64 := 0
  signature : Bytes := []
  timestamp : UInt64 := 0
  deriving DecidableEq

namespace JoinAttestMessage

def serialize (m : JoinAttestMessage) : Bytes :=
  writeString m.candidateNodeId ++ (writeString m.verifierNodeId ++ (writeString m.verifierPubkey ++
    (writeUint64 m.challengeId ++ (writeBytes m.signature ++ writeUint64 m.timestamp))))

def deserialize : Reader JoinAttestMessage := do
  let candidateNodeId ← readString
  let verifierNodeId ← readString
  let verifierPubkey ← readString
  let challengeId ← readUint64
  let signature ← readVarBytes
  let timestamp ← readUint64
  pure ⟨candidateNodeId, verifierNodeId, verifierPubkey, challengeId, signature, timestamp⟩

end JoinAttestMessage

structure JoinResultMessage where
  accepted : Bool := false
  code : ℕ := 0
  reason : String := ""
  requiredVotes : UInt16 := 0
  receivedVotes : UInt16 := 0
  deriving DecidableEq

namespace JoinResultMessage

/-- `int(self.code) & 0xFF`. -/
def serialize (m : JoinResultMessage) : Bytes :=
  writeFlag m.accepted ++ (writeUint8 (UInt8.ofNat (m.code &&& 0xFF)) ++ (writeString m.reason ++
    (writeUint16 m.requiredVotes ++ writeUint16 m.receivedVotes)))

def deserialize : Reader JoinResultMessage := do
  let accepted ← readFlag
  let code ← readUint8
  let reason ← readString
  let requiredVotes ← readUint16
  let receivedVotes ← readUint16
  pure ⟨accepted, code.toNat, reason, requiredVotes, receivedVotes⟩

end JoinResultMessage

/-- The messages with a payload, but for `headers`. -/
inductive Message
  | version (m : VersionMessage)
  | getheaders (m : GetHeadersMessage)
  | getblocks (m : GetBlocksMessage)
  | inv (m : InvMessage)
  | getdata (m : GetDataMessage)
  | block (m : BlockMessage)
  | tx (m : TxMessage)
  | addr (m : AddrMessage)
  | ping (m : PingMessage)
  | pong (m : PongMessage)
  | reject (m : RejectMessage)
  | sendcmpct (m : SendCmpctMessage)
  | cmpctblock (m : CmpctBlockMessage)
  | getblocktxn (m : GetBlockTxnMessage)
  | blocktxn (m : BlockTxnMessage)
  | joinRequest (m : JoinRequestMessage)
  | joinChallenge (m : JoinChallengeMessage)
  | joinAttest (m : JoinAttestMessage)
  | joinResult (m : JoinResultMessage)
  deriving DecidableEq

namespace Message

def serialize : Message → Except PyError Bytes
  | version m => .ok m.serialize
  | getheaders m => .ok m.serialize
  | getblocks m => .ok m.serialize
  | inv m => .ok m.serialize
  | getdata m => .ok m.serialize
  | block m => .ok m.serialize
  | tx m => .ok m.serialize
  | addr m => .ok m.serialize
  | ping m => .ok m.serialize
  | pong m => .ok m.serialize
  | reject m => .ok m.serialize
  | sendcmpct m => .ok m.serialize
  | cmpctblock m => m.serialize
  | getblocktxn m => .ok m.serialize
  | blocktxn m => .ok m.serialize
  | joinRequest m => .ok m.serialize
  | joinChallenge m => .ok m.serialize
  | joinAttest m => .ok m.serialize
  | joinResult m => .ok m.serialize

/-- `deserialize` of the class that a message belongs to. -/
def deserializeLike : Message → Reader Message
  | version _ => do return version (← VersionMessage.deserialize)
  | getheaders _ => do return getheaders (← GetHeadersMessage.deserialize)
  | getblocks _ => do return getblocks (← GetBlocksMessage.deserialize)
  | inv _ => do return inv (← InvMessage.deserialize)
  | getdata _ => do return getdata (← GetDataMessage.deserialize)
  | block _ => do return block (← BlockMessage.deserialize)
  | tx _ => do return tx (← TxMessage.deserialize)
  | addr _ => do return addr (← AddrMessage.deserialize)
  | ping _ => do return ping (← PingMessage.deserialize)
  | pong _ => do return pong (← PongMessage.deserialize)
  | reject _ => do return reject (← RejectMessage.deserialize)
  | sendcmpct _ => do return sendcmpct (← SendCmpctMessage.deserialize)
  | cmpctblock _ => do return cmpctblock (← CmpctBlockMessage.deserialize)
  | getblocktxn _ => do return getblocktxn (← GetBlockTxnMessage.deserialize)
  | blocktxn _ => do return blocktxn (← BlockTxnMessage.deserialize)
  | joinRequest _ => do return joinRequest (← JoinRequestMessage.deserialize)
  | joinChallenge _ => do return joinChallenge (← JoinChallengeMessage.deserialize)
  | joinAttest _ => do return joinAttest (← JoinAttestMessage.deserialize)
  | joinResult _ => do return joinResult (← JoinResultMessage.deserialize)

end Message
end BerzCoin
