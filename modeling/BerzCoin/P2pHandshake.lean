import BerzCoin.DuplexLink
import BerzCoin.P2pFraming
import BerzCoin.ProtocolMessagesCodec
import BerzCoin.StorageDatabase

/-! The handshake of two nodes. Each end greets the other one on its own, and reads the stream that
comes from it; a turn is what `_handshake` does from one wait to the next. -/
namespace BerzCoin
open DuplexLink ChunkedReader

/-- The text of a network in the configuration. -/
def Network.name : Network → String
  | .mainnet => "mainnet"
  | .testnet => "testnet"
  | .regtest => "regtest"

/-- `a or b` on texts. -/
def orText (a b : String) : String := if a = "" then b else a

structure VersionHandshake where
  localServices : UInt64 := 1
  userAgent : String := "/BerzCoin:1.0/"
  startHeight : UInt32 := 0
  relay : Bool := true
  expectedNetwork : String := ""
  nodeId : String := ""
  bestBlockHash : String := ""
  nonce : UInt64
  remoteVersion : Option VersionMessage := none
  verackSent : Bool := false
  verackReceived : Bool := false

namespace VersionHandshake

def PROTOCOL_VERSION : UInt32 := 70015
def MIN_PROTOCOL_VERSION : UInt32 := 70001

/-- The addresses keep their defaults. -/
def createVersion (handshake : VersionHandshake) (now : UInt64) : VersionMessage where
  version := PROTOCOL_VERSION
  services := handshake.localServices
  timestamp := now
  addrFromServices := handshake.localServices
  nonce := handshake.nonce
  userAgent := handshake.userAgent
  startHeight := handshake.startHeight
  relay := handshake.relay
  network := handshake.expectedNetwork
  nodeId := handshake.nodeId
  bestBlockHash := handshake.bestBlockHash

/-- What `process_version` objects to. -/
def versionError (handshake : VersionHandshake) (version : VersionMessage) : Option String :=
  if handshake.expectedNetwork ≠ "" ∧ version.network ≠ "" ∧
      version.network ≠ handshake.expectedNetwork then
    some ("Wrong network: expected=" ++ handshake.expectedNetwork ++ " got=" ++ version.network)
  else if version.version < MIN_PROTOCOL_VERSION then
    some ("Protocol version too old: " ++ toString version.version)
  else none

/-- The version is kept also where it is refused. -/
def processVersion (handshake : VersionHandshake) (version : VersionMessage) :
    VersionHandshake × Option String :=
  ({ handshake with remoteVersion := some version }, handshake.versionError version)

def createVerack (handshake : VersionHandshake) : VersionHandshake :=
  { handshake with verackSent := true }

def processVerack (handshake : VersionHandshake) : VersionHandshake :=
  { handshake with verackReceived := true }

def isComplete (handshake : VersionHandshake) : Bool :=
  handshake.verackSent && handshake.verackReceived

end VersionHandshake

/-- The reason that is reported to `on_protocol_violation`. -/
def PeerEnd.reason : PeerEnd → String
  | .incomplete_read => "incomplete_read"
  | .oversized_payload => "oversized_payload"
  | .partial_message_timeout => "partial_message_timeout"
  | .malformed_message => "malformed_message"
  | .invalid_command => "invalid_command"

/-- Where `_handshake` stands; an exception leaves it at once. -/
inductive HandshakeStage
  | start | awaitVersion | awaitVerack | complete | failed | raised (e : PyError)
  deriving DecidableEq

/-- The fields of `Peer` that the handshake reads and writes. `now` is the clock. -/
structure HandshakePeer where
  settings : PeerSettings
  handshake : VersionHandshake
  now : UInt64
  stage : HandshakeStage := .start
  closed : Bool := false
  relayTxs : Bool := true
  version : Option VersionMessage := none
  disconnectReason : String := ""
  lastHandshakeError : String := ""

namespace Peer

/-- What the wait finds at the front of the stream. -/
inductive Awaited
  | pending
  | refused (why : PeerEnd) (error : String)
  | message (command : Text) (payload rest : Bytes)

/-- A round of `_wait_for_message`, unless it waits for more bytes. -/
def readMessage (H : Hashlib) (settings : PeerSettings) (r : ChunkedReader UInt8) : Awaited :=
  match r.readExactly 24 with
  | none => .pending
  | some (header, r) =>
    let payloadLen := leNat (slice header 16 4)
    if settings.maxPayloadSize < payloadLen then .refused .oversized_payload ""
    else
      match readExactlyWithProgress settings.minReadProgressBytes payloadLen r with
      | (none, _) => .pending
      | (some payload, r) =>
        match MessageCodec.decode H settings.network (header ++ payload) with
        | .error e => .refused .malformed_message ("malformed_message:" ++ e.message)
        | .ok (command, decoded, _) =>
          if command ∉ VALID_COMMANDS then
            .refused .invalid_command ("invalid_command:" ++ String.ofList command)
          else .message command decoded r.data

end Peer

namespace HandshakePeer
variable (H : Hashlib)

/-- The version message of an end. -/
def greeting (p : HandshakePeer) : VersionMessage := p.handshake.createVersion p.now

/-- `configure_handshake` on a new peer. -/
def configureHandshake (network : Network) (nonce now : UInt64) (nodeId : String)
    (startHeight : UInt32) (bestBlockHash : String) (maxPayloadSize minReadProgressBytes : Option ℤ) :
    HandshakePeer where
  settings :=
    { network
      maxPayloadSize := maxPayloadSize.elim 2000000 fun size => (max 1024 size).toNat
      minReadProgressBytes := minReadProgressBytes.elim 1 fun size => (max 1 size).toNat }
  handshake :=
    { startHeight, expectedNetwork := network.name, nodeId, bestBlockHash, nonce }
  now := now

/-- `send_message`: what it writes. A message that cannot be encoded closes the connection. -/
def sendMessage (p : HandshakePeer) (command : Text) (payload : Bytes) : HandshakePeer × Bytes :=
  match p.closed, MessageCodec.encode H p.settings.network command payload with
  | false, .ok encoded => (p, encoded)
  | _, _ => ({ p with closed := true, disconnectReason := "send_error" }, [])

/-- The handshake ends, with `error` unless there is one already. -/
def fail (p : HandshakePeer) (error : String) : HandshakePeer :=
  { p with
    stage := .failed
    lastHandshakeError := orText p.lastHandshakeError error
    disconnectReason := orText p.disconnectReason (orText p.lastHandshakeError error) }

/-- `_report_protocol_violation`, and the end of the wait. -/
def refuse (p : HandshakePeer) (why : PeerEnd) (error timeout : String) : HandshakePeer :=
  let p := { p with
    lastHandshakeError := orText error p.lastHandshakeError
    disconnectReason := orText p.disconnectReason why.reason }
  p.fail timeout

/-- What follows on the version of the other end. -/
def onVersion (p : HandshakePeer) (payload : Bytes) : HandshakePeer × Bytes :=
  match VersionMessage.deserialize payload 0 with
  | .error e => ({ p with stage := .raised e }, [])
  | .ok (remoteVersion, _) =>
    match p.handshake.processVersion remoteVersion with
    | (handshake, some error) =>
      let error := "invalid_version:" ++ error
      ({ p with
          handshake
          stage := .failed
          lastHandshakeError := error
          disconnectReason := orText p.disconnectReason error }, [])
    | (handshake, none) =>
      sendMessage H
        { p with
          handshake := handshake.createVerack
          stage := .awaitVerack
          relayTxs := remoteVersion.relay }
        "verack".toList []

/-- What follows on the verack of the other end. -/
def onVerack (p : HandshakePeer) : HandshakePeer × Bytes :=
  sendMessage H
    { p with
      handshake := p.handshake.processVerack
      stage := .complete
      version := p.handshake.remoteVersion }
    "sendcmpct".toList (SendCmpctMessage.serialize ⟨true, 1⟩)

/-- A wait for `command`. Other messages are dropped. -/
def await (p : HandshakePeer) (command : Text) (timeout : String) (cuts : ℕ → ℕ) (unread : Bytes)
    (follow : HandshakePeer → Bytes → HandshakePeer × Bytes) : Option (Turn HandshakePeer UInt8) :=
  match Peer.readMessage H p.settings ⟨unread, cuts⟩ with
  | .pending => none
  | .refused why error => some ⟨p.refuse why error timeout, [], []⟩
  | .message received payload rest =>
    if received = command then some ⟨(follow p payload).1, rest, (follow p payload).2⟩
    else some ⟨p, rest, []⟩

/-- `_handshake` from one wait to the next. -/
def turn (p : HandshakePeer) (cuts : ℕ → ℕ) (unread : Bytes) : Option (Turn HandshakePeer UInt8) :=
  match p.stage with
  | .start =>
    let sent := sendMessage H { p with stage := .awaitVersion, lastHandshakeError := "" }
      "version".toList p.greeting.serialize
    some ⟨sent.1, unread, sent.2⟩
  | .awaitVersion =>
    p.await H "version".toList "version_timeout" cuts unread (onVersion H)
  | .awaitVerack =>
    p.await H "verack".toList "verack_timeout" cuts unread fun p _ => p.onVerack H
  | .complete | .failed | .raised _ => none

/-- The wait ends without a message: the time is over or the connection is lost, between two
messages or within one. -/
def giveUp (p : HandshakePeer) (withinPayload : Bool) : Option HandshakePeer :=
  let p' := if withinPayload then
      { p with disconnectReason := orText p.disconnectReason PeerEnd.partial_message_timeout.reason }
    else p
  match p.stage with
  | .awaitVersion => some (p'.fail "version_timeout")
  | .awaitVerack => some (p'.fail "verack_timeout")
  | .start | .complete | .failed | .raised _ => none

/-- The turns where no wait is given up. -/
def Lossless (p : HandshakePeer) (unread : Bytes) (t : Turn HandshakePeer UInt8) : Prop :=
  ∃ cuts, p.turn H cuts unread = some t

/-- All the turns. -/
def Lossy (p : HandshakePeer) (unread : Bytes) (t : Turn HandshakePeer UInt8) : Prop :=
  Lossless H p unread t ∨ ∃ withinPayload p', p.giveUp withinPayload = some p' ∧ t = ⟨p', [], []⟩

end HandshakePeer
end BerzCoin
