import BerzCoin.ChunkedReader
import BerzCoin.ProtocolCodec

/-! The read loop of `Peer`. No read times out, and nothing else closes the connection. -/
namespace BerzCoin

/-- `Peer.VALID_COMMANDS`. -/
def VALID_COMMANDS : List Text :=
  ["version".toList, "verack".toList, "ping".toList, "pong".toList, "inv".toList, "getdata".toList,
    "getheaders".toList, "headers".toList, "getblocks".toList, "block".toList, "tx".toList,
    "addr".toList, "getaddr".toList, "sendcmpct".toList, "cmpctblock".toList, "getblocktxn".toList,
    "blocktxn".toList, "join_request".toList, "join_challenge".toList, "join_attest".toList,
    "join_result".toList]

structure PeerSettings where
  network : Network
  maxPayloadSize : ℕ := 2000000
  minReadProgressBytes : ℕ := 1

/-- Why the loop has ended. -/
inductive PeerEnd
  | incomplete_read | oversized_payload | partial_message_timeout | malformed_message | invalid_command
  deriving DecidableEq, Repr

namespace Peer
variable (H : Hashlib) (settings : PeerSettings)

/-- The loop that waits for more bytes after a short chunk; `None` at the end of the stream. A
round adds a byte, so `fuel` is at least what is missing to the minimum. -/
def awaitProgress (minRead chunkBudget : ℕ) :
    ℕ → Bytes → ChunkedReader UInt8 → Option Bytes × ChunkedReader UInt8
  | 0, chunk, r => (some chunk, r)
  | fuel + 1, chunk, r =>
    if minRead ≤ chunk.length then (some chunk, r)
    else
      let (rest, r) := r.read chunkBudget
      if rest = [] then (none, r)
      else if chunkBudget ≤ (chunk ++ rest).length then (some (chunk ++ rest), r)
      else awaitProgress minRead chunkBudget fuel (chunk ++ rest) r

/-- The outer loop; a round adds a byte. -/
def readRounds (minRead total : ℕ) :
    ℕ → Bytes → ChunkedReader UInt8 → Option Bytes × ChunkedReader UInt8
  | 0, buf, r => (some buf, r)
  | fuel + 1, buf, r =>
    if total ≤ buf.length then (some buf, r)
    else
      let chunkBudget := min 65536 (total - buf.length)
      let (chunk, r) := r.read chunkBudget
      if chunk = [] then (none, r)
      else
        match awaitProgress minRead chunkBudget minRead chunk r with
        | (none, r) => (none, r)
        | (some chunk, r) => readRounds minRead total fuel (buf ++ chunk) r

/-- `_read_exactly_with_progress`. -/
def readExactlyWithProgress (minRead total : ℕ) (r : ChunkedReader UInt8) :
    Option Bytes × ChunkedReader UInt8 :=
  readRounds minRead total total [] r

/-- `_handle_messages`: what is handed to `on_message`, and why the loop ends. -/
def handleMessages : ℕ → ChunkedReader UInt8 → List (Text × Bytes) × PeerEnd
  | 0, _ => ([], .incomplete_read)
  | fuel + 1, r =>
    match r.readExactly 24 with
    | none => ([], .incomplete_read)
    | some (header, r) =>
      let payloadLen := leNat (slice header 16 4)
      if settings.maxPayloadSize < payloadLen then ([], .oversized_payload)
      else
        match readExactlyWithProgress settings.minReadProgressBytes payloadLen r with
        | (none, _) => ([], .partial_message_timeout)
        | (some payload, r) =>
          match MessageCodec.decode H settings.network (header ++ payload) with
          | .error _ => ([], .malformed_message)
          | .ok (command, decoded, _) =>
            if command ∉ VALID_COMMANDS then ([], .invalid_command)
            else
              let (delivered, why) := handleMessages fuel r
              ((command, decoded) :: delivered, why)

/-- A message takes 24 bytes of the stream and more. -/
def messages (r : ChunkedReader UInt8) : List (Text × Bytes) :=
  (handleMessages H settings r.data.length r).1

/-- What is written to the connection for a list of messages. -/
def writeMessages (network : Network) : List (Text × Bytes) → Except PyError Bytes
  | [] => .ok []
  | (command, payload) :: rest => do
      let encoded ← MessageCodec.encode H network command payload
      let written ← writeMessages network rest
      return encoded ++ written

end Peer
end BerzCoin
