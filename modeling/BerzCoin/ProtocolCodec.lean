import BerzCoin.CryptoAddress
import BerzCoin.CoreReaders

/-! `MessageHeader` and `MessageCodec`: the envelope of a message on the wire. -/
namespace BerzCoin
open Serializer

/-- `MessageHeader.MAGIC_BYTES`. -/
def magicBytes : Network → Bytes
  | .mainnet => [0xf9, 0xbe, 0xb4, 0xd9]
  | .testnet => [0x0b, 0x11, 0x09, 0x07]
  | .regtest => [0xfa, 0xbf, 0xb5, 0xda]

/-- `command.encode("ascii", errors="replace")`. -/
def encodeAscii (command : Text) : Bytes :=
  command.map fun c => if c.toNat < 128 then UInt8.ofNat c.toNat else 0x3f

/-- `data.decode("ascii", errors="replace")`. -/
def decodeAscii (data : Bytes) : Text :=
  data.map fun b => if b < 128 then Char.ofNat b.toNat else Char.ofNat 0xfffd

/-- `.rstrip("\x00")`. -/
def rstripNul (text : Text) : Text := text.rdropWhile (· = Char.ofNat 0)

structure MessageHeader where
  magic : Bytes
  command : Bytes
  length : ℕ
  checksum : Bytes
  payload : Bytes
  deriving DecidableEq

namespace MessageHeader
variable (H : Hashlib) (network : Network)

/-- `encode(..)[:12].ljust(12, b"\x00")`. -/
def commandField (command : Text) : Bytes :=
  let field := (encodeAscii command).take 12
  field ++ List.replicate (12 - field.length) 0

/-- The constructor. -/
def new (command : Text) (payload : Bytes) : MessageHeader where
  magic := magicBytes network
  command := commandField command
  length := payload.length
  checksum := (H.hash256 payload).take 4
  payload := payload

def serialize (header : MessageHeader) : Except PyError Bytes :=
  if header.length < 2 ^ 32 then
    .ok (header.magic ++ (header.command ++ (leBytes 4 header.length ++
      (header.checksum ++ header.payload))))
  else .error (.structError "argument out of range")

def deserialize (data : Bytes) : Except PyError (MessageHeader × ℕ) :=
  if slice data 0 4 ≠ magicBytes network then
    .error (.valueError ("Invalid magic bytes: " ++ hex (slice data 0 4)))
  else
    let command := rstripNul (decodeAscii (slice data 4 12))
    match unpackFrom 4 data 16 with
    | .error e => .error e
    | .ok (length, offset) =>
      let checksum := slice data offset 4
      let offset := offset + 4
      if data.length < offset + length then
        .error (.valueError ("Not enough data for payload: need " ++ toString length ++ ", have " ++
          toString ((data.length : ℤ) - offset)))
      else
        let payload := slice data offset length
        if checksum ≠ (H.hash256 payload).take 4 then
          .error (.valueError ("Invalid checksum: expected " ++ hex ((H.hash256 payload).take 4) ++
            ", got " ++ hex checksum))
        else .ok ({ new H network command payload with checksum }, offset + length)

end MessageHeader

namespace MessageCodec
variable (H : Hashlib) (network : Network)

def encode (command : Text) (payload : Bytes) : Except PyError Bytes :=
  (MessageHeader.new H network command payload).serialize

/-- The header holds the command as bytes again, so it is decoded a second time. -/
def decode (data : Bytes) : Except PyError (Text × Bytes × ℕ) :=
  match MessageHeader.deserialize H network data with
  | .error e => .error e
  | .ok (header, consumed) => .ok (rstripNul (decodeAscii header.command), header.payload, consumed)

variable {H network} {command : Text} {payload encoded : Bytes}

@[simp] lemma magicBytes_length (network : Network) : (magicBytes network).length = 4 := by
  cases network <;> rfl

@[simp] lemma commandField_length (command : Text) : (MessageHeader.commandField command).length = 12 := by
  simp only [MessageHeader.commandField, List.length_append, List.length_take, List.length_replicate]
  omega

/-- The 24 bytes before the payload. -/
def envelope (H : Hashlib) (network : Network) (command : Text) (payload : Bytes) : Bytes :=
  magicBytes network ++ (MessageHeader.commandField command ++ (leBytes 4 payload.length ++
    (H.hash256 payload).take 4))

lemma encode_ok (h : encode H network command payload = .ok encoded) :
    encoded = envelope H network command payload ++ payload ∧ payload.length < 2 ^ 32 := by
  unfold encode MessageHeader.serialize at h
  split_ifs at h with hlength
  cases h
  exact ⟨by simp [envelope, MessageHeader.new], hlength⟩

lemma envelope_length (network : Network) (command : Text)
    (hdigest : 4 ≤ (H.hash256 payload).length) :
    (envelope H network command payload).length = 24 := by
  simp only [envelope, List.length_append, magicBytes_length, commandField_length, leBytes_length,
    List.length_take]
  omega

/-- The length field of an envelope. -/
lemma envelope_payloadLength (hlength : payload.length < 2 ^ 32) :
    leNat (slice (envelope H network command payload) 16 4) = payload.length := by
  have hslice : slice (envelope H network command payload) 16 4 = leBytes 4 payload.length := by
    have h := slice_append_right (magicBytes network ++ MessageHeader.commandField command)
      (leBytes 4 payload.length) ((H.hash256 payload).take 4)
    simpa [envelope] using h
  rw [hslice, leNat_leBytes_of_lt (by omega)]

/-- A command that the field holds. -/
def FitsField (command : Text) : Prop :=
  rstripNul (decodeAscii (MessageHeader.commandField command)) = command

/-- Bytes after the payload are not looked at. -/
lemma decode_encode (network : Network) (hdigest : 4 ≤ (H.hash256 payload).length)
    (hlength : payload.length < 2 ^ 32) (hcommand : FitsField command) (rest : Bytes) :
    decode H network (envelope H network command payload ++ (payload ++ rest)) =
      .ok (command, payload, 24 + payload.length) := by
  obtain ⟨field, hfieldEq⟩ : ∃ field, MessageHeader.commandField command = field := ⟨_, rfl⟩
  obtain ⟨checksum, hchecksum⟩ : ∃ checksum, (H.hash256 payload).take 4 = checksum := ⟨_, rfl⟩
  obtain ⟨data, hdata⟩ : ∃ data, magicBytes network ++ (field ++ (leBytes 4 payload.length ++
    (checksum ++ (payload ++ rest)))) = data := ⟨_, rfl⟩
  have hfield : field.length = 12 := hfieldEq ▸ commandField_length command
  have hsum : checksum.length = 4 := by
    rw [← hchecksum, List.length_take]
    omega
  have hwhole : envelope H network command payload ++ (payload ++ rest) = data := by
    simp [envelope, ← hdata, hfieldEq, hchecksum]
  have hmagic := slice_append_right [] (magicBytes network)
    (field ++ (leBytes 4 payload.length ++ (checksum ++ (payload ++ rest))))
  have hname := slice_append_right (magicBytes network) field
    (leBytes 4 payload.length ++ (checksum ++ (payload ++ rest)))
  have hsize := unpackFrom_decodes (show payload.length < 256 ^ 4 by omega)
    (magicBytes network ++ field) (checksum ++ (payload ++ rest))
  have hcheck := slice_append_right (magicBytes network ++ (field ++ leBytes 4 payload.length))
    checksum (payload ++ rest)
  have hpayload := slice_append_right
    (magicBytes network ++ (field ++ (leBytes 4 payload.length ++ checksum))) payload rest
  have hfits : data.length = 24 + (payload.length + rest.length) := by
    rw [← hdata]
    simp only [List.length_append, magicBytes_length, hfield, leBytes_length, hsum]
    omega
  simp only [List.nil_append, List.length_nil, List.length_append, magicBytes_length, hfield, hsum,
    leBytes_length, List.append_assoc, Nat.reduceAdd, hdata] at hmagic hname hsize hcheck hpayload
  rw [hwhole, decode, MessageHeader.deserialize, if_neg (not_not.2 hmagic), hsize, hname]
  simp only [hcheck, hpayload]
  rw [if_neg (by omega), if_neg (not_not.2 hchecksum.symm)]
  rw [FitsField, hfieldEq] at hcommand
  simp only [MessageHeader.new, hcommand, hfieldEq]

end MessageCodec
end BerzCoin
