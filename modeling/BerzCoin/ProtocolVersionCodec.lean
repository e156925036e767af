import BerzCoin.BigEndian
import BerzCoin.ProtocolMessagesCodec

/-! The codec for the payload of `version` in `MessageCodec`, beside `VersionMessage`. -/
namespace BerzCoin
open Serializer

/-- The values of a `version` payload. -/
structure VersionFields where
  version : ℤ
  services : ℤ
  timestamp : ℤ
  addrRecvServices : ℤ
  addrRecvIp : Bytes
  addrRecvPort : ℤ
  addrFromServices : ℤ
  addrFromIp : Bytes
  addrFromPort : ℤ
  nonce : ℤ
  userAgent : String
  startHeight : ℤ
  relay : Bool := true
  deriving DecidableEq

namespace MessageCodec

/-- `struct.pack` of a little-endian unsigned field. -/
def packUnsigned (width : ℕ) (value : ℤ) : Except PyError Bytes :=
  if 0 ≤ value ∧ value < 256 ^ width then .ok (leBytes width value.toNat)
  else .error (.structError "argument out of range")

/-- `struct.pack` of a little-endian signed field, in two's complement. -/
def packSigned (width : ℕ) (value : ℤ) : Except PyError Bytes :=
  if -(256 ^ width) ≤ 2 * value ∧ 2 * value < 256 ^ width then
    .ok (leBytes width (value % 256 ^ width).toNat)
  else .error (.structError "argument out of range")

/-- `struct.pack('>H', port)`. -/
def packPort (port : ℤ) : Except PyError Bytes :=
  if 0 ≤ port ∧ port < 256 ^ 2 then .ok (beBytes 2 port.toNat)
  else .error (.structError "argument out of range")

def encodeVersion (f : VersionFields) : Except PyError Bytes := do
  let version ← packSigned 4 f.version
  let services ← packUnsigned 8 f.services
  let timestamp ← packSigned 8 f.timestamp
  let addrRecvServices ← packUnsigned 8 f.addrRecvServices
  let addrRecvPort ← packPort f.addrRecvPort
  let addrFromServices ← packUnsigned 8 f.addrFromServices
  let addrFromPort ← packPort f.addrFromPort
  let nonce ← packUnsigned 8 f.nonce
  let startHeight ← packSigned 4 f.startHeight
  return version ++ (services ++ (timestamp ++ (addrRecvServices ++ (f.addrRecvIp ++ (addrRecvPort ++
    (addrFromServices ++ (f.addrFromIp ++ (addrFromPort ++ (nonce ++ (writeString f.userAgent ++
    (startHeight ++ writeFlag f.relay)))))))))))

/-- `struct.unpack_from('>H', data, offset)`. -/
def readPort : Reader ℕ := fun data offset =>
  if data.length < offset + 2 then .error (.structError "unpack_from requires a larger buffer")
  else .ok (beNat (slice data offset 2), offset + 2)

/-- The readers that `decode_version` names and `Serializer` does not have. -/
structure SignedReaders where
  readInt32 : Reader ℤ
  readInt64 : Reader ℤ
  readBool : Reader Bool

/-- Peers that do not send `relay` want transactions. -/
def SignedReaders.readRelay (readers : SignedReaders) : Reader Bool := fun data offset =>
  if offset < data.length then readers.readBool data offset else .ok (true, offset)

/-- `decode_version` with readers under these names. -/
def decodeVersionWith (readers : SignedReaders) : Reader VersionFields := do
  let version ← readers.readInt32
  let services ← readUint64
  let timestamp ← readers.readInt64
  let addrRecvServices ← readUint64
  let addrRecvIp ← readBytes 16
  let addrRecvPort ← readPort
  let addrFromServices ← readUint64
  let addrFromIp ← readBytes 16
  let addrFromPort ← readPort
  let nonce ← readUint64
  let userAgent ← readString
  let startHeight ← readers.readInt32
  let relay ← readers.readRelay
  pure ⟨version, services.toNat, timestamp, addrRecvServices.toNat, addrRecvIp, addrRecvPort,
    addrFromServices.toNat, addrFromIp, addrFromPort, nonce.toNat, userAgent, startHeight, relay⟩

/-- What the lookup of a name that `Serializer` lacks does. -/
def missing {α : Type} (name : String) : Reader α := fun _ _ =>
  .error (.attributeError ("type object 'Serializer' has no attribute '" ++ name ++ "'"))

def decodeVersion (data : Bytes) : Except PyError VersionFields :=
  (decodeVersionWith ⟨missing "read_int32", missing "read_int64", missing "read_bool"⟩ data 0).map Prod.fst

end MessageCodec

namespace VersionFields

/-- The arguments that can be packed. -/
structure InRange (f : VersionFields) : Prop where
  version : -2 ^ 31 ≤ f.version ∧ f.version < 2 ^ 31
  services : 0 ≤ f.services ∧ f.services < 2 ^ 64
  timestamp : -2 ^ 63 ≤ f.timestamp ∧ f.timestamp < 2 ^ 63
  addrRecvServices : 0 ≤ f.addrRecvServices ∧ f.addrRecvServices < 2 ^ 64
  addrRecvIp : f.addrRecvIp.length = 16
  addrRecvPort : 0 ≤ f.addrRecvPort ∧ f.addrRecvPort < 2 ^ 16
  addrFromServices : 0 ≤ f.addrFromServices ∧ f.addrFromServices < 2 ^ 64
  addrFromIp : f.addrFromIp.length = 16
  addrFromPort : 0 ≤ f.addrFromPort ∧ f.addrFromPort < 2 ^ 16
  nonce : 0 ≤ f.nonce ∧ f.nonce < 2 ^ 64
  userAgent : Encodable f.userAgent
  startHeight : -2 ^ 31 ≤ f.startHeight ∧ f.startHeight < 2 ^ 31

structure NonNegative (f : VersionFields) : Prop where
  version : 0 ≤ f.version
  timestamp : 0 ≤ f.timestamp
  startHeight : 0 ≤ f.startHeight

/-- Both bytes of a port are the same. -/
def SymmetricPort (port : ℤ) : Prop := port % 256 = port / 256

instance (port : ℤ) : Decidable (SymmetricPort port) := inferInstanceAs (Decidable (_ = _))

/-- `decode_version` returns the fields that `encode_version` has packed. -/
def RoundTrip (f : VersionFields) : Prop :=
  ∃ payload, MessageCodec.encodeVersion f = .ok payload ∧ MessageCodec.decodeVersion payload = .ok f

end VersionFields

/-- The fields that both codecs have. -/
def VersionMessage.fields (m : VersionMessage) : VersionFields where
  version := m.version.toNat
  services := m.services.toNat
  timestamp := m.timestamp.toNat
  addrRecvServices := m.addrRecvServices.toNat
  addrRecvIp := m.addrRecvIp
  addrRecvPort := m.addrRecvPort.toNat
  addrFromServices := m.addrFromServices.toNat
  addrFromIp := m.addrFromIp
  addrFromPort := m.addrFromPort.toNat
  nonce := m.nonce.toNat
  userAgent := m.userAgent
  startHeight := m.startHeight.toNat
  relay := m.relay

/-- `VersionMessage.deserialize` reads the fields that `encode_version` has packed. -/
def VersionFields.SameInMessage (f : VersionFields) : Prop :=
  ∃ payload, MessageCodec.encodeVersion f = .ok payload ∧
    ∃ m offset, VersionMessage.deserialize payload 0 = .ok (m, offset) ∧ m.fields = f

/-! The readers that `struct` would have for the packed fields. -/
namespace MessageCodec
open Reader

/-- A signed field, in two's complement. -/
def readSigned (width : ℕ) : Reader ℤ := do
  let n ← unpackFrom width
  pure (if 2 * n < 256 ^ width then (n : ℤ) else n - 256 ^ width)

def structReaders : SignedReaders where
  readInt32 := readSigned 4
  readInt64 := readSigned 8
  readBool := readFlag

lemma readSigned_decodes {width : ℕ} {value : ℤ} (hlower : -(256 ^ width) ≤ 2 * value)
    (hupper : 2 * value < 256 ^ width) :
    Decodes (readSigned width) (leBytes width (value % 256 ^ width).toNat) value := by
  obtain ⟨bound, hbound⟩ : ∃ bound : ℕ, 256 ^ width = bound := ⟨_, rfl⟩
  have hcast : (256 : ℤ) ^ width = bound := by
    rw [← hbound]
    norm_num
  have hpos : 0 < bound := by
    rw [← hbound]
    positivity
  rw [hcast] at hlower hupper ⊢
  have hnonneg := Int.emod_nonneg value (show (bound : ℤ) ≠ 0 by omega)
  have hmodLt := Int.emod_lt_of_pos value (show (0 : ℤ) < bound by omega)
  have hlt : (value % bound).toNat < 256 ^ width := by
    rw [hbound]
    omega
  have hvalue : (if 2 * (value % bound).toNat < 256 ^ width then ((value % bound).toNat : ℤ)
      else (value % bound).toNat - 256 ^ width) = value := by
    rw [hbound, hcast]
    by_cases hsign : 0 ≤ value
    · have hmod : value % bound = value := Int.emod_eq_of_lt hsign (by omega)
      rw [hmod, if_pos (by omega)]
      omega
    · have hmod : value % bound = value + bound := by
        rw [← Int.add_emod_right]
        exact Int.emod_eq_of_lt (by omega) (by omega)
      rw [hmod, if_neg (by omega)]
      omega
  have hread := (unpackFrom_decodes hlt).map
    (g := fun n : ℕ => if 2 * n < 256 ^ width then (n : ℤ) else n - 256 ^ width)
  rw [hvalue] at hread
  exact hread

lemma readPort_decodes {port : ℕ} (h : port < 256 ^ 2) : Decodes readPort (beBytes 2 port) port := by
  intro pre post
  have hle : ¬ (pre ++ (beBytes 2 port ++ post)).length < pre.length + 2 := by
    simp only [List.length_append, beBytes_length]
    omega
  have hs := slice_append_right pre (beBytes 2 port) post
  rw [beBytes_length] at hs
  simp only [readPort, if_neg hle, hs, beNat_beBytes h, beBytes_length]

/-- The packed fields. -/
def payload (f : VersionFields) : Bytes :=
  leBytes 4 (f.version % 256 ^ 4).toNat ++ (leBytes 8 f.services.toNat ++
    (leBytes 8 (f.timestamp % 256 ^ 8).toNat ++ (leBytes 8 f.addrRecvServices.toNat ++ (f.addrRecvIp ++
    (beBytes 2 f.addrRecvPort.toNat ++ (leBytes 8 f.addrFromServices.toNat ++ (f.addrFromIp ++
    (beBytes 2 f.addrFromPort.toNat ++ (leBytes 8 f.nonce.toNat ++ (writeString f.userAgent ++
    (leBytes 4 (f.startHeight % 256 ^ 4).toNat ++ writeFlag f.relay)))))))))))

lemma packUnsigned_ok {width : ℕ} {value : ℤ} (hlower : 0 ≤ value) (hupper : value < 256 ^ width) :
    packUnsigned width value = .ok (leBytes width value.toNat) := if_pos ⟨hlower, hupper⟩

lemma packSigned_ok {width : ℕ} {value : ℤ} (hlower : -(256 ^ width) ≤ 2 * value)
    (hupper : 2 * value < 256 ^ width) :
    packSigned width value = .ok (leBytes width (value % 256 ^ width).toNat) := if_pos ⟨hlower, hupper⟩

lemma packPort_ok {port : ℤ} (hlower : 0 ≤ port) (hupper : port < 256 ^ 2) :
    packPort port = .ok (beBytes 2 port.toNat) := if_pos ⟨hlower, hupper⟩

lemma encodeVersion_ok {f : VersionFields} (h : f.InRange) : encodeVersion f = .ok (payload f) := by
  obtain ⟨hversion, hservices, htimestamp, hrecvServices, -, hrecvPort, hfromServices, -, hfromPort, hnonce, -,
    hheight⟩ := h
  have hpackVersion := @packSigned_ok 4 f.version (by omega) (by omega)
  have hpackServices := @packUnsigned_ok 8 f.services (by omega) (by omega)
  have hpackTimestamp := @packSigned_ok 8 f.timestamp (by omega) (by omega)
  have hpackRecvServices := @packUnsigned_ok 8 f.addrRecvServices (by omega) (by omega)
  have hpackRecvPort := @packPort_ok f.addrRecvPort (by omega) (by omega)
  have hpackFromServices := @packUnsigned_ok 8 f.addrFromServices (by omega) (by omega)
  have hpackFromPort := @packPort_ok f.addrFromPort (by omega) (by omega)
  have hpackNonce := @packUnsigned_ok 8 f.nonce (by omega) (by omega)
  have hpackHeight := @packSigned_ok 4 f.startHeight (by omega) (by omega)
  rw [encodeVersion, hpackVersion, hpackServices, hpackTimestamp, hpackRecvServices, hpackRecvPort,
    hpackFromServices, hpackFromPort, hpackNonce, hpackHeight]
  rfl

lemma readUint64_ofNat {n : ℕ} (h : n < 2 ^ 64) : Decodes readUint64 (leBytes 8 n) (UInt64.ofNat n) := by
  have hread := readUint64_decodes (UInt64.ofNat n)
  rwa [writeUint64, UInt64.toNat_ofNat_of_lt' h] at hread

lemma toNat_ofNat_cast {value : ℤ} (hlower : 0 ≤ value) (hupper : value < 2 ^ 64) :
    ((UInt64.ofNat value.toNat).toNat : ℤ) = value := by
  rw [UInt64.toNat_ofNat_of_lt' (show value.toNat < 2 ^ 64 by omega)]
  omega

lemma readRelay_decodes (relay : Bool) : Decodes structReaders.readRelay (writeFlag relay) relay := by
  intro pre post
  have hlt : pre.length < (pre ++ (writeFlag relay ++ post)).length := by
    simp only [List.length_append, writeFlag, writeUint8, leBytes_length]
    omega
  rw [SignedReaders.readRelay, if_pos hlt]
  exact readFlag_decodes relay pre post

/-- With readers for its names, `decode_version` would return what was packed. -/
theorem decodeVersionWith_structReaders {f : VersionFields} (h : f.InRange) :
    Decodes (decodeVersionWith structReaders) (payload f) f := by
  obtain ⟨hversion, hservices, htimestamp, hrecvServices, hrecvIp, hrecvPort, hfromServices, hfromIp, hfromPort,
    hnonce, hagent, hheight⟩ := h
  have hreadVersion := @readSigned_decodes 4 f.version (by omega) (by omega)
  have hreadServices := @readUint64_ofNat f.services.toNat (by omega)
  have hreadTimestamp := @readSigned_decodes 8 f.timestamp (by omega) (by omega)
  have hreadRecvServices := @readUint64_ofNat f.addrRecvServices.toNat (by omega)
  have hreadRecvPort := @readPort_decodes f.addrRecvPort.toNat (by omega)
  have hreadFromServices := @readUint64_ofNat f.addrFromServices.toNat (by omega)
  have hreadFromPort := @readPort_decodes f.addrFromPort.toNat (by omega)
  have hreadNonce := @readUint64_ofNat f.nonce.toNat (by omega)
  have hreadHeight := @readSigned_decodes 4 f.startHeight (by omega) (by omega)
  have hread : Decodes (decodeVersionWith structReaders) (payload f)
      { f with
        services := (UInt64.ofNat f.services.toNat).toNat
        addrRecvServices := (UInt64.ofNat f.addrRecvServices.toNat).toNat
        addrRecvPort := f.addrRecvPort.toNat
        addrFromServices := (UInt64.ofNat f.addrFromServices.toNat).toNat
        addrFromPort := f.addrFromPort.toNat
        nonce := (UInt64.ofNat f.nonce.toNat).toNat } := by
    unfold decodeVersionWith payload
    exact hreadVersion.bind (hreadServices.bind (hreadTimestamp.bind (hreadRecvServices.bind
      ((readBytes_decodes hrecvIp).bind (hreadRecvPort.bind (hreadFromServices.bind
      ((readBytes_decodes hfromIp).bind (hreadFromPort.bind (hreadNonce.bind
      ((readString_decodes hagent).bind (hreadHeight.bind ((readRelay_decodes f.relay).map
        (g := VersionFields.mk f.version (UInt64.ofNat f.services.toNat).toNat f.timestamp
          (UInt64.ofNat f.addrRecvServices.toNat).toNat f.addrRecvIp f.addrRecvPort.toNat
          (UInt64.ofNat f.addrFromServices.toNat).toNat f.addrFromIp f.addrFromPort.toNat
          (UInt64.ofNat f.nonce.toNat).toNat f.userAgent f.startHeight)))))))))))))
  rw [toNat_ofNat_cast hservices.1 hservices.2, toNat_ofNat_cast hrecvServices.1 hrecvServices.2,
    toNat_ofNat_cast hfromServices.1 hfromServices.2, toNat_ofNat_cast hnonce.1 hnonce.2,
    Int.toNat_of_nonneg hrecvPort.1, Int.toNat_of_nonneg hfromPort.1] at hread
  exact hread

/-- The lookup of the first reader fails. -/
lemma decodeVersion_eq (data : Bytes) :
    decodeVersion data = .error (.attributeError "type object 'Serializer' has no attribute 'read_int32'") := rfl

end MessageCodec

/-! What the message class reads. -/
namespace VersionFields
open Reader MessageCodec

/-- The port with its bytes the other way round. -/
def swapPort (port : ℤ) : ℤ := port % 256 * 256 + port / 256

lemma swapPort_eq_iff {port : ℤ} : swapPort port = port ↔ SymmetricPort port := by
  unfold swapPort SymmetricPort
  omega

lemma beBytes_two {port : ℕ} (h : port < 2 ^ 16) : beBytes 2 port = leBytes 2 (port % 256 * 256 + port / 256) := by
  have hsmall : port / 256 < 256 := by omega
  have hlow : (port % 256 * 256 + port / 256) % 256 = port / 256 % 256 := by omega
  have hhigh : (port % 256 * 256 + port / 256) / 256 = port % 256 := by omega
  have hmod := Nat.mod_mod port 256
  simp only [beBytes, leBytes, hlow, hhigh, hmod, List.reverse_cons, List.reverse_nil, List.nil_append,
    List.singleton_append]

/-- The message that the class reads. -/
def message (f : VersionFields) : VersionMessage where
  version := UInt32.ofNat f.version.toNat
  services := UInt64.ofNat f.services.toNat
  timestamp := UInt64.ofNat f.timestamp.toNat
  addrRecvServices := UInt64.ofNat f.addrRecvServices.toNat
  addrRecvIp := f.addrRecvIp
  addrRecvPort := UInt16.ofNat (swapPort f.addrRecvPort).toNat
  addrFromServices := UInt64.ofNat f.addrFromServices.toNat
  addrFromIp := f.addrFromIp
  addrFromPort := UInt16.ofNat (swapPort f.addrFromPort).toNat
  nonce := UInt64.ofNat f.nonce.toNat
  userAgent := f.userAgent
  startHeight := UInt32.ofNat f.startHeight.toNat
  relay := f.relay
  network := ""
  nodeId := ""
  bestBlockHash := ""

lemma readUint32_nonneg {value : ℤ} (hlower : 0 ≤ value) (hupper : value < 2 ^ 31) :
    Decodes readUint32 (leBytes 4 (value % 256 ^ 4).toNat) (UInt32.ofNat value.toNat) := by
  have hread := readUint32_decodes (UInt32.ofNat value.toNat)
  have hmod : value % 256 ^ 4 = value := Int.emod_eq_of_lt hlower (by omega)
  rw [writeUint32, UInt32.toNat_ofNat_of_lt' (show value.toNat < 2 ^ 32 by omega)] at hread
  rw [hmod]
  exact hread

lemma readUint64_nonneg {value : ℤ} (hlower : 0 ≤ value) (hupper : value < 2 ^ 63) :
    Decodes readUint64 (leBytes 8 (value % 256 ^ 8).toNat) (UInt64.ofNat value.toNat) := by
  have hmod : value % 256 ^ 8 = value := Int.emod_eq_of_lt hlower (by omega)
  rw [hmod]
  exact readUint64_ofNat (by omega)

lemma swapPort_bounds {port : ℤ} (hlower : 0 ≤ port) (hupper : port < 2 ^ 16) :
    0 ≤ swapPort port ∧ swapPort port < 2 ^ 16 := by
  unfold swapPort
  omega

lemma readUint16_swap {port : ℤ} (hlower : 0 ≤ port) (hupper : port < 2 ^ 16) :
    Decodes readUint16 (beBytes 2 port.toNat) (UInt16.ofNat (swapPort port).toNat) := by
  obtain ⟨hswapLower, hswapUpper⟩ := swapPort_bounds hlower hupper
  have hread := readUint16_decodes (UInt16.ofNat (swapPort port).toNat)
  have hvalue : port.toNat % 256 * 256 + port.toNat / 256 = (swapPort port).toNat := by
    unfold swapPort
    omega
  rw [writeUint16, UInt16.toNat_ofNat_of_lt' (show (swapPort port).toNat < 2 ^ 16 by omega), ← hvalue] at hread
  rw [beBytes_two (by omega)]
  rw [hvalue] at hread ⊢
  exact hread

/-- The metadata after the flag is absent. -/
lemma readOptionalString_last : DecodesLast readOptionalString [] "" := by
  intro pre
  rw [readOptionalString, if_neg (by simp)]
  simp

/-- Two readers at the end of the data. -/
lemma bind_at_end {α β : Type} {r : Reader α} {g : α → Reader β} {a : α} {b : β} (hr : DecodesLast r [] a)
    (hg : DecodesLast (g a) [] b) : DecodesLast (r >>= g) [] b := by
  intro pre
  have hlength : (pre ++ ([] : Bytes)).length = pre.length := by rw [List.append_nil]
  change Reader.bind r g _ _ = _
  rw [Reader.bind, hr pre]
  simp only [hlength]
  exact (hg pre).trans (by rw [hlength])

lemma deserialize_payload {f : VersionFields} (h : f.InRange) (hn : f.NonNegative) :
    DecodesLast VersionMessage.deserialize (payload f) f.message := by
  obtain ⟨hversion, hservices, htimestamp, hrecvServices, hrecvIp, hrecvPort, hfromServices, hfromIp, hfromPort,
    hnonce, hagent, hheight⟩ := h
  have hreadVersion := readUint32_nonneg hn.version hversion.2
  have hreadServices := @readUint64_ofNat f.services.toNat (by omega)
  have hreadTimestamp := readUint64_nonneg hn.timestamp htimestamp.2
  have hreadRecvServices := @readUint64_ofNat f.addrRecvServices.toNat (by omega)
  have hreadRecvPort := readUint16_swap hrecvPort.1 hrecvPort.2
  have hreadFromServices := @readUint64_ofNat f.addrFromServices.toNat (by omega)
  have hreadFromPort := readUint16_swap hfromPort.1 hfromPort.2
  have hreadNonce := @readUint64_ofNat f.nonce.toNat (by omega)
  have hreadHeight := readUint32_nonneg hn.startHeight hheight.2
  unfold VersionMessage.deserialize payload
  refine hreadVersion.bind_last (hreadServices.bind_last (hreadTimestamp.bind_last (hreadRecvServices.bind_last
    ((readBytes_decodes hrecvIp).bind_last (hreadRecvPort.bind_last (hreadFromServices.bind_last
    ((readBytes_decodes hfromIp).bind_last (hreadFromPort.bind_last (hreadNonce.bind_last
    ((readString_decodes hagent).bind_last (hreadHeight.bind_last ?_)))))))))))
  rw [← List.append_nil (writeFlag f.relay)]
  exact (readFlag_decodes f.relay).bind_last (bind_at_end readOptionalString_last
    (bind_at_end readOptionalString_last (readOptionalString_last.map
      (g := VersionMessage.mk f.message.version f.message.services f.message.timestamp
        f.message.addrRecvServices f.message.addrRecvIp f.message.addrRecvPort f.message.addrFromServices
        f.message.addrFromIp f.message.addrFromPort f.message.nonce f.message.userAgent f.message.startHeight
        f.message.relay "" ""))))

/-- The class reads every field but the ports, and these with their bytes the other way round. -/
lemma fields_message {f : VersionFields} (h : f.InRange) (hn : f.NonNegative) :
    f.message.fields =
      { f with addrRecvPort := swapPort f.addrRecvPort, addrFromPort := swapPort f.addrFromPort } := by
  obtain ⟨hversion, hservices, htimestamp, hrecvServices, -, hrecvPort, hfromServices, -, hfromPort, hnonce, -,
    hheight⟩ := h
  obtain ⟨hversionNonneg, htimestampNonneg, hheightNonneg⟩ := hn
  obtain ⟨hrecvLower, hrecvUpper⟩ := swapPort_bounds hrecvPort.1 hrecvPort.2
  obtain ⟨hfromLower, hfromUpper⟩ := swapPort_bounds hfromPort.1 hfromPort.2
  simp only [VersionMessage.fields, message, toNat_ofNat_cast hservices.1 hservices.2,
    toNat_ofNat_cast htimestampNonneg (show f.timestamp < 2 ^ 64 by omega),
    toNat_ofNat_cast hrecvServices.1 hrecvServices.2, toNat_ofNat_cast hfromServices.1 hfromServices.2,
    toNat_ofNat_cast hnonce.1 hnonce.2,
    UInt32.toNat_ofNat_of_lt' (show f.version.toNat < 2 ^ 32 by omega),
    UInt32.toNat_ofNat_of_lt' (show f.startHeight.toNat < 2 ^ 32 by omega),
    UInt16.toNat_ofNat_of_lt' (show (swapPort f.addrRecvPort).toNat < 2 ^ 16 by omega),
    UInt16.toNat_ofNat_of_lt' (show (swapPort f.addrFromPort).toNat < 2 ^ 16 by omega),
    Int.toNat_of_nonneg hversionNonneg, Int.toNat_of_nonneg hheightNonneg, Int.toNat_of_nonneg hrecvLower,
    Int.toNat_of_nonneg hfromLower]

lemma sameInMessage_iff {f : VersionFields} (h : f.InRange) (hn : f.NonNegative) :
    f.SameInMessage ↔ SymmetricPort f.addrRecvPort ∧ SymmetricPort f.addrFromPort := by
  have hread := (deserialize_payload h hn).whole
  have hfields := fields_message h hn
  rw [← swapPort_eq_iff, ← swapPort_eq_iff]
  constructor
  · rintro ⟨encoded, hencoded, m, offset, hm, hsame⟩
    rw [encodeVersion_ok h, Except.ok.injEq] at hencoded
    rw [← hencoded, hread] at hm
    obtain rfl := (Prod.mk.inj (Except.ok.inj hm)).1
    rw [hfields] at hsame
    exact ⟨congrArg addrRecvPort hsame, congrArg addrFromPort hsame⟩
  · rintro ⟨hrecv, hfrom⟩
    refine ⟨payload f, encodeVersion_ok h, f.message, (payload f).length, hread, ?_⟩
    rw [hfields, hrecv, hfrom]

lemma not_roundTrip (f : VersionFields) : ¬ f.RoundTrip := by
  rintro ⟨encoded, -, hdecoded⟩
  rw [decodeVersion_eq] at hdecoded
  cases hdecoded

/-- `decode_version` returns no fields at all, and the message class reads the same fields exactly
where both ports are symmetric. -/
theorem version_codecs {f : VersionFields} (h : f.InRange) :
    ¬ f.RoundTrip ∧ ¬ (f.RoundTrip ∧ (f.NonNegative → f.SameInMessage)) ∧
      (f.NonNegative → (f.SameInMessage ↔ SymmetricPort f.addrRecvPort ∧ SymmetricPort f.addrFromPort)) := by
  refine ⟨not_roundTrip f, ?_, sameInMessage_iff h⟩
  intro hboth
  exact not_roundTrip f hboth.1

/-! A node that greets another one. -/
namespace VersionExample

def greeting : VersionFields where
  version := 70015
  services := 1
  timestamp := 1700000000
  addrRecvServices := 1
  addrRecvIp := List.replicate 16 0
  addrRecvPort := 8333
  addrFromServices := 1
  addrFromIp := List.replicate 16 0
  addrFromPort := 8333
  nonce := 7
  userAgent := "/BerzCoin:1.0/"
  startHeight := 100

lemma inRange : greeting.InRange := by
  have hagent : (encodeUtf8 greeting.userAgent).length < 2 ^ 64 := by decide +kernel
  constructor <;> first | exact hagent | decide

lemma nonNegative : greeting.NonNegative := by
  constructor <;> decide

end VersionExample

open VersionExample in
theorem version_codecs_greeting :
    ¬ greeting.RoundTrip ∧ ¬ (greeting.RoundTrip ∧ (greeting.NonNegative → greeting.SameInMessage)) ∧
      (greeting.NonNegative →
        (greeting.SameInMessage ↔
          SymmetricPort greeting.addrRecvPort ∧ SymmetricPort greeting.addrFromPort)) :=
  version_codecs inRange

open VersionExample in
/-- The greeting is not decoded, and it comes out of the message class with port 36128. -/
theorem greeting_not_decoded :
    greeting.InRange ∧ greeting.NonNegative ∧ ¬ greeting.RoundTrip ∧ ¬ greeting.SameInMessage ∧
      ∃ encoded, encodeVersion greeting = .ok encoded ∧
        decodeVersion encoded = .error (.attributeError "type object 'Serializer' has no attribute 'read_int32'") ∧
        ∃ m offset, VersionMessage.deserialize encoded 0 = .ok (m, offset) ∧ m.addrRecvPort = 36128 := by
  have hport : greeting.message.addrRecvPort = 36128 := by decide
  refine ⟨inRange, nonNegative, not_roundTrip greeting, ?_, payload greeting, encodeVersion_ok inRange,
    decodeVersion_eq _, greeting.message, _, (deserialize_payload inRange nonNegative).whole, hport⟩
  intro hsame
  exact absurd ((sameInMessage_iff inRange nonNegative).1 hsame).1 (by decide)

end VersionFields
end BerzCoin
