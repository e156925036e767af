import BerzCoin.ProtocolMessages

/-! Every message is decoded from its encoding. -/
namespace BerzCoin
open Serializer

/-- A reader that inverts an encoding at the end of the input. -/
def Reader.DecodesLast {α : Type} (r : Reader α) (encoded : Bytes) (a : α) : Prop :=
  ∀ pre : Bytes, r (pre ++ encoded) pre.length = .ok (a, (pre ++ encoded).length)

section last
variable {α β : Type} {r : Reader α} {f : α → Reader β} {x y : Bytes} {a : α} {b : β}

lemma Reader.DecodesLast.whole (h : Reader.DecodesLast r x a) : r x 0 = .ok (a, x.length) := h []

lemma Reader.Decodes.last (h : Reader.Decodes r x a) : Reader.DecodesLast r x a := by
  intro pre
  have hx := h pre []
  simpa using hx

lemma Reader.Decodes.bind_last (hr : Reader.Decodes r x a) (hf : Reader.DecodesLast (f a) y b) :
    Reader.DecodesLast (r >>= f) (x ++ y) b := by
  intro pre
  have hx := hr pre y
  have hy := hf (pre ++ x)
  simp only [List.append_assoc, List.length_append] at hx hy ⊢
  change Reader.bind r f _ _ = _
  rw [Reader.bind, hx]
  exact hy

lemma Reader.DecodesLast.map {g : α → β} (hr : Reader.DecodesLast r x a) :
    Reader.DecodesLast (r >>= fun v => pure (g v)) x (g a) := by
  intro pre
  change Reader.bind r _ _ _ = _
  rw [Reader.bind, hr pre]
  rfl

end last

namespace Serializer
open Reader

lemma readUint8_decodes (v : UInt8) : Decodes readUint8 (writeUint8 v) v := by
  have h : v.toNat < 256 ^ 1 := v.toNat_lt
  simpa [readUint8, writeUint8] using (unpackFrom_decodes h).map (g := UInt8.ofNat)

lemma readUint16_decodes (v : UInt16) : Decodes readUint16 (writeUint16 v) v := by
  have h : v.toNat < 256 ^ 2 := v.toNat_lt
  simpa [readUint16, writeUint16] using (unpackFrom_decodes h).map (g := UInt16.ofNat)

lemma readFlag_decodes (flag : Bool) : Decodes readFlag (writeFlag flag) flag := by
  have h := (readUint8_decodes (if flag then 1 else 0)).map (g := fun v => decide (v ≠ 0))
  cases flag <;> exact h

lemma decodeUtf8_encodeUtf8 (s : String) : decodeUtf8 (encodeUtf8 s) = .ok s := by
  have hbytes : (⟨(encodeUtf8 s).toArray⟩ : ByteArray) = s.toByteArray := by
    simp [encodeUtf8]
  rw [decodeUtf8, hbytes, String.fromUTF8?, dif_pos s.isValidUTF8]
  rfl

lemma readString_decodes {s : String} (h : (encodeUtf8 s).length < 2 ^ 64) :
    Decodes readString (writeString s) s := by
  intro pre post
  have hbytes := readVarBytes_decodes h pre post
  unfold readString writeString
  rw [hbytes]
  simp only [decodeUtf8_encodeUtf8, Except.map]

lemma writeBytes_ne_nil (data : Bytes) : writeBytes data ≠ [] := by
  unfold writeBytes writeVarint
  split_ifs <;> simp [leBytes]

lemma readOptionalString_decodes {s : String} (h : (encodeUtf8 s).length < 2 ^ 64) :
    Decodes readOptionalString (writeString s) s := by
  intro pre post
  have hpos := List.length_pos_iff.2 (writeBytes_ne_nil (encodeUtf8 s))
  have hlt : pre.length < (pre ++ (writeString s ++ post)).length := by
    simp only [List.length_append, writeString]
    omega
  rw [readOptionalString, if_pos hlt]
  exact readString_decodes h pre post

lemma readList_decodes {α : Type} {read : Reader α} {write : α → Bytes} {values : List α}
    (hcount : values.length < 2 ^ 64) (h : ∀ a ∈ values, Decodes read (write a) a) :
    Decodes (readList read) (writeList write values) values :=
  (readVarint_decodes hcount).bind (Decodes.many values h)

end Serializer

/-! The values that can be written: a fixed-size field has its size, a length fits its prefix. -/

/-- A string with its length prefix. -/
def Encodable (s : String) : Prop := (encodeUtf8 s).length < 2 ^ 64

structure VersionMessage.InRange (m : VersionMessage) : Prop where
  addrRecvIp : m.addrRecvIp.length = 16
  addrFromIp : m.addrFromIp.length = 16
  userAgent : Encodable m.userAgent
  network : Encodable m.network
  nodeId : Encodable m.nodeId
  bestBlockHash : Encodable m.bestBlockHash

/-- A block locator with the hash that ends it. -/
structure LocatorInRange (locator : List Bytes) (hashStop : Bytes) : Prop where
  count : locator.length < 2 ^ 64
  hashes : ∀ hash ∈ locator, hash.length = 32
  hashStop : hashStop.length = 32

structure GetHeadersMessage.InRange (m : GetHeadersMessage) : Prop where
  hashCount : m.hashCount = m.blockLocatorHashes.length
  locator : LocatorInRange m.blockLocatorHashes m.hashStop

structure InventoryInRange (inventory : List (UInt32 × Bytes)) : Prop where
  count : inventory.length < 2 ^ 64
  hashes : ∀ item ∈ inventory, item.2.length = 32

/-- All four keys are present. -/
structure PeerAddress.InRange (addr : PeerAddress) : Prop where
  time : addr.time.isSome
  services : addr.services.isSome
  ip : ∃ ip, addr.ip = some ip ∧ ip.length = 16
  port : addr.port.isSome

structure AddrMessage.InRange (m : AddrMessage) : Prop where
  count : m.addresses.length < 2 ^ 64
  addresses : ∀ addr ∈ m.addresses, addr.InRange

structure RejectMessage.InRange (m : RejectMessage) : Prop where
  message : Encodable m.message
  reason : Encodable m.reason

structure CmpctBlockMessage.InRange (m : CmpctBlockMessage) : Prop where
  header : m.header.length = 80
  shortidCount : m.shortids.length < 2 ^ 64
  shortids : ∀ shortid ∈ m.shortids, shortid < 2 ^ 48
  prefilledCount : m.prefilledTxn.length < 2 ^ 64
  prefilledTxn : ∀ p ∈ m.prefilledTxn, p.1 < 2 ^ 64 ∧ p.2.length < 2 ^ 64

structure GetBlockTxnMessage.InRange (m : GetBlockTxnMessage) : Prop where
  blockHash : m.blockHash.length = 32
  count : m.indexes.length < 2 ^ 64
  indexes : ∀ index ∈ m.indexes, index < 2 ^ 64

structure BlockTxnMessage.InRange (m : BlockTxnMessage) : Prop where
  blockHash : m.blockHash.length = 32
  count : m.transactions.length < 2 ^ 64
  transactions : ∀ tx ∈ m.transactions, tx.length < 2 ^ 64

structure JoinRequestMessage.InRange (m : JoinRequestMessage) : Prop where
  nodeId : Encodable m.nodeId
  pubkey : Encodable m.pubkey

structure JoinAttestMessage.InRange (m : JoinAttestMessage) : Prop where
  candidateNodeId : Encodable m.candidateNodeId
  verifierNodeId : Encodable m.verifierNodeId
  verifierPubkey : Encodable m.verifierPubkey
  signature : m.signature.length < 2 ^ 64

structure JoinResultMessage.InRange (m : JoinResultMessage) : Prop where
  code : m.code < 256
  reason : Encodable m.reason

def Message.InRange : Message → Prop
  | version m => m.InRange
  | getheaders m => m.InRange
  | getblocks m => LocatorInRange m.blockLocatorHashes m.hashStop
  | inv m => InventoryInRange m.inventory
  | getdata m => InventoryInRange m.inventory
  | addr m => m.InRange
  | reject m => m.InRange
  | cmpctblock m => m.InRange
  | getblocktxn m => m.InRange
  | blocktxn m => m.InRange
  | joinRequest m => m.InRange
  | joinChallenge m => m.challenge.length < 2 ^ 64
  | joinAttest m => m.InRange
  | joinResult m => m.InRange
  | block _ | tx _ | ping _ | pong _ | sendcmpct _ => True

open Reader

lemma VersionMessage.deserialize_decodes {m : VersionMessage} (h : m.InRange) :
    Decodes deserialize m.serialize m := by
  unfold deserialize serialize
  exact (readUint32_decodes _).bind ((readUint64_decodes _).bind ((readUint64_decodes _).bind
    ((readUint64_decodes _).bind ((readBytes_decodes h.addrRecvIp).bind ((readUint16_decodes _).bind
    ((readUint64_decodes _).bind ((readBytes_decodes h.addrFromIp).bind ((readUint16_decodes _).bind
    ((readUint64_decodes _).bind ((readString_decodes h.userAgent).bind ((readUint32_decodes _).bind
    ((readFlag_decodes _).bind ((readOptionalString_decodes h.network).bind
    ((readOptionalString_decodes h.nodeId).bind ((readOptionalString_decodes h.bestBlockHash).map
      (g := VersionMessage.mk m.version m.services m.timestamp m.addrRecvServices m.addrRecvIp
        m.addrRecvPort m.addrFromServices m.addrFromIp m.addrFromPort m.nonce m.userAgent
        m.startHeight m.relay m.network m.nodeId))))))))))))))))

lemma GetHeadersMessage.deserialize_decodes {m : GetHeadersMessage} (h : m.InRange) :
    Decodes deserialize m.serialize m := by
  obtain ⟨version, hashCount, locator, hashStop⟩ := m
  obtain ⟨hcount, hlocator⟩ := h
  simp only at hcount hlocator
  subst hcount
  have hhashes := @Decodes.many _ (readBytes 32) id locator
    fun hash hmem => readBytes_decodes (hlocator.hashes hash hmem)
  unfold deserialize serialize writeList
  simp only [List.append_assoc]
  exact (readUint32_decodes _).bind ((readVarint_decodes hlocator.count).bind (hhashes.bind
    ((readBytes_decodes hlocator.hashStop).map
      (g := GetHeadersMessage.mk version locator.length locator))))

lemma GetBlocksMessage.deserialize_decodes {m : GetBlocksMessage}
    (h : LocatorInRange m.blockLocatorHashes m.hashStop) : Decodes deserialize m.serialize m := by
  have hlocator := @readList_decodes _ (readBytes 32) id _ h.count
    fun hash hmem => readBytes_decodes (h.hashes hash hmem)
  unfold deserialize serialize
  exact (readUint32_decodes _).bind (hlocator.bind ((readBytes_decodes h.hashStop).map
    (g := GetBlocksMessage.mk m.version m.blockLocatorHashes)))

lemma readInventory_decodes {inventory : List (UInt32 × Bytes)} (h : InventoryInRange inventory) :
    Decodes readInventory (writeInventory inventory) inventory := by
  refine readList_decodes h.count ?_
  intro item hmem
  exact (readUint32_decodes _).bind ((readBytes_decodes (h.hashes item hmem)).map
    (g := Prod.mk item.1))

lemma PeerAddress.deserialize_decodes {addr : PeerAddress} (h : addr.InRange) :
    Decodes deserialize addr.serialize addr := by
  obtain ⟨htime, hservices, ⟨ip, hip, hlength⟩, hport⟩ := h
  obtain ⟨time, htime⟩ := Option.isSome_iff_exists.1 htime
  obtain ⟨services, hservices⟩ := Option.isSome_iff_exists.1 hservices
  obtain ⟨port, hport⟩ := Option.isSome_iff_exists.1 hport
  obtain rfl : addr = ⟨some time, some services, some ip, some port⟩ := by
    cases addr
    simp_all
  exact (readUint32_decodes _).bind ((readUint64_decodes _).bind ((readBytes_decodes hlength).bind
    ((readUint16_decodes _).map
      (g := fun port => PeerAddress.mk (some time) (some services) (some ip) (some port)))))

lemma SendCmpctMessage.deserialize_decodes (m : SendCmpctMessage) :
    Decodes deserialize m.serialize m :=
  (readFlag_decodes _).bind ((readUint64_decodes _).map (g := SendCmpctMessage.mk m.announce))

lemma CmpctBlockMessage.serialize_ok {m : CmpctBlockMessage} (h : m.InRange) :
    m.serialize = .ok (m.header ++ (writeUint64 m.nonce ++ (writeList (leBytes 6) m.shortids ++
      writeList (fun p => writeVarint p.1 ++ writeBytes p.2) m.prefilledTxn))) := by
  have hshort : ¬ m.shortids.any (0xFFFFFFFFFFFF < ·) = true := by
    simp only [List.any_eq_true, decide_eq_true_eq, not_exists, not_and, not_lt]
    intro shortid hmem
    have := h.shortids shortid hmem
    omega
  rw [serialize, if_neg (not_not.2 h.header), if_neg hshort]

lemma CmpctBlockMessage.deserialize_decodes {m : CmpctBlockMessage} (h : m.InRange) :
    Decodes deserialize (m.header ++ (writeUint64 m.nonce ++ (writeList (leBytes 6) m.shortids ++
      writeList (fun p => writeVarint p.1 ++ writeBytes p.2) m.prefilledTxn))) m := by
  have hshortids : Decodes (readList do
      let shortidBytes ← readBytes 6
      pure (leNat shortidBytes)) (writeList (leBytes 6) m.shortids) m.shortids := by
    refine readList_decodes h.shortidCount ?_
    intro shortid hmem
    have hread := (readBytes_decodes (leBytes_length 6 shortid)).map (g := leNat)
    rwa [leNat_leBytes_of_lt (h.shortids shortid hmem)] at hread
  have hprefilled : Decodes (readList do
      let index ← readVarint
      let txBytes ← readVarBytes
      pure (index, txBytes)) (writeList (fun p => writeVarint p.1 ++ writeBytes p.2) m.prefilledTxn)
      m.prefilledTxn := by
    refine readList_decodes h.prefilledCount ?_
    intro p hmem
    obtain ⟨hindex, hlength⟩ := h.prefilledTxn p hmem
    exact (readVarint_decodes hindex).bind ((readVarBytes_decodes hlength).map (g := Prod.mk p.1))
  exact (readBytes_decodes h.header).bind ((readUint64_decodes _).bind (hshortids.bind
    (hprefilled.map (g := CmpctBlockMessage.mk m.header m.nonce m.shortids))))

lemma GetBlockTxnMessage.deserialize_decodes {m : GetBlockTxnMessage} (h : m.InRange) :
    Decodes deserialize m.serialize m := by
  have hindexes := @readList_decodes _ readVarint writeVarint _ h.count
    fun index hmem => readVarint_decodes (h.indexes index hmem)
  exact (readBytes_decodes h.blockHash).bind (hindexes.map (g := GetBlockTxnMessage.mk m.blockHash))

lemma BlockTxnMessage.deserialize_decodes {m : BlockTxnMessage} (h : m.InRange) :
    Decodes deserialize m.serialize m := by
  have htxs := @readList_decodes _ readVarBytes writeBytes _ h.count
    fun tx hmem => readVarBytes_decodes (h.transactions tx hmem)
  exact (readBytes_decodes h.blockHash).bind (htxs.map (g := BlockTxnMessage.mk m.blockHash))

lemma JoinRequestMessage.deserialize_decodes {m : JoinRequestMessage} (h : m.InRange) :
    Decodes deserialize m.serialize m :=
  (readString_decodes h.nodeId).bind ((readString_decodes h.pubkey).bind
    ((readUint16_decodes _).bind ((readUint64_decodes _).bind ((readUint64_decodes _).map
      (g := JoinRequestMessage.mk m.nodeId m.pubkey m.listenPort m.nonce)))))

lemma JoinChallengeMessage.deserialize_decodes {m : JoinChallengeMessage}
    (h : m.challenge.length < 2 ^ 64) : Decodes deserialize m.serialize m :=
  (readUint64_decodes _).bind ((readVarBytes_decodes h).bind ((readUint64_decodes _).map
    (g := JoinChallengeMessage.mk m.challengeId m.challenge)))

lemma JoinAttestMessage.deserialize_decodes {m : JoinAttestMessage} (h : m.InRange) :
    Decodes deserialize m.serialize m :=
  (readString_decodes h.candidateNodeId).bind ((readString_decodes h.verifierNodeId).bind
    ((readString_decodes h.verifierPubkey).bind ((readUint64_decodes _).bind
      ((readVarBytes_decodes h.signature).bind ((readUint64_decodes _).map
        (g := JoinAttestMessage.mk m.candidateNodeId m.verifierNodeId m.verifierPubkey m.challengeId
          m.signature))))))

lemma JoinResultMessage.deserialize_decodes {m : JoinResultMessage} (h : m.InRange) :
    Decodes deserialize m.serialize m := by
  have hcode : (UInt8.ofNat (m.code &&& 0xFF)).toNat = m.code := by
    have hmask : m.code &&& 0xFF = m.code % 256 := Nat.and_two_pow_sub_one_eq_mod m.code 8
    rw [hmask, Nat.mod_eq_of_lt h.code, UInt8.toNat_ofNat']
    exact Nat.mod_eq_of_lt h.code
  suffices hdecodes : Decodes deserialize m.serialize
      { m with code := (UInt8.ofNat (m.code &&& 0xFF)).toNat } by
    rwa [hcode] at hdecodes
  exact (readFlag_decodes _).bind ((readUint8_decodes _).bind ((readString_decodes h.reason).bind
    ((readUint16_decodes _).bind ((readUint16_decodes _).map (g := JoinResultMessage.mk m.accepted
      (UInt8.ofNat (m.code &&& 0xFF)).toNat m.reason m.requiredVotes)))))

/-- The data at the end has no length of its own. -/
lemma RejectMessage.deserialize_decodes {m : RejectMessage} (h : m.InRange) :
    DecodesLast deserialize m.serialize m := by
  refine (readString_decodes h.message).bind_last ((readUint8_decodes _).bind_last
    ((readString_decodes h.reason).bind_last ?_))
  intro pre
  simp only [restFrom, List.drop_left]

namespace Message

/-- A message that can be written is read back from its bytes. -/
theorem deserialize_serialize (m : Message) (h : m.InRange) :
    ∃ data, m.serialize = .ok data ∧ m.deserializeLike data 0 = .ok (m, data.length) := by
  cases m with
  | version m => exact ⟨_, rfl, ((VersionMessage.deserialize_decodes h).map (g := version)).last.whole⟩
  | getheaders m =>
    exact ⟨_, rfl, ((GetHeadersMessage.deserialize_decodes h).map (g := getheaders)).last.whole⟩
  | getblocks m =>
    exact ⟨_, rfl, ((GetBlocksMessage.deserialize_decodes h).map (g := getblocks)).last.whole⟩
  | inv m =>
    have hinv := (readInventory_decodes h).map (g := InvMessage.mk)
    exact ⟨_, rfl, (hinv.map (g := inv)).last.whole⟩
  | getdata m =>
    have hgetdata := (readInventory_decodes h).map (g := GetDataMessage.mk)
    exact ⟨_, rfl, (hgetdata.map (g := getdata)).last.whole⟩
  | block m => exact ⟨_, rfl, rfl⟩
  | tx m => exact ⟨_, rfl, rfl⟩
  | addr m =>
    have haddr := (readList_decodes h.count fun addr hmem =>
      PeerAddress.deserialize_decodes (h.addresses addr hmem)).map (g := AddrMessage.mk)
    exact ⟨_, rfl, (haddr.map (g := addr)).last.whole⟩
  | ping m => exact ⟨_, rfl, (((readUint64_decodes _).map (g := PingMessage.mk)).map (g := ping)).last.whole⟩
  | pong m => exact ⟨_, rfl, (((readUint64_decodes _).map (g := PongMessage.mk)).map (g := pong)).last.whole⟩
  | reject m => exact ⟨_, rfl, ((RejectMessage.deserialize_decodes h).map (g := reject)).whole⟩
  | sendcmpct m =>
    exact ⟨_, rfl, ((SendCmpctMessage.deserialize_decodes m).map (g := sendcmpct)).last.whole⟩
  | cmpctblock m =>
    exact ⟨_, CmpctBlockMessage.serialize_ok h,
      ((CmpctBlockMessage.deserialize_decodes h).map (g := cmpctblock)).last.whole⟩
  | getblocktxn m =>
    exact ⟨_, rfl, ((GetBlockTxnMessage.deserialize_decodes h).map (g := getblocktxn)).last.whole⟩
  | blocktxn m =>
    exact ⟨_, rfl, ((BlockTxnMessage.deserialize_decodes h).map (g := blocktxn)).last.whole⟩
  | joinRequest m =>
    exact ⟨_, rfl, ((JoinRequestMessage.deserialize_decodes h).map (g := joinRequest)).last.whole⟩
  | joinChallenge m =>
    exact ⟨_, rfl, ((JoinChallengeMessage.deserialize_decodes h).map (g := joinChallenge)).last.whole⟩
  | joinAttest m =>
    exact ⟨_, rfl, ((JoinAttestMessage.deserialize_decodes h).map (g := joinAttest)).last.whole⟩
  | joinResult m =>
    exact ⟨_, rfl, ((JoinResultMessage.deserialize_decodes h).map (g := joinResult)).last.whole⟩

/-- A compact block with one short id and a prefilled transaction. -/
theorem deserialize_serialize_cmpctblock :
    ∃ data, (cmpctblock ⟨List.replicate 80 1, 7, [0xFFFFFFFFFFFF], [(300, [1, 2])]⟩).serialize = .ok data ∧
      (cmpctblock {}).deserializeLike data 0 =
        .ok (cmpctblock ⟨List.replicate 80 1, 7, [0xFFFFFFFFFFFF], [(300, [1, 2])]⟩, data.length) :=
  deserialize_serialize (cmpctblock ⟨List.replicate 80 1, 7, [0xFFFFFFFFFFFF], [(300, [1, 2])]⟩)
    { header := by decide
      shortidCount := by decide
      shortids := by decide
      prefilledCount := by decide
      prefilledTxn := by decide }

end Message
end BerzCoin
