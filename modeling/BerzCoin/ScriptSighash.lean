import BerzCoin.CoreTransactionCodec
import BerzCoin.ScriptSigchecks

/-! What the digests of `sigchecks` commit to. The hash function may collide elsewhere: it is only
asked to tell the byte strings apart that are hashed for the two digests. -/
namespace BerzCoin

namespace Reader.Decodes
variable {α β : Type} {r : Reader α} {x y p q : Bytes} {a b : α}

/-- Two byte strings that start with an encoding start with the same one. -/
lemma append_inj (hx : Reader.Decodes r x a) (hy : Reader.Decodes r y b) (h : x ++ p = y ++ q) :
    a = b ∧ x = y ∧ p = q := by
  have hread := hx [] p
  have hread' := hy [] q
  simp only [List.nil_append, List.length_nil, Nat.zero_add, h] at hread hread'
  rw [hread, Except.ok.injEq, Prod.mk.injEq] at hread'
  obtain ⟨hab, hlen⟩ := hread'
  obtain ⟨hxy, hpq⟩ := List.append_inj h hlen
  exact ⟨hab, hxy, hpq⟩

/-- Encodings that are not empty need no count. -/
lemma flatMap_inj {enc : α → Bytes} {as bs : List α} (has : ∀ a ∈ as, Reader.Decodes r (enc a) a)
    (hbs : ∀ b ∈ bs, Reader.Decodes r (enc b) b) (hne : ∀ a, enc a ≠ [])
    (h : as.flatMap enc = bs.flatMap enc) : as = bs := by
  induction as generalizing bs with
  | nil =>
    cases bs with
    | nil => rfl
    | cons b bs => simp [hne] at h
  | cons a as ih =>
    cases bs with
    | nil => simp [hne] at h
    | cons b bs =>
      simp only [List.flatMap_cons] at h
      obtain ⟨rfl, -, hrest⟩ := append_inj (has a List.mem_cons_self) (hbs b List.mem_cons_self) h
      rw [ih (fun a' ha' => has a' (List.mem_cons_of_mem _ ha'))
        (fun b' hb' => hbs b' (List.mem_cons_of_mem _ hb')) hrest]

end Reader.Decodes

namespace Script
open Serializer

/-! The lists of fields that are hashed in one piece. -/
section fields
variable {vin vin' : List TxIn} {vout vout' : List TxOut}

/-- The output that an input spends. -/
def spentOutpoint (txin : TxIn) : Bytes × UInt32 := (txin.prevTxHash, txin.prevTxIndex)

lemma outpoint_decodes {p : Bytes × UInt32} (h : p.1.length = 32) :
    Reader.Decodes (do let hash ← readBytes 32; let index ← readUint32; pure (hash, index))
      (p.1 ++ writeUint32 p.2) p :=
  (readBytes_decodes h).bind ((readUint32_decodes p.2).map (g := Prod.mk p.1))

lemma prevoutsData_inj (h : ∀ txin ∈ vin, txin.prevTxHash.length = 32)
    (h' : ∀ txin ∈ vin', txin.prevTxHash.length = 32) (heq : prevoutsData vin = prevoutsData vin') :
    vin.map spentOutpoint = vin'.map spentOutpoint := by
  have hdata (vin : List TxIn) : prevoutsData vin =
      (vin.map spentOutpoint).flatMap fun p => p.1 ++ writeUint32 p.2 := by
    rw [List.flatMap_map]
    rfl
  rw [hdata, hdata] at heq
  have hdecodes {vin : List TxIn} (h : ∀ txin ∈ vin, txin.prevTxHash.length = 32)
      (p : Bytes × UInt32) (hp : p ∈ vin.map spentOutpoint) :
      Reader.Decodes (do let hash ← readBytes 32; let index ← readUint32; pure (hash, index))
        (p.1 ++ writeUint32 p.2) p := by
    obtain ⟨txin, hmem, rfl⟩ := List.mem_map.1 hp
    exact outpoint_decodes (h txin hmem)
  refine Reader.Decodes.flatMap_inj (hdecodes h) (hdecodes h') ?_ heq
  intro p hnil
  have hlen := congrArg List.length hnil
  simp [writeUint32] at hlen

lemma sequencesData_inj (heq : sequencesData vin = sequencesData vin') :
    vin.map TxIn.sequence = vin'.map TxIn.sequence := by
  have hdata (vin : List TxIn) : sequencesData vin = (vin.map TxIn.sequence).flatMap writeUint32 := by
    rw [List.flatMap_map]
    rfl
  rw [hdata, hdata] at heq
  refine Reader.Decodes.flatMap_inj (fun v _ => readUint32_decodes v)
    (fun v _ => readUint32_decodes v) ?_ heq
  intro v hnil
  have hlen := congrArg List.length hnil
  simp [writeUint32] at hlen

lemma txOut_serialize_ne_nil (txout : TxOut) : txout.serialize ≠ [] := by
  intro hnil
  have hlen := congrArg List.length hnil
  simp [TxOut.serialize, writeUint64] at hlen

lemma outputsData_inj (h : ∀ txout ∈ vout, txout.scriptPubkey.length < 2 ^ 64)
    (h' : ∀ txout ∈ vout', txout.scriptPubkey.length < 2 ^ 64)
    (heq : vout.flatMap TxOut.serialize = vout'.flatMap TxOut.serialize) : vout = vout' :=
  Reader.Decodes.flatMap_inj (fun txout hm => TxOut.deserialize_decodes (h txout hm))
    (fun txout hm => TxOut.deserialize_decodes (h' txout hm)) txOut_serialize_ne_nil heq

end fields

/-! `SIGHASH_ALL`. -/
section all
variable {H : Hashlib} {tx tx' : Transaction} {i i' : ℕ} {scriptCode scriptCode' : Bytes}

/-- What an ECDSA signature over all of a transaction fixes, whatever its scripts and witnesses. -/
structure SameSigned (tx tx' : Transaction) : Prop where
  version : tx.version = tx'.version
  outpoints : tx.vin.map spentOutpoint = tx'.vin.map spentOutpoint
  sequences : tx.vin.map TxIn.sequence = tx'.vin.map TxIn.sequence
  vout : tx.vout = tx'.vout
  locktime : tx.locktime = tx'.locktime

/-- An input of the copy that is signed. -/
def blankInput (txin : TxIn) : TxIn := { txin with scriptSig := [], witness := [] }

/-- The copy of the transaction that is signed under `SIGHASH_ALL`. -/
def signedCopy (tx : Transaction) (i : ℕ) (scriptCode : Bytes) : Transaction :=
  { tx with vin := tx.vin.mapIdx fun k txin =>
      if k = i then { blankInput txin with scriptSig := scriptCode } else blankInput txin }

def legacyPreimage (tx : Transaction) (i : ℕ) (scriptCode : Bytes) : Bytes :=
  (signedCopy tx i scriptCode).serialize false ++ leBytes 4 SIGHASH_ALL

lemma hasWitness_stripWitness (tx : Transaction) : tx.stripWitness.hasWitness = false := by
  simp [Transaction.hasWitness, Transaction.stripWitness]

lemma serialize_false_eq (tx : Transaction) : tx.serialize false = tx.stripWitness.serialize true := by
  simp only [Transaction.serialize, hasWitness_stripWitness, Bool.false_and, Bool.and_false]
  simp only [Transaction.stripWitness, List.length_map, List.flatMap_map]
  rfl

lemma deserialize_serialize_false (h : tx.InRange) (hvin : tx.vin ≠ []) :
    ∃ offset, Transaction.deserialize (tx.serialize false) 0 = .ok (tx.stripWitness, offset) := by
  have hmem {txin : TxIn} (hm : txin ∈ tx.stripWitness.vin) :
      ∃ orig ∈ tx.vin, txin = { orig with witness := [] } := by
    obtain ⟨orig, ho, heq⟩ := List.mem_map.1 hm
    exact ⟨orig, ho, heq.symm⟩
  have hstrip : Reader.Decodes Transaction.readShort (tx.stripWitness.serialize true)
      tx.stripWitness := by
    refine Transaction.readShort_decodes ?_ ⟨?_, ?_, h.vout, h.voutLength⟩ ?_ ?_
    · simpa [Transaction.stripWitness] using hvin
    · intro txin hm
      obtain ⟨orig, ho, rfl⟩ := hmem hm
      exact ⟨(h.vin orig ho).prevTxHash, (h.vin orig ho).scriptSig⟩
    · simpa [Transaction.stripWitness] using h.vinLength
    · intro txin hm
      obtain ⟨orig, ho, rfl⟩ := hmem hm
      exact ⟨by simp, by simp⟩
    · intro txin hm
      obtain ⟨orig, ho, rfl⟩ := hmem hm
      simp [hasWitness_stripWitness]
  have hread := hstrip [] []
  simp only [List.nil_append, List.append_nil, List.length_nil, Nat.zero_add] at hread
  rw [serialize_false_eq]
  exact ⟨_, Transaction.readShort_refines _ _ _ hread⟩

lemma legacySighash_all (h : tx.InRange) (hi : i < tx.vin.length) :
    calculateLegacySighash H tx i SIGHASH_ALL scriptCode =
      .ok (H.hash256 (legacyPreimage tx i scriptCode)) := by
  have hvin : tx.vin ≠ [] := by
    rintro hnil
    simp [hnil] at hi
  obtain ⟨offset, hcopy⟩ := deserialize_serialize_false h hvin
  have hblank : tx.stripWitness.vin.map (fun txin => { txin with scriptSig := [] }) =
      tx.vin.map blankInput := by
    simp only [Transaction.stripWitness, List.map_map]
    rfl
  have htarget : getItem (tx.vin.map blankInput) i = .ok (blankInput tx.vin[i]) := by
    simp [getItem, hi]
  have hset : (tx.vin.map blankInput).set i { blankInput tx.vin[i] with scriptSig := scriptCode } =
      (signedCopy tx i scriptCode).vin := by
    apply List.ext_getElem?
    intro k
    simp only [signedCopy, List.getElem?_set, List.getElem?_map, List.getElem?_mapIdx]
    by_cases hk : i = k
    · subst hk
      simp [hi]
    · simp [hk, Ne.symm hk]
  have hnone : ¬ SIGHASH_ALL &&& 0x1f = SIGHASH_NONE := by decide
  have hsingle : ¬ SIGHASH_ALL &&& 0x1f = SIGHASH_SINGLE := by decide
  have hanyone : decide (SIGHASH_ALL &&& SIGHASH_ANYONECANPAY ≠ 0) = false := by decide
  have htype : toBytes 4 SIGHASH_ALL = .ok (leBytes 4 SIGHASH_ALL) := by decide
  simp only at hset
  simp only [calculateLegacySighash, if_neg (not_le.2 hi), hcopy, bind, Except.bind, hblank, htarget,
    if_neg hnone, if_neg hsingle, hanyone, Bool.false_eq_true, if_false, htype, hset]
  rfl

/-- The inputs of a signed copy tell where it is signed. -/
lemma signedCopy_inj (hi : i < tx.vin.length) (hi' : i' < tx'.vin.length) (hne : scriptCode ≠ [])
    (h : signedCopy tx i scriptCode = signedCopy tx' i' scriptCode') :
    SameSigned tx tx' ∧ i = i' ∧ scriptCode = scriptCode' := by
  have hvin : (signedCopy tx i scriptCode).vin = (signedCopy tx' i' scriptCode').vin :=
    congrArg Transaction.vin h
  have hfield {α : Type} {f : TxIn → α} (hf : ∀ txin script, f { blankInput txin with scriptSig := script } = f txin)
      (tx : Transaction) (i : ℕ) (scriptCode : Bytes) :
      (signedCopy tx i scriptCode).vin.map f = tx.vin.map f := by
    apply List.ext_getElem?
    intro k
    simp only [signedCopy, List.getElem?_map, List.getElem?_mapIdx, Option.map_map]
    congr 1
    funext txin
    simp only [Function.comp_apply]
    split_ifs
    · exact hf txin scriptCode
    · exact hf txin []
  have hlen : tx.vin.length = tx'.vin.length := by
    simpa [signedCopy] using congrArg List.length hvin
  have hscript : (signedCopy tx' i' scriptCode').vin[i]?.map TxIn.scriptSig = some scriptCode := by
    rw [← hvin]
    simp [signedCopy, hi]
  have hindex : i = i' := by
    by_contra hni
    rw [hlen] at hi
    simp only [signedCopy, List.getElem?_mapIdx, List.getElem?_eq_getElem hi, Option.map_some,
      if_neg hni, Option.some.injEq] at hscript
    exact hne hscript.symm
  subst hindex
  have hversion : (signedCopy tx i scriptCode).version = (signedCopy tx' i scriptCode').version := by
    rw [h]
  have hvout : (signedCopy tx i scriptCode).vout = (signedCopy tx' i scriptCode').vout := by
    rw [h]
  have hlocktime : (signedCopy tx i scriptCode).locktime = (signedCopy tx' i scriptCode').locktime := by
    rw [h]
  refine ⟨⟨hversion, ?_, ?_, hvout, hlocktime⟩, rfl, ?_⟩
  · rw [← hfield (f := spentOutpoint) (fun _ _ => rfl) tx i scriptCode, hvin,
      hfield (f := spentOutpoint) (fun _ _ => rfl)]
  · rw [← hfield (f := TxIn.sequence) (fun _ _ => rfl) tx i scriptCode, hvin,
      hfield (f := TxIn.sequence) (fun _ _ => rfl)]
  · simp only [signedCopy, List.getElem?_mapIdx, List.getElem?_eq_getElem hi', Option.map_some,
      if_true, Option.some.injEq] at hscript
    exact hscript.symm

lemma signedCopy_inRange (h : tx.InRange) (hsc : scriptCode.length < 2 ^ 64) :
    (signedCopy tx i scriptCode).InRange := by
  refine ⟨?_, ?_, h.vout, h.voutLength⟩
  · intro txin hm
    obtain ⟨k, hk, rfl⟩ := List.mem_iff_getElem.1 hm
    simp only [signedCopy, List.getElem_mapIdx]
    have hlt : k < tx.vin.length := by simpa [signedCopy] using hk
    have hprev := (h.vin _ (List.getElem_mem hlt)).prevTxHash
    split_ifs
    · exact ⟨hprev, hsc⟩
    · exact ⟨hprev, by simp [blankInput]⟩
  · simpa [signedCopy] using h.vinLength

lemma stripWitness_signedCopy (tx : Transaction) (i : ℕ) (scriptCode : Bytes) :
    (signedCopy tx i scriptCode).stripWitness = signedCopy tx i scriptCode := by
  simp only [Transaction.stripWitness, signedCopy, Transaction.mk.injEq, true_and, and_true]
  apply List.ext_getElem?
  intro k
  simp only [List.getElem?_map, List.getElem?_mapIdx, Option.map_map]
  congr 1
  funext txin
  simp only [Function.comp_apply, blankInput]
  split_ifs <;> rfl

/-- The legacy digest. -/
lemma legacyPreimage_inj (h : tx.InRange) (h' : tx'.InRange) (hi : i < tx.vin.length)
    (hi' : i' < tx'.vin.length) (hsc : scriptCode.length < 2 ^ 64) (hsc' : scriptCode'.length < 2 ^ 64)
    (hne : scriptCode ≠ []) (heq : legacyPreimage tx i scriptCode = legacyPreimage tx' i' scriptCode') :
    SameSigned tx tx' ∧ i = i' ∧ scriptCode = scriptCode' := by
  have hbytes := List.append_cancel_right heq
  have hcopy := Transaction.stripWitness_eq_of_serialize_eq (signedCopy_inRange h hsc)
    (signedCopy_inRange h' hsc') hbytes
  rw [stripWitness_signedCopy, stripWitness_signedCopy] at hcopy
  exact signedCopy_inj hi hi' hne hcopy

/-- The preimage of the SegWit digest, from its three partial digests. -/
def segwitPreimage (H : Hashlib) (tx : Transaction) (txin : TxIn) (amount : ℕ) (scriptCode : Bytes) :
    Bytes :=
  writeUint32 tx.version ++ H.hash256 (prevoutsData tx.vin) ++ H.hash256 (sequencesData tx.vin) ++
    txin.prevTxHash ++ writeUint32 txin.prevTxIndex ++ writeBytes scriptCode ++ leBytes 8 amount ++
    writeUint32 txin.sequence ++ H.hash256 (tx.vout.flatMap TxOut.serialize) ++
    writeUint32 tx.locktime ++ leBytes 4 SIGHASH_ALL

lemma segwitSighash_all (hi : i < tx.vin.length) {amount : ℕ} {digest : Bytes}
    (h : calculateSegwitV0Sighash H tx i amount scriptCode SIGHASH_ALL = .ok digest) :
    amount < 256 ^ 8 ∧ digest = H.hash256 (segwitPreimage H tx tx.vin[i] amount scriptCode) := by
  have hnone : ¬ SIGHASH_ALL &&& 0x1f = SIGHASH_NONE := by decide
  have hsingle : ¬ SIGHASH_ALL &&& 0x1f = SIGHASH_SINGLE := by decide
  have hall : SIGHASH_ALL &&& 0x1f = SIGHASH_ALL := by decide
  have hanyone : decide (SIGHASH_ALL &&& SIGHASH_ANYONECANPAY ≠ 0) = false := by decide
  have htype : toBytes 4 SIGHASH_ALL = .ok (leBytes 4 SIGHASH_ALL) := by decide
  rw [hall] at hnone hsingle
  simp only [calculateSegwitV0Sighash, List.getElem?_eq_getElem hi, hanyone, hall,
    htype, hnone, hsingle, decide_false, Bool.or_false, Bool.false_eq_true, if_false, if_true] at h
  by_cases hamount : amount < 256 ^ 8
  · have hbytes : toBytes 8 amount = .ok (leBytes 8 amount) := if_pos hamount
    rw [hbytes] at h
    cases h
    exact ⟨hamount, rfl⟩
  · have hraise : toBytes 8 amount = .error (.overflowError "int too big to convert") := if_neg hamount
    rw [hraise] at h
    cases h

/-- The fields of a SegWit preimage, the partial digests among them. -/
structure SegwitFields where
  version : UInt32
  hashPrevouts : Bytes
  hashSequence : Bytes
  prevTxHash : Bytes
  prevTxIndex : UInt32
  scriptCode : Bytes
  amount : ℕ
  sequence : UInt32
  hashOutputs : Bytes
  locktime : UInt32

def segwitFields (H : Hashlib) (tx : Transaction) (txin : TxIn) (amount : ℕ) (scriptCode : Bytes) :
    SegwitFields :=
  ⟨tx.version, H.hash256 (prevoutsData tx.vin), H.hash256 (sequencesData tx.vin), txin.prevTxHash,
    txin.prevTxIndex, scriptCode, amount, txin.sequence, H.hash256 (tx.vout.flatMap TxOut.serialize),
    tx.locktime⟩

def readSegwitFields : Reader SegwitFields := do
  let version ← readUint32
  let hashPrevouts ← readBytes 32
  let hashSequence ← readBytes 32
  let prevTxHash ← readBytes 32
  let prevTxIndex ← readUint32
  let scriptCode ← (do let n ← readVarint; readBytes n)
  let amount ← unpackFrom 8
  let sequence ← readUint32
  let hashOutputs ← readBytes 32
  let locktime ← readUint32
  pure ⟨version, hashPrevouts, hashSequence, prevTxHash, prevTxIndex, scriptCode, amount, sequence,
    hashOutputs, locktime⟩

/-- Digests of 32 bytes keep the fields of a preimage apart. -/
lemma segwitPreimage_decodes (hlen : ∀ data, (H.hash256 data).length = 32) {txin : TxIn}
    (hprev : txin.prevTxHash.length = 32) (hsc : scriptCode.length < 2 ^ 64) {amount : ℕ}
    (hamount : amount < 256 ^ 8) :
    ∃ head, segwitPreimage H tx txin amount scriptCode = head ++ leBytes 4 SIGHASH_ALL ∧
      Reader.Decodes readSegwitFields head (segwitFields H tx txin amount scriptCode) := by
  refine ⟨writeUint32 tx.version ++ (H.hash256 (prevoutsData tx.vin) ++
    (H.hash256 (sequencesData tx.vin) ++ (txin.prevTxHash ++ (writeUint32 txin.prevTxIndex ++
      (writeBytes scriptCode ++ (leBytes 8 amount ++ (writeUint32 txin.sequence ++
        (H.hash256 (tx.vout.flatMap TxOut.serialize) ++ writeUint32 tx.locktime)))))))), ?_, ?_⟩
  · simp only [segwitPreimage, List.append_assoc]
  · exact (readUint32_decodes _).bind ((readBytes_decodes (hlen _)).bind ((readBytes_decodes (hlen _)).bind
      ((readBytes_decodes hprev).bind ((readUint32_decodes _).bind ((readVarBytes_decodes hsc).bind
        ((unpackFrom_decodes hamount).bind ((readUint32_decodes _).bind ((readBytes_decodes (hlen _)).bind
          ((readUint32_decodes _).map (g := SegwitFields.mk tx.version _ _ _ _ _ _ _ _))))))))))

/-- What is hashed on the way to a SegWit digest. -/
def segwitMessages (H : Hashlib) (tx : Transaction) (txin : TxIn) (amount : ℕ) (scriptCode : Bytes) :
    Set Bytes :=
  {prevoutsData tx.vin, sequencesData tx.vin, tx.vout.flatMap TxOut.serialize,
    segwitPreimage H tx txin amount scriptCode}

/-- The SegWit digest. -/
lemma segwitPreimage_inj (hlen : ∀ data, (H.hash256 data).length = 32) {txin txin' : TxIn}
    {amount amount' : ℕ}
    (hinj : Set.InjOn H.hash256 (segwitMessages H tx txin amount scriptCode ∪
      segwitMessages H tx' txin' amount' scriptCode'))
    (h : tx.InRange) (h' : tx'.InRange) (hm : txin ∈ tx.vin) (hm' : txin' ∈ tx'.vin)
    (hsc : scriptCode.length < 2 ^ 64) (hsc' : scriptCode'.length < 2 ^ 64)
    (hamount : amount < 256 ^ 8) (hamount' : amount' < 256 ^ 8)
    (heq : H.hash256 (segwitPreimage H tx txin amount scriptCode) =
      H.hash256 (segwitPreimage H tx' txin' amount' scriptCode')) :
    SameSigned tx tx' ∧ spentOutpoint txin = spentOutpoint txin' ∧ scriptCode = scriptCode' ∧
      amount = amount' := by
  have hpre : segwitPreimage H tx txin amount scriptCode =
      segwitPreimage H tx' txin' amount' scriptCode' :=
    hinj (by simp [segwitMessages]) (by simp [segwitMessages]) heq
  obtain ⟨head, hhead, hdec⟩ :=
    @segwitPreimage_decodes H tx _ hlen txin (h.vin txin hm).prevTxHash hsc amount hamount
  obtain ⟨head', hhead', hdec'⟩ :=
    @segwitPreimage_decodes H tx' _ hlen txin' (h'.vin txin' hm').prevTxHash hsc' amount' hamount'
  rw [hhead, hhead'] at hpre
  have hfields := (hdec.append_inj hdec' hpre).1
  simp only [segwitFields, SegwitFields.mk.injEq] at hfields
  obtain ⟨hversion, hprevouts, hsequences, hhash, hindex, hcode, hamt, -, houtputs, hlocktime⟩ := hfields
  have hprevouts' := hinj (by simp [segwitMessages]) (by simp [segwitMessages]) hprevouts
  have hsequences' := hinj (by simp [segwitMessages]) (by simp [segwitMessages]) hsequences
  have houtputs' := hinj (by simp [segwitMessages]) (by simp [segwitMessages]) houtputs
  refine ⟨⟨hversion, ?_, sequencesData_inj hsequences', outputsData_inj h.vout h'.vout houtputs',
    hlocktime⟩, by rw [spentOutpoint, spentOutpoint, hhash, hindex], hcode, hamt⟩
  exact prevoutsData_inj (fun txin hm => (h.vin txin hm).prevTxHash)
    (fun txin hm => (h'.vin txin hm).prevTxHash) hprevouts'

/-- Two `SIGHASH_ALL` digests are equal only for the same payment: neither digest can be moved to a
transaction with other inputs, outputs, version or lock time, or to another input or script code. -/
theorem sighashAll_commits (H : Hashlib) (hlen : ∀ data, (H.hash256 data).length = 32)
    (tx tx' : Transaction) (h : tx.InRange) (h' : tx'.InRange) (i i' : ℕ) (hi : i < tx.vin.length)
    (hi' : i' < tx'.vin.length) (scriptCode scriptCode' : Bytes) (hsc : scriptCode.length < 2 ^ 64)
    (hsc' : scriptCode'.length < 2 ^ 64) :
    (∀ digest, Set.InjOn H.hash256 {legacyPreimage tx i scriptCode, legacyPreimage tx' i' scriptCode'} →
      scriptCode ≠ [] → scriptCode' ≠ [] →
      calculateLegacySighash H tx i SIGHASH_ALL scriptCode = .ok digest →
      calculateLegacySighash H tx' i' SIGHASH_ALL scriptCode' = .ok digest →
      SameSigned tx tx' ∧ i = i' ∧ scriptCode = scriptCode') ∧
    ∀ amount amount' digest, Set.InjOn H.hash256 (segwitMessages H tx tx.vin[i] amount scriptCode ∪
        segwitMessages H tx' tx'.vin[i'] amount' scriptCode') →
      calculateSegwitV0Sighash H tx i amount scriptCode SIGHASH_ALL = .ok digest →
      calculateSegwitV0Sighash H tx' i' amount' scriptCode' SIGHASH_ALL = .ok digest →
      SameSigned tx tx' ∧ spentOutpoint tx.vin[i] = spentOutpoint tx'.vin[i'] ∧
        scriptCode = scriptCode' ∧ amount = amount' := by
  constructor
  · intro digest hinj hne _ hdigest hdigest'
    rw [legacySighash_all h hi] at hdigest
    rw [legacySighash_all h' hi'] at hdigest'
    have heq := hdigest.trans hdigest'.symm
    rw [Except.ok.injEq] at heq
    exact legacyPreimage_inj h h' hi hi' hsc hsc' hne (hinj (by simp) (by simp) heq)
  · intro amount amount' digest hinj hdigest hdigest'
    obtain ⟨hamount, rfl⟩ := segwitSighash_all hi hdigest
    obtain ⟨hamount', heq⟩ := segwitSighash_all hi' hdigest'
    exact segwitPreimage_inj hlen hinj h h' (List.getElem_mem hi) (List.getElem_mem hi') hsc hsc' hamount
      hamount' heq

end all

/-! One transaction with two unlocking scripts, as it is before and after it is signed. -/
namespace SighashExample

def tx (scriptSig : Bytes) : Transaction :=
  { version := 1
    vin := [⟨List.replicate 32 0x11, 0, scriptSig, 0xffffffff, []⟩]
    vout := [⟨5, [0x51]⟩]
    locktime := 0 }

def parts : Hashlib := Hashlib.ofDoubleDigests [
  (prevoutsData (tx []).vin,
    0x075fce99a18c5a946572efe571afdbc79505361d2e43f8ed10b9b4c47f64538e,
    0x55e107cafb9fb7b336f385783df483239dabc2fceb8d5843986bc75c6877b271),
  (sequencesData (tx []).vin,
    0xad95131bc0b799c0b1af477fb14fcf26a6a9f76079e48bf090acb7e8367bfd0e,
    0x3bb13029ce7b1f559ef5e747fcac439f1455a2ec7c5f09b72290795e70665044),
  ((tx []).vout.flatMap TxOut.serialize,
    0x6059cb71784def6bb40552a36939d3dee156c532489eb7ed97a99e24035dc970,
    0x1209b778aed7b57b3b10d5fed8a75a30297611efb8a5d8993cd0d58da7bd4916)]

def hashlib : Hashlib := Hashlib.padded <| parts.withDigests [
  (legacyPreimage (tx []) 0 [0x51],
    0x689ebe48481ff77aff392f0bb02901a7b961929ddfcdb55c3659357db43e81f2,
    0x0cd15443174a0b33ea804110b51eda5a1c23de07ae0256abe7e5995658e7edb9),
  (segwitPreimage parts (tx []) (tx []).vin[0] 7 [0x51],
    0x7c8b7c17256fb2234f81477120191c477d1b380d3b4554c09b662c134a22c3e4,
    0x49659ce1145df684adf82573a4c9f8aadbd6f2dd8a27430397c41e09ee755f7e)]

end SighashExample

open SighashExample in
theorem sighashAll_commits_unsigned :
    (SameSigned (tx []) (tx [0x51]) ∧ 0 = 0 ∧ ([0x51] : Bytes) = [0x51]) ∧
      SameSigned (tx []) (tx [0x51]) ∧
      spentOutpoint (tx []).vin[0] = spentOutpoint (tx [0x51]).vin[0] ∧ ([0x51] : Bytes) = [0x51] ∧
      7 = 7 := by
  have hcommits := sighashAll_commits hashlib (fun _ => Hashlib.length_padded _ _) (tx [])
    (tx [0x51]) (by decide) (by decide) 0 0 (by decide) (by decide) [0x51] [0x51] (by decide) (by decide)
  have hsame : legacyPreimage (tx [0x51]) 0 [0x51] = legacyPreimage (tx []) 0 [0x51] := by decide +kernel
  have hsame' : segwitMessages hashlib (tx [0x51]) (tx [0x51]).vin[0] 7 [0x51] =
      segwitMessages hashlib (tx []) (tx []).vin[0] 7 [0x51] := rfl
  refine ⟨hcommits.1 _ ?_ (by decide) (by decide) (legacySighash_all (by decide) (by decide)) ?_,
    hcommits.2 7 7 _ ?_ rfl rfl⟩
  · rw [hsame]
    simp
  · rw [← hsame]
    exact legacySighash_all (by decide) (by decide)
  · rw [hsame', Set.union_self]
    have hnodup : (List.map hashlib.hash256 [prevoutsData (tx []).vin, sequencesData (tx []).vin,
        (tx []).vout.flatMap TxOut.serialize,
        segwitPreimage hashlib (tx []) (tx []).vin[0] 7 [0x51]]).Nodup := by decide +kernel
    intro a ha b hb
    exact List.inj_on_of_nodup_map hnodup (by simpa [segwitMessages] using ha)
      (by simpa [segwitMessages] using hb)

end Script
end BerzCoin
