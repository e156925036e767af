import BerzCoin.CoreReaders
import BerzCoin.CoreTransaction

/-! Encoding and decoding transactions. The decoder expects a witness stack after every input
once there is a marker, but the encoder writes nothing for an empty stack; and the decoder
takes encodings that the encoder never writes. -/
namespace BerzCoin
open Serializer

/-! Readers of the encodings that the encoder writes. -/

/-- A witness stack that is not empty. -/
def Witness.readShort : Reader (List Bytes) := do
  let nItems ← readShortVarint
  if nItems = 0 then fun _ _ => .error (.valueError "Empty witness")
  else readMany readShortBytes nItems

def TxIn.readShort (hasWitness : Bool) : Reader TxIn := do
  let prevTxHash ← readBytes 32
  let prevTxIndex ← readUint32
  let scriptSig ← readShortBytes
  let sequence ← readUint32
  let witness ← if hasWitness then Witness.readShort else pure []
  pure ⟨prevTxHash, prevTxIndex, scriptSig, sequence, witness⟩

def TxOut.readShort : Reader TxOut := do
  let value ← readUint64
  let scriptPubkey ← readShortBytes
  pure ⟨value, scriptPubkey⟩

namespace Transaction

/-- The marker is followed by the flag `0x01`. -/
def readShortMarker : Reader Bool := fun data offset =>
  if data[offset]? = some 0x00 then
    if data[offset + 1]? = some 0x01 then .ok (true, offset + 2)
    else .error (.valueError "Unknown flag")
  else .ok (false, offset)

/-- Every length and count is in its shortest form, there is an input, and after a marker and
the flag `0x01` every input has a witness. -/
def readShort : Reader Transaction := do
  let version ← readUint32
  let hasWitness ← readShortMarker
  let nInputs ← readShortVarint
  if nInputs = 0 then fun _ _ => .error (.valueError "No inputs")
  else
    let inputs ← readMany (TxIn.readShort hasWitness) nInputs
    let nOutputs ← readShortVarint
    let outputs ← readMany TxOut.readShort nOutputs
    let locktime ← readUint32
    pure ⟨version, inputs, outputs, locktime⟩

/-- `deserialize_transaction_strict`. -/
def deserializeStrict (data : Bytes) : Except PyError Transaction :=
  match deserialize data 0 with
  | .error e => .error e
  | .ok (tx, offset) =>
    if offset ≠ data.length then
      .error (.valueError ("Extra bytes after transaction: consumed=" ++ toString offset ++
        " total=" ++ toString data.length))
    else .ok tx

lemma deserializeStrict_ok {data : Bytes} {tx : Transaction} :
    deserializeStrict data = .ok tx ↔ deserialize data 0 = .ok (tx, data.length) := by
  unfold deserializeStrict
  cases deserialize data 0 with
  | error e => simp
  | ok p =>
    obtain ⟨tx', offset⟩ := p
    simp only
    split_ifs with h
    · simp [h]
    · have ho : offset = data.length := by simpa using h
      simp [ho]

end Transaction

section refines

lemma Witness.readShort_refines : Reader.Refines Witness.readShort Witness.deserialize := by
  intro data offset x h
  obtain ⟨items, offset'⟩ := x
  obtain ⟨n, offset₁, h₁, h₂⟩ := Reader.bind_ok.1 h
  have hread := (readShortVarint_ok.1 h₁).1
  have hlt := (readVarint_ok hread).1
  split_ifs at h₂ with hn
  unfold Witness.deserialize
  rw [if_neg (by omega)]
  exact Reader.bind_ok.2 ⟨n, offset₁, hread, readShortBytes_refines.many n _ _ _ h₂⟩

lemma TxIn.readShort_refines (hasWitness : Bool) :
    Reader.Refines (TxIn.readShort hasWitness) (TxIn.deserialize hasWitness) := by
  refine Reader.Refines.bind (.refl _) fun _ => .bind (.refl _) fun _ =>
    readShortBytes_refines.bind fun _ => .bind (.refl _) fun _ => ?_
  cases hasWitness with
  | false =>
    simp only [Bool.false_eq_true, if_false]
    exact .refl _
  | true =>
    simp only [if_true]
    exact Witness.readShort_refines.bind fun _ => .refl _

lemma TxOut.readShort_refines : Reader.Refines TxOut.readShort TxOut.deserialize :=
  Reader.Refines.bind (.refl _) fun _ => readShortBytes_refines.bind fun _ => .refl _

lemma Transaction.readShortMarker_refines :
    Reader.Refines Transaction.readShortMarker Transaction.readMarker := by
  intro data offset x h
  unfold Transaction.readShortMarker at h
  unfold Transaction.readMarker
  split_ifs at h with hzero hone
  · rw [if_pos hzero, hone]
    exact h
  · rw [if_neg hzero]
    exact h

lemma Transaction.readShort_refines : Reader.Refines Transaction.readShort Transaction.deserialize := by
  refine Reader.Refines.bind (.refl _) fun _ => Transaction.readShortMarker_refines.bind fun hasWitness =>
    readShortVarint_refines.bind fun nInputs => ?_
  intro data offset x h
  split_ifs at h with hn
  refine Reader.Refines.bind ((TxIn.readShort_refines hasWitness).many nInputs) (fun _ =>
    readShortVarint_refines.bind fun nOutputs => (TxOut.readShort_refines.many nOutputs).bind fun _ =>
      .refl _) data offset x h

end refines

/-! What the encoder writes is read back. -/

/-- The lengths of a witness stack have their place in a varint. -/
def WitnessInRange (items : List Bytes) : Prop :=
  items.length < 2 ^ 64 ∧ ∀ item ∈ items, item.length < 2 ^ 64

section decodes

lemma Witness.readShort_decodes {items : List Bytes} (hne : items ≠ []) (h : WitnessInRange items) :
    Reader.Decodes Witness.readShort (Witness.serialize items) items := by
  have hmany := @Reader.Decodes.many _ readShortBytes writeBytes items fun item hitem =>
      readShortBytes_decodes (h.2 item hitem)
  have hlen : items.length ≠ 0 := fun hc => hne (List.eq_nil_of_length_eq_zero hc)
  rw [Witness.serialize, if_neg hne]
  refine (readShortVarint_decodes h.1).bind ?_
  rw [if_neg hlen]
  exact hmany

lemma TxIn.readShort_decodes {txin : TxIn} {hasWitness : Bool} (h : txin.InRange)
    (hw : WitnessInRange txin.witness) (hwitness : (txin.witness ≠ []) = (hasWitness = true)) :
    Reader.Decodes (TxIn.readShort hasWitness) (txin.serialize hasWitness) txin := by
  unfold TxIn.readShort TxIn.serialize
  refine (readBytes_decodes h.prevTxHash).bind ((readUint32_decodes _).bind
    ((readShortBytes_decodes h.scriptSig).bind ((readUint32_decodes _).bind ?_)))
  cases hasWitness with
  | true =>
    have hne : txin.witness ≠ [] := hwitness.mpr rfl
    simp only [if_true]
    exact (Witness.readShort_decodes hne hw).map (g := fun w =>
      (⟨txin.prevTxHash, txin.prevTxIndex, txin.scriptSig, txin.sequence, w⟩ : TxIn))
  | false =>
    have hnil : txin.witness = [] := by simpa using hwitness
    simp only [Bool.false_eq_true, if_false]
    have htxin : txin = ⟨txin.prevTxHash, txin.prevTxIndex, txin.scriptSig, txin.sequence, []⟩ := by
      rw [← hnil]
    rw [htxin]
    exact Reader.Decodes.pure _

lemma TxOut.readShort_decodes {txout : TxOut} (h : txout.scriptPubkey.length < 2 ^ 64) :
    Reader.Decodes TxOut.readShort txout.serialize txout :=
  (readUint64_decodes _).bind ((readShortBytes_decodes h).map (g := TxOut.mk txout.value))

namespace Transaction

/-- The first byte of a count that is not zero is not the marker. -/
lemma writeVarint_head {n : ℕ} (hn : n ≠ 0) : ∃ b rest, writeVarint n = b :: rest ∧ b ≠ 0x00 := by
  unfold writeVarint
  split_ifs with h1
  · refine ⟨UInt8.ofNat (n % 256), [], rfl, ?_⟩
    intro hzero
    have hnat := congrArg UInt8.toNat hzero
    rw [UInt8.toNat_ofNat'] at hnat
    have h0 : (0x00 : UInt8).toNat = 0 := rfl
    omega
  · exact ⟨0xfd, _, rfl, by decide⟩
  · exact ⟨0xfe, _, rfl, by decide⟩
  · exact ⟨0xff, _, rfl, by decide⟩

/-- The marker, or the count that stands in its place. -/
lemma readShortMarker_bind_decodes {hasWitness : Bool} {n : ℕ} (hn : n ≠ 0) {f : Bool → Reader Transaction}
    {rest : Bytes} {tx : Transaction} (hf : Reader.Decodes (f hasWitness) (writeVarint n ++ rest) tx) :
    Reader.Decodes (readShortMarker >>= f)
      ((if hasWitness then [0x00, 0x01] else []) ++ (writeVarint n ++ rest)) tx := by
  cases hasWitness with
  | true =>
    refine Reader.Decodes.bind (a := true) ?_ hf
    intro pre post
    simp [readShortMarker]
  | false =>
    intro pre post
    obtain ⟨b, tail, hhead, hb⟩ := writeVarint_head hn
    have hfirst : (pre ++ ((writeVarint n ++ rest) ++ post))[pre.length]? = some b := by
      simp [hhead]
    have hmarker : readShortMarker (pre ++ ((writeVarint n ++ rest) ++ post)) pre.length =
        .ok (false, pre.length) := by
      rw [readShortMarker, hfirst, if_neg]
      simpa using hb
    simp only [Bool.false_eq_true, if_false, List.nil_append]
    exact Reader.bind_ok.2 ⟨false, pre.length, hmarker, hf pre post⟩

theorem readShort_decodes {tx : Transaction} (hvin : tx.vin ≠ []) (h : tx.InRange)
    (hw : ∀ txin ∈ tx.vin, WitnessInRange txin.witness)
    (huniform : ∀ txin ∈ tx.vin, (txin.witness ≠ []) = (tx.hasWitness = true)) :
    Reader.Decodes readShort (tx.serialize true) tx := by
  have hn : tx.vin.length ≠ 0 := fun hc => hvin (List.eq_nil_of_length_eq_zero hc)
  have hin := Reader.Decodes.many (r := TxIn.readShort tx.hasWitness) tx.vin fun txin htxin =>
    TxIn.readShort_decodes (h.vin txin htxin) (hw txin htxin) (huniform txin htxin)
  have hout := Reader.Decodes.many tx.vout fun txout ho => TxOut.readShort_decodes (h.vout txout ho)
  unfold readShort serialize
  simp only [Bool.true_and]
  refine (readUint32_decodes _).bind (readShortMarker_bind_decodes hn ?_)
  refine (readShortVarint_decodes h.vinLength).bind ?_
  rw [if_neg hn]
  exact hin.bind ((readShortVarint_decodes h.voutLength).bind (hout.bind ((readUint32_decodes _).map
    (g := Transaction.mk tx.version tx.vin tx.vout))))

end Transaction
end decodes

/-! How much the decoder takes. -/

section takes

/-- The least that a witness stack takes, also when it is empty. -/
def Witness.fullLength (items : List Bytes) : ℕ :=
  (writeVarint items.length).length + (items.map fun item => (writeBytes item).length).sum

def TxIn.fullLength (hasWitness : Bool) (txin : TxIn) : ℕ :=
  (txin.serialize false).length + if hasWitness then Witness.fullLength txin.witness else 0

lemma Witness.deserialize_atLeast :
    Reader.AtLeast Witness.deserialize Witness.fullLength := by
  intro data offset items offset' h
  unfold Witness.deserialize at h
  split_ifs at h with hend
  · cases h
    exact ⟨le_refl _, fun hlt => by omega⟩
  · obtain ⟨n, offset₁, h₁, h₂⟩ := Reader.bind_ok.1 h
    obtain ⟨hle, -⟩ := readVarint_takes h₁
    have hitem : Reader.AtLeast (do let length ← readVarint; readBytes length)
        fun item => (writeBytes item).length := by
      intro data offset item offset' h
      have htakes := (readVarBytes_takes h).1
      exact ⟨by omega, fun _ => htakes⟩
    obtain ⟨hmono, hsize⟩ := hitem.many n _ _ _ _ h₂
    have hlen : items.length = n := readMany_length h₂
    refine ⟨by omega, ?_⟩
    intro hlt
    have hs := hsize hlt
    simp only [Witness.fullLength, hlen] at hs ⊢
    omega

lemma Witness.deserialize_inRange {data : Bytes} {offset offset' : ℕ} {items : List Bytes}
    (h : Witness.deserialize data offset = .ok (items, offset')) : WitnessInRange items := by
  unfold Witness.deserialize at h
  split_ifs at h with hend
  · cases h
    exact ⟨by simp, by simp⟩
  · obtain ⟨n, offset₁, h₁, h₂⟩ := Reader.bind_ok.1 h
    refine ⟨?_, readMany_forall (fun _ _ _ _ hr => (readVarBytes_takes hr).2) h₂⟩
    rw [readMany_length h₂]
    exact (readVarint_takes h₁).2

/-- The fields of an input in the order in which they are read. -/
lemma TxIn.deserialize_ok {hasWitness : Bool} {data : Bytes} {offset offset' : ℕ} {txin : TxIn}
    (h : TxIn.deserialize hasWitness data offset = .ok (txin, offset')) :
    txin.InRange ∧ ∃ offset₁, offset + (txin.serialize false).length ≤ offset₁ ∧
      (if hasWitness then Witness.deserialize else pure [] : Reader (List Bytes)) data offset₁ =
        .ok (txin.witness, offset') := by
  obtain ⟨prevTxHash, o₁, h₁, h⟩ := Reader.bind_ok.1 h
  obtain ⟨prevTxIndex, o₂, h₂, h⟩ := Reader.bind_ok.1 h
  obtain ⟨scriptSig, o₃, h₃, h⟩ := Reader.bind_ok.1 h
  obtain ⟨sequence, o₄, h₄, h⟩ := Reader.bind_ok.1 h
  have hlast : ∃ witness o₅, (if hasWitness then Witness.deserialize else pure [] :
      Reader (List Bytes)) data o₄ = .ok (witness, o₅) ∧
        txin = ⟨prevTxHash, prevTxIndex, scriptSig, sequence, witness⟩ ∧ offset' = o₅ := by
    cases hasWitness with
    | false =>
      simp only [Bool.false_eq_true, if_false] at h ⊢
      obtain ⟨witness, o₅, h₅, h⟩ := Reader.bind_ok.1 h
      obtain ⟨htxin, ho⟩ := Reader.pure_ok.1 h
      exact ⟨witness, o₅, h₅, htxin, ho⟩
    | true =>
      simp only [if_true] at h ⊢
      obtain ⟨witness, o₅, h₅, h⟩ := Reader.bind_ok.1 h
      obtain ⟨htxin, ho⟩ := Reader.pure_ok.1 h
      exact ⟨witness, o₅, h₅, htxin, ho⟩
  obtain ⟨witness, o₅, h₅, rfl, rfl⟩ := hlast
  obtain ⟨hhash, -, ho₁, -⟩ := readBytes_ok h₁
  obtain ⟨-, ho₂, -⟩ := readUint32_ok h₂
  obtain ⟨hle, hsig⟩ := readVarBytes_takes h₃
  obtain ⟨-, ho₄, -⟩ := readUint32_ok h₄
  refine ⟨⟨hhash, hsig⟩, o₄, ?_, h₅⟩
  simp only [TxIn.serialize, writeUint32, List.length_append, leBytes_length, Bool.false_eq_true,
    if_false, List.length_nil, hhash]
  omega

lemma TxIn.deserialize_atLeast (hasWitness : Bool) :
    Reader.AtLeast (TxIn.deserialize hasWitness) (TxIn.fullLength hasWitness) := by
  intro data offset txin offset' h
  obtain ⟨-, offset₁, hle, hwitness⟩ := TxIn.deserialize_ok h
  unfold TxIn.fullLength
  cases hasWitness with
  | false =>
    obtain ⟨-, rfl⟩ := Reader.pure_ok.1 hwitness
    simp only [Bool.false_eq_true, if_false]
    exact ⟨by omega, fun _ => by omega⟩
  | true =>
    obtain ⟨hmono, hsize⟩ := Witness.deserialize_atLeast _ _ _ _ hwitness
    simp only [if_true]
    refine ⟨by omega, ?_⟩
    intro hlt
    have hs := hsize hlt
    omega

lemma TxIn.deserialize_witnessInRange {hasWitness : Bool} {data : Bytes} {offset offset' : ℕ}
    {txin : TxIn} (h : TxIn.deserialize hasWitness data offset = .ok (txin, offset')) :
    WitnessInRange txin.witness := by
  obtain ⟨-, offset₁, -, hwitness⟩ := TxIn.deserialize_ok h
  cases hasWitness with
  | false =>
    obtain ⟨hnil, -⟩ := Reader.pure_ok.1 hwitness
    rw [hnil]
    exact ⟨by simp, by simp⟩
  | true => exact Witness.deserialize_inRange hwitness

lemma TxOut.deserialize_takes {data : Bytes} {offset offset' : ℕ} {txout : TxOut}
    (h : TxOut.deserialize data offset = .ok (txout, offset')) :
    offset + txout.serialize.length ≤ offset' ∧ txout.scriptPubkey.length < 2 ^ 64 := by
  obtain ⟨value, o₁, h₁, h⟩ := Reader.bind_ok.1 h
  obtain ⟨scriptPubkey, o₂, h₂, h⟩ := Reader.bind_ok.1 h
  obtain ⟨rfl, rfl⟩ := Reader.pure_ok.1 h
  obtain ⟨-, ho₁, -⟩ := readUint64_ok h₁
  obtain ⟨hle, hspk⟩ := readVarBytes_takes h₂
  refine ⟨?_, hspk⟩
  simp only [TxOut.serialize, writeUint64, List.length_append, leBytes_length]
  omega

namespace Transaction

/-- The least that the decoder takes after the marker. -/
def bodyLength (hasWitness : Bool) (tx : Transaction) : ℕ :=
  (writeVarint tx.vin.length).length + (tx.vin.map (TxIn.fullLength hasWitness)).sum +
    (writeVarint tx.vout.length).length + (tx.vout.map fun txout => txout.serialize.length).sum + 4

/-- A decoded transaction is in range, and the decoder has taken at least its length with a
count for every witness stack. -/
theorem deserialize_takes {data : Bytes} {tx : Transaction} {start offset : ℕ}
    (h : deserialize data start = .ok (tx, offset)) :
    tx.InRange ∧ (∀ txin ∈ tx.vin, WitnessInRange txin.witness) ∧
      ∃ hasWitness offset₁, readMarker data (start + 4) = .ok (hasWitness, offset₁) ∧
        offset₁ + tx.bodyLength hasWitness ≤ offset ∧ offset ≤ data.length ∧
        (hasWitness = false → ∀ txin ∈ tx.vin, txin.witness = []) := by
  obtain ⟨version, o₁, h₁, h⟩ := Reader.bind_ok.1 h
  obtain ⟨hasWitness, o₂, h₂, h⟩ := Reader.bind_ok.1 h
  obtain ⟨nInputs, o₃, h₃, h⟩ := Reader.bind_ok.1 h
  obtain ⟨inputs, o₄, h₄, h⟩ := Reader.bind_ok.1 h
  obtain ⟨nOutputs, o₅, h₅, h⟩ := Reader.bind_ok.1 h
  obtain ⟨outputs, o₆, h₆, h⟩ := Reader.bind_ok.1 h
  obtain ⟨locktime, o₇, h₇, h⟩ := Reader.bind_ok.1 h
  obtain ⟨rfl, rfl⟩ := Reader.pure_ok.1 h
  obtain ⟨-, ho₁, -⟩ := readUint32_ok h₁
  obtain ⟨hle₃, hvin⟩ := readVarint_takes h₃
  obtain ⟨hle₅, hvout⟩ := readVarint_takes h₅
  obtain ⟨-, ho₇, hend⟩ := readUint32_ok h₇
  have hlenIn : inputs.length = nInputs := readMany_length h₄
  have hlenOut : outputs.length = nOutputs := readMany_length h₆
  obtain ⟨hmono₄, hsize₄⟩ := (TxIn.deserialize_atLeast hasWitness).many nInputs _ _ _ _ h₄
  have hout : Reader.AtLeast TxOut.deserialize fun txout => txout.serialize.length := by
    intro data offset txout offset' h
    have htakes := (TxOut.deserialize_takes h).1
    exact ⟨by omega, fun _ => htakes⟩
  obtain ⟨hmono₆, hsize₆⟩ := hout.many nOutputs _ _ _ _ h₆
  refine ⟨⟨?_, by rw [hlenIn]; exact hvin, ?_, by rw [hlenOut]; exact hvout⟩, ?_, hasWitness, o₂,
    by simpa [ho₁] using h₂, ?_, by omega, ?_⟩
  · exact readMany_forall (fun _ _ _ _ hr => (TxIn.deserialize_ok hr).1) h₄
  · exact readMany_forall (fun _ _ _ _ hr => (TxOut.deserialize_takes hr).2) h₆
  · exact readMany_forall (fun _ _ _ _ hr => TxIn.deserialize_witnessInRange hr) h₄
  · -- The locktime stands after everything else, so no reader before it came to the end.
    have hs₄ := hsize₄ (by omega)
    have hs₆ := hsize₆ (by omega)
    simp only [bodyLength, hlenIn, hlenOut] at hs₄ hs₆ ⊢
    omega
  · intro hnone
    subst hnone
    refine readMany_forall (fun data offset txin offset' hr => ?_) h₄
    obtain ⟨-, offset₁, -, hwitness⟩ := TxIn.deserialize_ok hr
    exact (Reader.pure_ok.1 hwitness).1

end Transaction
end takes

/-! What the readers of the shortest form have read is what the encoder writes. -/

section recovers

lemma Witness.readShort_ok {data : Bytes} {offset offset' : ℕ} {items : List Bytes}
    (h : Witness.readShort data offset = .ok (items, offset')) :
    items ≠ [] ∧ data.drop offset = Witness.serialize items ++ data.drop offset' ∧
      offset' = offset + (Witness.serialize items).length := by
  obtain ⟨n, o₁, h₁, h⟩ := Reader.bind_ok.1 h
  split_ifs at h with hn
  obtain ⟨hdata₁, ho₁⟩ := readShortVarint_recovers _ _ _ _ h₁
  obtain ⟨hdata₂, ho₂⟩ := readShortBytes_recovers.many n _ _ _ _ h
  have hlen : items.length = n := readMany_length h
  have hne : items ≠ [] := by
    rintro rfl
    exact hn hlen.symm
  refine ⟨hne, ?_, ?_⟩
  · rw [hdata₁, hdata₂, Witness.serialize, if_neg hne, hlen, List.append_assoc]
  · simp only [Witness.serialize, if_neg hne, hlen, List.length_append] at ho₂ ⊢
    omega

lemma TxIn.readShort_ok {hasWitness : Bool} {data : Bytes} {offset offset' : ℕ} {txin : TxIn}
    (h : TxIn.readShort hasWitness data offset = .ok (txin, offset')) :
    (txin.witness ≠ []) = (hasWitness = true) ∧
      data.drop offset = txin.serialize hasWitness ++ data.drop offset' ∧
      offset' = offset + (txin.serialize hasWitness).length := by
  obtain ⟨prevTxHash, o₁, h₁, h⟩ := Reader.bind_ok.1 h
  obtain ⟨prevTxIndex, o₂, h₂, h⟩ := Reader.bind_ok.1 h
  obtain ⟨scriptSig, o₃, h₃, h⟩ := Reader.bind_ok.1 h
  obtain ⟨sequence, o₄, h₄, h⟩ := Reader.bind_ok.1 h
  obtain ⟨hhash, hdata₁, ho₁, -⟩ := readBytes_ok h₁
  obtain ⟨hdata₂, ho₂, -⟩ := readUint32_ok h₂
  obtain ⟨hdata₃, ho₃⟩ := readShortBytes_recovers _ _ _ _ h₃
  obtain ⟨hdata₄, ho₄, -⟩ := readUint32_ok h₄
  cases hasWitness with
  | false =>
    simp only [Bool.false_eq_true, if_false] at h
    obtain ⟨witness, o₅, h₅, h⟩ := Reader.bind_ok.1 h
    obtain ⟨rfl, rfl⟩ := Reader.pure_ok.1 h
    obtain ⟨rfl, rfl⟩ := Reader.pure_ok.1 h₅
    refine ⟨by simp, ?_, ?_⟩
    · simp only [TxIn.serialize, Bool.false_eq_true, if_false, List.append_nil, List.append_assoc]
      rw [hdata₁, hdata₂, hdata₃, hdata₄]
    · simp only [TxIn.serialize, writeUint32, List.length_append, leBytes_length,
        Bool.false_eq_true, if_false, List.length_nil, hhash]
      omega
  | true =>
    simp only [if_true] at h
    obtain ⟨witness, o₅, h₅, h⟩ := Reader.bind_ok.1 h
    obtain ⟨rfl, rfl⟩ := Reader.pure_ok.1 h
    obtain ⟨hne, hdata₅, ho₅⟩ := Witness.readShort_ok h₅
    refine ⟨by simp [hne], ?_, ?_⟩
    · simp only [TxIn.serialize, if_true, List.append_assoc]
      rw [hdata₁, hdata₂, hdata₃, hdata₄, hdata₅]
    · simp only [TxIn.serialize, writeUint32, List.length_append, leBytes_length, if_true, hhash]
      omega

lemma TxOut.readShort_recovers : Reader.Recovers TxOut.readShort TxOut.serialize := by
  intro data offset txout offset' h
  obtain ⟨value, o₁, h₁, h⟩ := Reader.bind_ok.1 h
  obtain ⟨scriptPubkey, o₂, h₂, h⟩ := Reader.bind_ok.1 h
  obtain ⟨rfl, rfl⟩ := Reader.pure_ok.1 h
  obtain ⟨hdata₁, ho₁, -⟩ := readUint64_ok h₁
  obtain ⟨hdata₂, ho₂⟩ := readShortBytes_recovers _ _ _ _ h₂
  refine ⟨?_, ?_⟩
  · rw [hdata₁, hdata₂, TxOut.serialize, List.append_assoc]
  · simp only [TxOut.serialize, writeUint64, List.length_append, leBytes_length]
    omega

namespace Transaction

lemma readShortMarker_ok {data : Bytes} {offset offset' : ℕ} {hasWitness : Bool}
    (h : readShortMarker data offset = .ok (hasWitness, offset')) :
    data.drop offset = (if hasWitness then [0x00, 0x01] else []) ++ data.drop offset' := by
  unfold readShortMarker at h
  split_ifs at h with hzero hone
  · cases h
    obtain ⟨hlt₀, h₀⟩ := List.getElem?_eq_some_iff.1 hzero
    obtain ⟨hlt₁, h₁⟩ := List.getElem?_eq_some_iff.1 hone
    rw [List.drop_eq_getElem_cons hlt₀, List.drop_eq_getElem_cons hlt₁, h₀, h₁]
    rfl
  · cases h
    rfl

/-- A transaction that was read in the shortest form encodes to what was read. -/
theorem readShort_serialize {data : Bytes} {tx : Transaction} {offset : ℕ}
    (h : readShort data 0 = .ok (tx, offset)) : data = tx.serialize true ++ data.drop offset := by
  obtain ⟨version, o₁, h₁, h⟩ := Reader.bind_ok.1 h
  obtain ⟨hasWitness, o₂, h₂, h⟩ := Reader.bind_ok.1 h
  obtain ⟨nInputs, o₃, h₃, h⟩ := Reader.bind_ok.1 h
  split_ifs at h with hn
  obtain ⟨inputs, o₄, h₄, h⟩ := Reader.bind_ok.1 h
  obtain ⟨nOutputs, o₅, h₅, h⟩ := Reader.bind_ok.1 h
  obtain ⟨outputs, o₆, h₆, h⟩ := Reader.bind_ok.1 h
  obtain ⟨locktime, o₇, h₇, h⟩ := Reader.bind_ok.1 h
  obtain ⟨rfl, rfl⟩ := Reader.pure_ok.1 h
  have hlenIn : inputs.length = nInputs := readMany_length h₄
  have hlenOut : outputs.length = nOutputs := readMany_length h₆
  have hin : Reader.Recovers (TxIn.readShort hasWitness) (·.serialize hasWitness) :=
    fun _ _ _ _ hr => (TxIn.readShort_ok hr).2
  -- The inputs have witnesses just when there was a marker.
  have huniform := readMany_forall (fun _ _ _ _ hr => (TxIn.readShort_ok hr).1) h₄
  have hhas : hasWitness = inputs.any fun txin => txin.witness ≠ [] := by
    cases hasWitness with
    | false =>
      symm
      rw [List.any_eq_false]
      intro txin htxin
      have hw : (txin.witness ≠ []) = (false = true) := huniform txin htxin
      simpa using hw
    | true =>
      symm
      rw [List.any_eq_true]
      cases inputs with
      | nil => exact absurd hlenIn.symm hn
      | cons txin rest =>
        have hw : (txin.witness ≠ []) = (true = true) := huniform txin (List.mem_cons_self ..)
        exact ⟨txin, List.mem_cons_self .., by simpa using hw⟩
  have hdata₁ := (readUint32_ok h₁).1
  have hdata₂ := readShortMarker_ok h₂
  have hdata₃ := (readShortVarint_recovers _ _ _ _ h₃).1
  have hdata₄ := (hin.many nInputs _ _ _ _ h₄).1
  have hdata₅ := (readShortVarint_recovers _ _ _ _ h₅).1
  have hdata₆ := (TxOut.readShort_recovers.many nOutputs _ _ _ _ h₆).1
  have hdata₇ := (readUint32_ok h₇).1
  rw [List.drop_zero] at hdata₁
  have htx : (⟨version, inputs, outputs, locktime⟩ : Transaction).hasWitness = hasWitness := hhas.symm
  simp only [serialize, Bool.true_and, htx, hlenIn, hlenOut, List.append_assoc]
  rw [← hdata₇, ← hdata₆, ← hdata₅, ← hdata₄, ← hdata₃, ← hdata₂]
  exact hdata₁

end Transaction
end recovers

section lengths

lemma flatMap_length {α : Type} (xs : List α) (f : α → Bytes) :
    (xs.flatMap f).length = (xs.map fun x => (f x).length).sum := by
  induction xs with
  | nil => rfl
  | cons x xs ih => simp [List.flatMap_cons, ih]

lemma Witness.serialize_length_le (items : List Bytes) :
    (Witness.serialize items).length ≤ Witness.fullLength items := by
  unfold Witness.serialize Witness.fullLength
  split_ifs with h
  · simp
  · rw [List.length_append, flatMap_length]

lemma TxIn.serialize_length (hasWitness : Bool) (txin : TxIn) :
    (txin.serialize hasWitness).length = (txin.serialize false).length +
      if hasWitness then (Witness.serialize txin.witness).length else 0 := by
  cases hasWitness with
  | false => simp
  | true =>
    simp only [TxIn.serialize, List.length_append, if_true, Bool.false_eq_true, if_false,
      List.length_nil]
    omega

lemma TxIn.serialize_length_le (hasWitness : Bool) (txin : TxIn) :
    (txin.serialize hasWitness).length ≤ TxIn.fullLength hasWitness txin := by
  rw [TxIn.serialize_length, TxIn.fullLength]
  have hle := Witness.serialize_length_le txin.witness
  split_ifs <;> omega

/-- The encoder leaves out the count of an empty witness stack. -/
lemma TxIn.serialize_length_lt {txin : TxIn} (h : txin.witness = []) :
    (txin.serialize true).length < TxIn.fullLength true txin := by
  rw [TxIn.serialize_length, TxIn.fullLength, h]
  simp [Witness.serialize, Witness.fullLength, writeVarint_length]

lemma Transaction.serialize_length (tx : Transaction) : (tx.serialize true).length =
    4 + ((if tx.hasWitness then 2 else 0) + ((writeVarint tx.vin.length).length +
      ((tx.vin.map fun txin => (txin.serialize tx.hasWitness).length).sum +
        ((writeVarint tx.vout.length).length +
          ((tx.vout.map fun txout => txout.serialize.length).sum + 4))))) := by
  simp only [Transaction.serialize, Bool.true_and, List.length_append, writeUint32, leBytes_length,
    flatMap_length]
  cases tx.hasWitness <;> simp

end lengths

namespace Transaction

/-- Either no input has a witness or every input has one. -/
def UniformWitness (tx : Transaction) : Prop :=
  (∀ txin ∈ tx.vin, txin.witness = []) ∨ ∀ txin ∈ tx.vin, txin.witness ≠ []

lemma UniformWitness.hasWitness {tx : Transaction} (h : tx.UniformWitness) :
    ∀ txin ∈ tx.vin, (txin.witness ≠ []) = (tx.hasWitness = true) := by
  intro txin htxin
  rcases h with hnone | hall
  · have hfalse : tx.hasWitness = false := by
      rw [Transaction.hasWitness, List.any_eq_false]
      intro txin' htxin'
      simp [hnone txin' htxin']
    simp [hfalse, hnone txin htxin]
  · have htrue : tx.hasWitness = true := by
      rw [Transaction.hasWitness, List.any_eq_true]
      exact ⟨txin, htxin, by simpa using hall txin htxin⟩
    simp [htrue, hall txin htxin]

lemma not_uniformWitness {tx : Transaction} (h : ¬ tx.UniformWitness) :
    tx.hasWitness = true ∧ ∃ txin ∈ tx.vin, txin.witness = [] := by
  unfold UniformWitness at h
  push Not at h
  obtain ⟨⟨txin, htxin, hne⟩, hempty⟩ := h
  refine ⟨?_, hempty⟩
  rw [Transaction.hasWitness, List.any_eq_true]
  exact ⟨txin, htxin, by simpa using hne⟩

/-- The byte after the version. -/
lemma getElem?_serialize_four (tx : Transaction) (rest : Bytes) :
    (writeUint32 tx.version ++ rest)[4]? = rest[0]? := by
  rw [List.getElem?_append_right (by simp [writeUint32])]
  simp [writeUint32]

lemma readMarker_of_hasWitness {tx : Transaction} (h : tx.hasWitness = true) :
    readMarker (tx.serialize true) 4 = .ok (true, 6) := by
  have h5 (v : UInt32) (rest : Bytes) : (writeUint32 v ++ rest)[4 + 1]? = rest[1]? := by
    rw [List.getElem?_append_right (by simp [writeUint32])]
    simp [writeUint32]
  unfold readMarker serialize
  simp only [Bool.true_and, h, if_true, getElem?_serialize_four, h5]
  rfl

/-- An input without a witness among others with one makes the decoder take more than the
encoder has written. -/
lemma uniformWitness_of_decodes {tx : Transaction}
    (h : deserialize (tx.serialize true) 0 = .ok (tx, (tx.serialize true).length)) :
    tx.UniformWitness := by
  by_contra hmixed
  obtain ⟨hhas, txin, htxin, hempty⟩ := not_uniformWitness hmixed
  obtain ⟨-, -, hasWitness, offset₁, hmarker, htakes, -⟩ := deserialize_takes h
  rw [Nat.zero_add, readMarker_of_hasWitness hhas] at hmarker
  cases hmarker
  have hsum : (tx.vin.map fun txin => (txin.serialize true).length).sum <
      (tx.vin.map (TxIn.fullLength true)).sum :=
    List.sum_lt_sum _ _ (fun txin _ => TxIn.serialize_length_le true txin)
      ⟨txin, htxin, TxIn.serialize_length_lt hempty⟩
  rw [serialize_length, hhas] at htakes
  simp only [bodyLength, if_true] at htakes
  omega

/-- A transaction with inputs is decoded from its encoding, in every field and up to the end,
exactly when no input or every input has a witness. -/
theorem deserialize_serialize_iff (tx : Transaction) (hvin : tx.vin ≠ []) (h : tx.InRange)
    (hw : ∀ txin ∈ tx.vin, WitnessInRange txin.witness) :
    deserialize (tx.serialize true) 0 = .ok (tx, (tx.serialize true).length) ↔
      tx.UniformWitness := by
  constructor
  · exact uniformWitness_of_decodes
  · intro huniform
    have hdecodes := readShort_decodes hvin h hw huniform.hasWitness [] []
    simp only [List.nil_append, List.append_nil, List.length_nil, Nat.zero_add] at hdecodes
    exact readShort_refines _ _ _ hdecodes

/-! One input with a witness and one without. -/
namespace CodecExample

def inputWith (witness : List Bytes) : TxIn :=
  ⟨List.replicate 32 0x11, 0, [], 0xffffffff, witness⟩

def txWith (vin : List TxIn) : Transaction := ⟨2, vin, [⟨10000, [0x51]⟩], 0⟩

end CodecExample

open CodecExample in
theorem deserialize_serialize_iff_example :
    deserialize ((txWith [inputWith [[0x01]], inputWith [[], [0x02]]]).serialize true) 0 =
      .ok (txWith [inputWith [[0x01]], inputWith [[], [0x02]]],
        ((txWith [inputWith [[0x01]], inputWith [[], [0x02]]]).serialize true).length) := by
  refine (deserialize_serialize_iff _ (by decide) (by decide) ?_).2 (.inr (by decide))
  unfold WitnessInRange
  decide

open CodecExample in
theorem deserialize_serialize_mixed_witness :
    deserialize ((txWith [inputWith [[0x01]], inputWith []]).serialize true) 0 ≠
      .ok (txWith [inputWith [[0x01]], inputWith []],
        ((txWith [inputWith [[0x01]], inputWith []]).serialize true).length) := by
  decide +kernel

/-- The data are an encoding in its shortest form, up to the end. -/
def Canonical (data : Bytes) : Prop := ∃ tx, readShort data 0 = .ok (tx, data.length)

lemma canonical_iff {data : Bytes} {tx : Transaction} (h : deserializeStrict data = .ok tx) :
    tx.serialize true = data ↔ Canonical data := by
  have hdec := deserializeStrict_ok.1 h
  obtain ⟨hrange, hw, hasWitness, offset₁, hmarker, htakes, -⟩ := deserialize_takes hdec
  rw [Nat.zero_add] at hmarker
  constructor
  · intro hser
    -- Without inputs the count stands where the marker is looked for.
    have hvin : tx.vin ≠ [] := by
      intro hnil
      have hhas : tx.hasWitness = false := by simp [Transaction.hasWitness, hnil]
      have hfour : data[4]? = some 0x00 := by
        rw [← hser]
        simp only [serialize, Bool.true_and, hhas, Bool.false_eq_true, if_false, List.nil_append,
          getElem?_serialize_four, hnil, List.length_nil]
        rfl
      have hoffset : offset₁ = 6 := by
        unfold readMarker at hmarker
        rw [if_pos hfour] at hmarker
        split at hmarker
        · cases hmarker
        · cases hmarker
          rfl
      have hlen := serialize_length tx
      rw [hser, hhas] at hlen
      simp only [bodyLength, hnil, List.map_nil, List.sum_nil, Bool.false_eq_true, if_false] at hlen htakes
      omega
    have huniform : tx.UniformWitness := by
      refine uniformWitness_of_decodes ?_
      rw [hser]
      exact hdec
    have hdecodes := readShort_decodes hvin hrange hw huniform.hasWitness [] []
    simp only [List.nil_append, List.append_nil, List.length_nil, Nat.zero_add, hser] at hdecodes
    exact ⟨tx, hdecodes⟩
  · rintro ⟨tx', hshort⟩
    have hdec' := readShort_refines _ _ _ hshort
    rw [hdec] at hdec'
    cases hdec'
    have hdata := readShort_serialize hshort
    rw [List.drop_length, List.append_nil] at hdata
    exact hdata.symm

/-- What was decoded from some bytes encodes to the same bytes exactly when they are in the
shortest form; and only one of the byte strings that decode to a transaction is. -/
theorem serialize_deserializeStrict_iff (data : Bytes) (tx : Transaction)
    (h : deserializeStrict data = .ok tx) :
    (tx.serialize true = data ↔ Canonical data) ∧
      ∀ data', deserializeStrict data' = .ok tx → Canonical data → Canonical data' →
        data' = data := by
  refine ⟨canonical_iff h, ?_⟩
  intro data' h' hcanonical hcanonical'
  have hser := (canonical_iff h).2 hcanonical
  have hser' := (canonical_iff h').2 hcanonical'
  rw [← hser, ← hser']

open CodecExample in
theorem serialize_deserializeStrict_iff_example :
    (txWith [inputWith [[0x01]]]).serialize true ≠ [] ∧
      deserializeStrict ((txWith [inputWith [[0x01]]]).serialize true) =
        .ok (txWith [inputWith [[0x01]]]) ∧ Canonical ((txWith [inputWith [[0x01]]]).serialize true) := by
  have h : deserializeStrict ((txWith [inputWith [[0x01]]]).serialize true) =
      .ok (txWith [inputWith [[0x01]]]) := by decide +kernel
  exact ⟨by decide, h, (serialize_deserializeStrict_iff _ _ h).1.1 rfl⟩

namespace CodecExample

/-- The encoding of a transaction without witnesses, with the bytes `00 02` after its version. -/
def flagged : Bytes :=
  writeUint32 2 ++ [0x00, 0x02] ++ ((txWith [inputWith []]).serialize true).drop 4

end CodecExample

open CodecExample in
theorem serialize_deserializeStrict_flagged :
    deserializeStrict flagged = .ok (txWith [inputWith []]) ∧
      deserializeStrict ((txWith [inputWith []]).serialize true) = .ok (txWith [inputWith []]) ∧
      (txWith [inputWith []]).serialize true ≠ flagged := by
  decide +kernel

end Transaction
end BerzCoin
