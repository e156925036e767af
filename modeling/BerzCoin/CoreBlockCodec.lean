import BerzCoin.CoreTransactionCodec

/-! Encoding and decoding blocks. A block is the header, a count and the transactions, so it
is decoded from its encoding exactly when each transaction is. -/
namespace BerzCoin
open Serializer

namespace Transaction

lemma readMarker_ok {data : Bytes} {offset offset' : ℕ} {hasWitness : Bool}
    (h : readMarker data offset = .ok (hasWitness, offset')) :
    offset ≤ offset' ∧ (hasWitness = true → offset' = offset + 2) := by
  unfold readMarker at h
  split_ifs at h with hzero
  · split at h
    · cases h
    · cases h
      exact ⟨by omega, fun _ => rfl⟩
  · cases h
    exact ⟨Nat.le_refl _, fun hc => by cases hc⟩

lemma sum_serialize_le (hasWitness : Bool) (vin : List TxIn) :
    (vin.map fun txin => (txin.serialize hasWitness).length).sum ≤
      (vin.map (TxIn.fullLength hasWitness)).sum :=
  List.sum_le_sum fun txin _ => TxIn.serialize_length_le hasWitness txin

/-- What the decoder takes at any place is at least the encoding of what it returns, and more
than that where some but not all inputs have a witness. -/
lemma deserialize_length {data : Bytes} {tx : Transaction} {start offset : ℕ}
    (h : deserialize data start = .ok (tx, offset)) :
    offset ≤ data.length ∧ start + (tx.serialize true).length ≤ offset ∧
      (¬ tx.UniformWitness → start + (tx.serialize true).length < offset) := by
  obtain ⟨-, -, hasWitness, offset₁, hmarker, htakes, hend, hnone⟩ := deserialize_takes h
  obtain ⟨hle, hflag⟩ := readMarker_ok hmarker
  have hlen := serialize_length tx
  simp only [bodyLength] at htakes
  cases hasWitness with
  | false =>
    have hempty := hnone rfl
    have hhas : tx.hasWitness = false := by
      rw [Transaction.hasWitness, List.any_eq_false]
      intro txin htxin
      simp [hempty txin htxin]
    have hsum := sum_serialize_le false tx.vin
    rw [hhas] at hlen
    simp only [Bool.false_eq_true, if_false] at hlen
    exact ⟨hend, by omega, fun hmixed => (hmixed (.inl hempty)).elim⟩
  | true =>
    have hoffset := hflag rfl
    have hfull (hasWitness : Bool) :
        (tx.vin.map fun txin => (txin.serialize hasWitness).length).sum ≤
          (tx.vin.map (TxIn.fullLength true)).sum := by
      refine (sum_serialize_le hasWitness tx.vin).trans (List.sum_le_sum fun txin _ => ?_)
      cases hasWitness <;> simp [TxIn.fullLength]
    refine ⟨hend, ?_, ?_⟩
    · have hsum := hfull tx.hasWitness
      split_ifs at hlen <;> omega
    · intro hmixed
      obtain ⟨hhas, txin, htxin, hempty⟩ := not_uniformWitness hmixed
      have hsum : (tx.vin.map fun txin => (txin.serialize true).length).sum <
          (tx.vin.map (TxIn.fullLength true)).sum :=
        List.sum_lt_sum _ _ (fun txin _ => TxIn.serialize_length_le true txin)
          ⟨txin, htxin, TxIn.serialize_length_lt hempty⟩
      rw [hhas] at hlen
      simp only [if_true] at hlen
      omega

/-- The transactions of a list take at least their encodings. -/
lemma readMany_deserialize_length {n : ℕ} {data : Bytes} {start offset : ℕ} {txs : List Transaction}
    (h : readMany deserialize n data start = .ok (txs, offset)) (hstart : start ≤ data.length) :
    offset ≤ data.length ∧ start + (txs.flatMap (·.serialize true)).length ≤ offset ∧
      ((∃ tx ∈ txs, ¬ tx.UniformWitness) →
        start + (txs.flatMap (·.serialize true)).length < offset) := by
  induction n generalizing start txs with
  | zero =>
    obtain ⟨rfl, rfl⟩ := Reader.pure_ok.1 h
    exact ⟨hstart, by simp, by simp⟩
  | succ n ih =>
    obtain ⟨tx, offset₁, h₁, h⟩ := Reader.bind_ok.1 h
    obtain ⟨rest, offset₂, h₂, h⟩ := Reader.bind_ok.1 h
    obtain ⟨rfl, rfl⟩ := Reader.pure_ok.1 h
    obtain ⟨hend₁, hle₁, hlt₁⟩ := deserialize_length h₁
    obtain ⟨hend, hle, hlt⟩ := ih h₂ hend₁
    rw [List.flatMap_cons, List.length_append]
    refine ⟨hend, by omega, ?_⟩
    rintro ⟨tx', hmem, hmixed⟩
    rcases List.mem_cons.1 hmem with rfl | hmem
    · have := hlt₁ hmixed
      omega
    · have := hlt ⟨tx', hmem, hmixed⟩
      omega

end Transaction

/-- The field ranges of a block that its Lean type does not already impose. -/
structure Block.InRange (block : Block) : Prop where
  prevBlockHash : block.header.prevBlockHash.length = 32
  merkleRoot : block.header.merkleRoot.length = 32
  count : block.transactions.length < 2 ^ 64
  transactions : ∀ tx ∈ block.transactions, tx.InRange
  witnesses : ∀ tx ∈ block.transactions, ∀ txin ∈ tx.vin, WitnessInRange txin.witness

namespace Block

lemma header_decodes {header : BlockHeader} (hprev : header.prevBlockHash.length = 32)
    (hroot : header.merkleRoot.length = 32) :
    Reader.Decodes BlockHeader.deserialize header.serialize header := by
  unfold BlockHeader.deserialize BlockHeader.serialize
  exact (readUint32_decodes _).bind ((readBytes_decodes hprev).bind ((readBytes_decodes hroot).bind
    ((readUint32_decodes _).bind ((readUint32_decodes _).bind ((readUint32_decodes _).map
      (g := BlockHeader.mk header.version header.prevBlockHash header.merkleRoot header.timestamp
        header.bits))))))

lemma deserialize_decodes {block : Block} (h : block.InRange)
    (hvin : ∀ tx ∈ block.transactions, tx.vin ≠ [])
    (huniform : ∀ tx ∈ block.transactions, tx.UniformWitness) :
    Reader.Decodes deserialize (block.serialize true) block := by
  have htxs := @Reader.Decodes.many _ Transaction.deserialize (·.serialize true) block.transactions
      fun tx htx => by
      have hshort := Transaction.readShort_decodes (hvin tx htx) (h.transactions tx htx)
        (h.witnesses tx htx) (huniform tx htx).hasWitness
      intro pre post
      exact Transaction.readShort_refines _ _ _ (hshort pre post)
  unfold deserialize serialize
  exact (header_decodes h.prevBlockHash h.merkleRoot).bind ((readVarint_decodes h.count).bind
    (htxs.map (g := Block.mk block.header)))

/-- Also where the decoder would go on past a mixed transaction, it does not come back to the
block that was encoded. -/
lemma uniform_of_deserialize {block : Block} {offset : ℕ} (h : block.InRange)
    (hdec : deserialize (block.serialize true) 0 = .ok (block, offset)) :
    ∀ tx ∈ block.transactions, tx.UniformWitness := by
  obtain ⟨header, offset₁, h₁, hdec⟩ := Reader.bind_ok.1 hdec
  obtain ⟨n, offset₂, h₂, hdec⟩ := Reader.bind_ok.1 hdec
  obtain ⟨txs, offset₃, h₃, hdec⟩ := Reader.bind_ok.1 hdec
  obtain ⟨hblock, -⟩ := Reader.pure_ok.1 hdec
  have hheader := header_decodes h.prevBlockHash h.merkleRoot []
    (writeVarint block.transactions.length ++ block.transactions.flatMap (·.serialize true))
  have hcount := readVarint_decodes h.count block.header.serialize
    (block.transactions.flatMap (·.serialize true))
  simp only [List.nil_append, List.length_nil, Nat.zero_add] at hheader
  have hser : block.serialize true = block.header.serialize ++
    (writeVarint block.transactions.length ++ block.transactions.flatMap (·.serialize true)) := rfl
  rw [hser] at h₁ h₂ h₃
  rw [hheader] at h₁
  cases h₁
  rw [hcount] at h₂
  cases h₂
  have htxs : txs = block.transactions := (congrArg Block.transactions hblock).symm
  subst htxs
  have hlen : (block.header.serialize ++ (writeVarint block.transactions.length ++
      block.transactions.flatMap (·.serialize true))).length = block.header.serialize.length +
        ((writeVarint block.transactions.length).length +
          (block.transactions.flatMap (·.serialize true)).length) := by
    simp only [List.length_append]
  obtain ⟨hend, -, hlt⟩ := Transaction.readMany_deserialize_length h₃ (by omega)
  intro tx htx
  by_contra hmixed
  have := hlt ⟨tx, htx, hmixed⟩
  omega

theorem deserialize_eq_self_iff {block : Block} (h : block.InRange)
    (hvin : ∀ tx ∈ block.transactions, tx.vin ≠ []) :
    (∃ offset, deserialize (block.serialize true) 0 = .ok (block, offset)) ↔
      ∀ tx ∈ block.transactions, tx.UniformWitness := by
  constructor
  · rintro ⟨offset, hdec⟩
    exact uniform_of_deserialize h hdec
  · intro huniform
    have hdec := deserialize_decodes h hvin huniform [] []
    simp only [List.nil_append, List.append_nil, List.length_nil, Nat.zero_add] at hdec
    exact ⟨_, hdec⟩

end Block
end BerzCoin
