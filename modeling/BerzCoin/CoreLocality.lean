import BerzCoin.CoreBlockCodec

/-! Which bytes decide what a decoder returns: those that it takes, wherever they stand. A reader
may look one byte further as long as a later reader takes that byte. -/
namespace BerzCoin

namespace Reader
variable {α β : Type} {r : Reader α} {f : α → Reader β}

/-- What a reader takes lies in the data and decodes to the same value at any other place. -/
def Local (r : Reader α) : Prop :=
  ∀ pre rest a offset, r (pre ++ rest) pre.length = .ok (a, offset) →
    ∃ taken post, rest = taken ++ post ∧ offset = pre.length + taken.length ∧ r.Decodes taken a

/-- The same of a reader that stops at the end of the data, as long as it stops before. -/
def LocalInside (r : Reader α) : Prop :=
  ∀ pre rest a offset, r (pre ++ rest) pre.length = .ok (a, offset) →
    ∃ taken post, rest = taken ++ post ∧ offset = pre.length + taken.length ∧
      (post ≠ [] → r.Decodes taken a)

/-- A reader takes a byte at least and ends within the data. -/
def Advances (r : Reader α) : Prop :=
  ∀ data offset a offset', r data offset = .ok (a, offset') →
    offset < offset' ∧ offset' ≤ data.length

lemma Local.inside (hr : r.Local) : r.LocalInside := by
  intro pre rest a offset h
  obtain ⟨taken, post, hrest, hoffset, hdec⟩ := hr pre rest a offset h
  exact ⟨taken, post, hrest, hoffset, fun _ => hdec⟩

lemma pure_local (a : α) : (pure a : Reader α).Local := by
  intro pre rest b offset h
  obtain ⟨rfl, rfl⟩ := Reader.pure_ok.1 h
  exact ⟨[], rest, rfl, rfl, Reader.Decodes.pure _⟩

lemma Local.bind (hr : r.Local) (hf : ∀ a, (f a).Local) : (r >>= f).Local := by
  intro pre rest b offset h
  obtain ⟨a, offset₁, h₁, h₂⟩ := Reader.bind_ok.1 h
  obtain ⟨x, post, rfl, rfl, hx⟩ := hr _ _ _ _ h₁
  rw [← List.append_assoc, ← List.length_append] at h₂
  obtain ⟨y, post', rfl, rfl, hy⟩ := hf a _ _ _ _ h₂
  refine ⟨x ++ y, post', by rw [List.append_assoc], ?_, hx.bind hy⟩
  simp only [List.length_append]
  omega

lemma LocalInside.bind (hr : r.LocalInside) (hf : ∀ a, (f a).LocalInside) :
    (r >>= f).LocalInside := by
  intro pre rest b offset h
  obtain ⟨a, offset₁, h₁, h₂⟩ := Reader.bind_ok.1 h
  obtain ⟨x, post, rfl, rfl, hx⟩ := hr _ _ _ _ h₁
  rw [← List.append_assoc, ← List.length_append] at h₂
  obtain ⟨y, post', rfl, rfl, hy⟩ := hf a _ _ _ _ h₂
  refine ⟨x ++ y, post', by rw [List.append_assoc], ?_, ?_⟩
  · simp only [List.length_append]
    omega
  · intro hpost
    exact (hx (by simp [hpost])).bind (hy hpost)

/-- A byte that is taken afterwards shows that the first reader was not at the end. -/
lemma LocalInside.bind_local (hr : r.LocalInside) (hf : ∀ a, (f a).Local)
    (hadvances : ∀ a, (f a).Advances) : (r >>= f).Local := by
  intro pre rest b offset h
  obtain ⟨a, offset₁, h₁, h₂⟩ := Reader.bind_ok.1 h
  obtain ⟨x, post, rfl, rfl, hx⟩ := hr _ _ _ _ h₁
  rw [← List.append_assoc, ← List.length_append] at h₂
  have hlt := (hadvances a _ _ _ _ h₂).1
  obtain ⟨y, post', rfl, rfl, hy⟩ := hf a _ _ _ _ h₂
  have hne : y ≠ [] := List.ne_nil_of_length_pos (by omega)
  refine ⟨x ++ y, post', by rw [List.append_assoc], ?_, (hx (by simp [hne])).bind hy⟩
  simp only [List.length_append]
  omega

lemma Local.many (hr : r.Local) (n : ℕ) : (readMany r n).Local := by
  induction n with
  | zero => exact pure_local []
  | succ n ih => exact hr.bind fun a => ih.bind fun as => pure_local (a :: as)

lemma LocalInside.many (hr : r.LocalInside) (n : ℕ) : (readMany r n).LocalInside := by
  induction n with
  | zero => exact (pure_local []).inside
  | succ n ih => exact hr.bind fun a => ih.bind fun as => (pure_local (a :: as)).inside

/-- The data as the bytes before the offset and those after it. -/
lemma read_split {data : Bytes} {a : α} {offset offset' : ℕ}
    (h : r data offset = .ok (a, offset')) (hle : offset ≤ data.length) :
    r (data.take offset ++ data.drop offset) (data.take offset).length = .ok (a, offset') := by
  rw [List.take_append_drop, List.length_take_of_le hle, h]

/-- Bytes before the offset are not counted. -/
lemma LocalInside.bounds (hr : r.LocalInside) {data : Bytes} {a : α} {offset offset' : ℕ}
    (h : r data offset = .ok (a, offset')) (hle : offset ≤ data.length) :
    offset ≤ offset' ∧ offset' ≤ data.length := by
  obtain ⟨taken, post, hrest, hoffset, -⟩ := hr _ _ _ _ (read_split h hle)
  rw [List.length_take_of_le hle] at hoffset
  have htotal := congrArg List.length hrest
  rw [List.length_drop, List.length_append] at htotal
  omega

lemma Advances.bind (hr : r.Advances) (hf : ∀ a, (f a).LocalInside) : (r >>= f).Advances := by
  intro data offset b offset' h
  obtain ⟨a, offset₁, h₁, h₂⟩ := Reader.bind_ok.1 h
  obtain ⟨hlt, hle⟩ := hr _ _ _ _ h₁
  obtain ⟨hmono, hend⟩ := (hf a).bounds h₂ hle
  exact ⟨by omega, hend⟩

/-- What a local reader that takes a byte returns is decided by the bytes between the offsets. -/
lemma Local.decodes_slice (hr : r.Local) (hadvances : r.Advances) {data : Bytes} {a : α}
    {offset offset' : ℕ} (h : r data offset = .ok (a, offset')) :
    r.Decodes (slice data offset (offset' - offset)) a := by
  obtain ⟨hlt, hle⟩ := hadvances _ _ _ _ h
  have hstart : offset ≤ data.length := by omega
  obtain ⟨taken, post, hrest, hoffset, hdec⟩ := hr _ _ _ _ (read_split h hstart)
  rw [List.length_take_of_le hstart] at hoffset
  have htaken : slice data offset (offset' - offset) = taken := by
    rw [slice, hrest, show offset' - offset = taken.length by omega, List.take_left]
  rwa [htaken]

/-- Other bytes after those taken change nothing. -/
lemma Local.append (hr : r.Local) (hadvances : r.Advances) {data : Bytes} {a : α}
    {offset offset' : ℕ} (h : r data offset = .ok (a, offset')) (post : Bytes) :
    r (data.take offset' ++ post) offset = .ok (a, offset') := by
  obtain ⟨hlt, hle⟩ := hadvances _ _ _ _ h
  have hlen : (data.take offset).length = offset := List.length_take_of_le (by omega)
  have htaken : (slice data offset (offset' - offset)).length = offset' - offset :=
    slice_length (by omega)
  have hsplit : data.take offset' = data.take offset ++ slice data offset (offset' - offset) := by
    rw [slice, ← List.take_add, Nat.add_sub_cancel' hlt.le]
  have hdec := hr.decodes_slice hadvances h (data.take offset) post
  rw [hlen, htaken, Nat.add_sub_cancel' hlt.le] at hdec
  rw [hsplit, List.append_assoc, hdec]

/-- However a counted loop ends, it has made no more rounds than there are bytes left. -/
def LoopsWithinData (r : Reader α) : Prop :=
  ∀ n data offset,
    (∀ as offset', readMany r n data offset = .ok (as, offset') → n ≤ data.length - offset) ∧
    ∀ e, readMany r n data offset = .error e →
      ∃ k < n, k ≤ data.length - offset ∧ ∃ as offset',
        readMany r k data offset = .ok (as, offset') ∧ r data offset' = .error e

lemma readMany_succ (r : Reader α) (n : ℕ) {data : Bytes} {a : α} {offset offset' : ℕ}
    (h : r data offset = .ok (a, offset')) :
    readMany r (n + 1) data offset =
      (readMany r n data offset').map fun p => (a :: p.1, p.2) := by
  change Reader.bind r _ data offset = _
  rw [Reader.bind, h]
  change Reader.bind (readMany r n) _ data offset' = _
  unfold Reader.bind
  cases readMany r n data offset' with
  | error e => rfl
  | ok p => rfl

lemma readMany_succ_error (r : Reader α) (n : ℕ) {data : Bytes} {offset : ℕ} {e : PyError}
    (h : r data offset = .error e) : readMany r (n + 1) data offset = .error e := by
  change Reader.bind r _ data offset = _
  rw [Reader.bind, h]

theorem Advances.loopsWithinData (hr : r.Advances) : r.LoopsWithinData := by
  intro n data offset
  induction n generalizing offset with
  | zero => exact ⟨fun _ _ _ => Nat.zero_le _, fun e h => by cases h⟩
  | succ n ih =>
    cases hfirst : r data offset with
    | error e =>
      rw [readMany_succ_error r n hfirst]
      refine ⟨fun as offset' h => (by cases h), ?_⟩
      intro e' h
      cases h
      exact ⟨0, by omega, by omega, [], offset, rfl, hfirst⟩
    | ok p =>
      obtain ⟨a, offset₁⟩ := p
      obtain ⟨hlt, hle⟩ := hr _ _ _ _ hfirst
      obtain ⟨hok, herror⟩ := ih offset₁
      rw [readMany_succ r n hfirst]
      cases hrest : readMany r n data offset₁ with
      | ok q =>
        have hn := hok q.1 q.2 hrest
        exact ⟨fun _ _ _ => by omega, fun e h => by cases h⟩
      | error e =>
        refine ⟨fun as offset' h => (by cases h), ?_⟩
        intro e' h
        cases h
        obtain ⟨k, hk, hbound, as, offset', hmany, hfail⟩ := herror e hrest
        refine ⟨k + 1, by omega, by omega, a :: as, offset', ?_, hfail⟩
        rw [readMany_succ r k hfirst, hmany]
        rfl

/-- A reader of a fixed number of bytes. -/
lemma local_of_slice {width : ℕ} (value : Bytes → α) {e : Bytes → ℕ → PyError}
    (hr : ∀ data offset, r data offset = if data.length < offset + width then .error (e data offset)
      else .ok (value (slice data offset width), offset + width)) : r.Local := by
  intro pre rest a offset h
  rw [hr] at h
  split_ifs at h with hlt
  cases h
  rw [List.length_append] at hlt
  have hlen : (rest.take width).length = width := List.length_take_of_le (by omega)
  refine ⟨rest.take width, rest.drop width, (List.take_append_drop _ _).symm, by rw [hlen], ?_⟩
  intro pre' post'
  have hslice := slice_append_right pre' (rest.take width) post'
  rw [hlen] at hslice
  have hlt' : ¬(pre' ++ (rest.take width ++ post')).length < pre'.length + width := by
    simp only [List.length_append, hlen]
    omega
  rw [hr, if_neg hlt', hslice, hlen, slice, List.drop_left]

lemma advances_of_slice {width : ℕ} (value : Bytes → α) {e : Bytes → ℕ → PyError} (hpos : 0 < width)
    (hr : ∀ data offset, r data offset = if data.length < offset + width then .error (e data offset)
      else .ok (value (slice data offset width), offset + width)) : r.Advances := by
  intro data offset a offset' h
  rw [hr] at h
  split_ifs at h with hlt
  cases h
  omega

end Reader

/-! The readers of the serializer. -/
namespace Serializer

lemma readBytes_local (length : ℕ) : (readBytes length).Local :=
  Reader.local_of_slice id fun _ _ => rfl

lemma readBytes_advances {length : ℕ} (hpos : 0 < length) : (readBytes length).Advances :=
  Reader.advances_of_slice id hpos fun _ _ => rfl

lemma unpackFrom_local (width : ℕ) : (unpackFrom width).Local :=
  Reader.local_of_slice leNat fun _ _ => rfl

lemma unpackFrom_advances {width : ℕ} (hpos : 0 < width) : (unpackFrom width).Advances :=
  Reader.advances_of_slice leNat hpos fun _ _ => rfl

lemma readUint32_local : readUint32.Local :=
  (unpackFrom_local 4).bind fun _ => Reader.pure_local _

lemma readUint32_advances : readUint32.Advances :=
  (unpackFrom_advances (by omega)).bind fun _ => (Reader.pure_local _).inside

lemma readUint64_local : readUint64.Local :=
  (unpackFrom_local 8).bind fun _ => Reader.pure_local _

lemma readUint64_advances : readUint64.Advances :=
  (unpackFrom_advances (by omega)).bind fun _ => (Reader.pure_local _).inside

/-- The first byte of a varint. -/
def readFirst : Reader UInt8 := fun data offset =>
  match data[offset]? with
  | none => .error (.valueError "Insufficient data for varint")
  | some first => .ok (first, offset + 1)

/-- The rest of a varint. -/
def readRest (first : UInt8) : Reader ℕ :=
  if first < 0xfd then pure first.toNat
  else if first = 0xfd then readVarintTail 2
  else if first = 0xfe then readVarintTail 4
  else readVarintTail 8

lemma readVarint_eq_bind : readVarint = (readFirst >>= readRest) := by
  funext data offset
  change _ = Reader.bind readFirst readRest data offset
  unfold readVarint Reader.bind readFirst
  cases data[offset]? with
  | none => rfl
  | some first =>
    simp only [readRest]
    split_ifs <;> rfl

lemma readFirst_local : readFirst.Local := by
  intro pre rest a offset h
  cases rest with
  | nil => simp [readFirst] at h
  | cons first rest =>
    simp only [readFirst, List.getElem?_append_right le_rfl, Nat.sub_self, List.getElem?_cons_zero,
      Except.ok.injEq, Prod.mk.injEq] at h
    obtain ⟨rfl, rfl⟩ := h
    refine ⟨[first], rest, rfl, rfl, ?_⟩
    intro pre' post'
    simp [readFirst]

lemma readFirst_advances : readFirst.Advances := by
  intro data offset a offset' h
  unfold readFirst at h
  cases hfirst : data[offset]? with
  | none => simp [hfirst] at h
  | some first =>
    obtain ⟨hlt, -⟩ := List.getElem?_eq_some_iff.1 hfirst
    simp only [hfirst, Except.ok.injEq, Prod.mk.injEq] at h
    omega

lemma readRest_local (first : UInt8) : (readRest first).Local := by
  have htail (width : ℕ) : (readVarintTail width).Local :=
    Reader.local_of_slice leNat fun _ _ => rfl
  unfold readRest
  split_ifs
  · exact Reader.pure_local _
  · exact htail 2
  · exact htail 4
  · exact htail 8

lemma readVarint_local : readVarint.Local := by
  rw [readVarint_eq_bind]
  exact readFirst_local.bind readRest_local

lemma readVarint_advances : readVarint.Advances := by
  rw [readVarint_eq_bind]
  exact readFirst_advances.bind fun first => (readRest_local first).inside

lemma readVarBytes_local : Reader.Local (do let length ← readVarint; readBytes length) :=
  readVarint_local.bind readBytes_local

lemma readVarBytes_advances : Reader.Advances (do let length ← readVarint; readBytes length) :=
  readVarint_advances.bind fun length => (readBytes_local length).inside

end Serializer
open Serializer

/-! The decoders. -/

lemma Witness.readItems_local : Reader.Local (do
    let nItems ← readVarint
    readMany (do let length ← readVarint; readBytes length) nItems) :=
  readVarint_local.bind fun nItems => readVarBytes_local.many nItems

/-- At the end of the data there are no items, so a stack there is not decided by its own bytes. -/
lemma Witness.deserialize_localInside : Witness.deserialize.LocalInside := by
  intro pre rest items offset h
  unfold Witness.deserialize at h
  split_ifs at h with hend
  · cases h
    have hnil : rest = [] := by
      rw [List.length_append] at hend
      exact List.eq_nil_of_length_eq_zero (by omega)
    exact ⟨[], [], hnil, rfl, fun hne => absurd rfl hne⟩
  · have hadvances := readVarint_advances.bind fun nItems => (readVarBytes_local.many nItems).inside
    have hlt := (hadvances _ _ _ _ h).1
    obtain ⟨taken, post, hrest, rfl, hdec⟩ := Witness.readItems_local _ _ _ _ h
    refine ⟨taken, post, hrest, rfl, ?_⟩
    intro _ pre' post'
    have hinside : ¬(pre' ++ (taken ++ post')).length ≤ pre'.length := by
      simp only [List.length_append]
      omega
    rw [Witness.deserialize, if_neg hinside]
    exact hdec pre' post'

namespace TxIn

/-- What is read after the hash of the outpoint. -/
lemma afterHash_localInside (hasWitness : Bool) (prevTxHash : Bytes) : Reader.LocalInside (do
    let prevTxIndex ← readUint32
    let scriptSig ← (do let sigLen ← readVarint; readBytes sigLen)
    let sequence ← readUint32
    let witness ← if hasWitness then Witness.deserialize else pure []
    pure (TxIn.mk prevTxHash prevTxIndex scriptSig sequence witness)) := by
  refine readUint32_local.inside.bind fun prevTxIndex => readVarBytes_local.inside.bind
    fun scriptSig => readUint32_local.inside.bind fun sequence => ?_
  cases hasWitness with
  | false => exact (Reader.pure_local _).inside
  | true => exact Witness.deserialize_localInside.bind fun _ => (Reader.pure_local _).inside

lemma deserialize_localInside (hasWitness : Bool) : (TxIn.deserialize hasWitness).LocalInside :=
  (readBytes_local 32).inside.bind (afterHash_localInside hasWitness)

lemma deserialize_advances (hasWitness : Bool) : (TxIn.deserialize hasWitness).Advances :=
  (readBytes_advances (by omega)).bind (afterHash_localInside hasWitness)

end TxIn

namespace TxOut

lemma afterValue_local (value : UInt64) : Reader.Local (do
    let scriptPubkey ← (do let spkLen ← readVarint; readBytes spkLen)
    pure (TxOut.mk value scriptPubkey)) :=
  readVarBytes_local.bind fun _ => Reader.pure_local _

lemma deserialize_local : TxOut.deserialize.Local := readUint64_local.bind afterValue_local

lemma deserialize_advances : TxOut.deserialize.Advances :=
  readUint64_advances.bind fun value => (afterValue_local value).inside

end TxOut

namespace Transaction

/-- The byte that decides about the marker is taken, by the marker or by what follows. -/
lemma readMarker_bind_local {α : Type} {f : Bool → Reader α}
    (hf : ∀ hasWitness, (f hasWitness).Local) (hadvances : ∀ hasWitness, (f hasWitness).Advances) :
    (readMarker >>= f).Local := by
  intro pre rest a offset h
  obtain ⟨hasWitness, offset₁, hmarker, h⟩ := Reader.bind_ok.1 h
  have hhead : (pre ++ rest)[pre.length]? = rest[0]? := by
    rw [List.getElem?_append_right le_rfl, Nat.sub_self]
  have hnext : (pre ++ rest)[pre.length + 1]? = rest[1]? := by
    rw [List.getElem?_append_right (by omega), Nat.add_sub_cancel_left]
  unfold readMarker at hmarker
  rw [hhead, hnext] at hmarker
  split_ifs at hmarker with hzero
  · -- both bytes of the marker are taken
    cases hflag : rest[1]? with
    | none => simp [hflag] at hmarker
    | some flag =>
      obtain ⟨tail, rfl⟩ : ∃ tail, rest = 0x00 :: flag :: tail := by
        match rest, hzero, hflag with
        | b :: c :: tail, hzero, hflag =>
          simp only [List.getElem?_cons_zero, List.getElem?_cons_succ, Option.some.injEq]
            at hzero hflag
          exact ⟨tail, by rw [hzero, hflag]⟩
      simp only [hflag, Except.ok.injEq, Prod.mk.injEq] at hmarker
      obtain ⟨rfl, rfl⟩ := hmarker
      have h' : f (flag = 0x01) ((pre ++ [0x00, flag]) ++ tail) (pre ++ [0x00, flag]).length =
          .ok (a, offset) := by simpa using h
      obtain ⟨y, post, rfl, rfl, hy⟩ := hf _ _ _ _ _ h'
      refine ⟨0x00 :: flag :: y, post, rfl, by simp; omega, ?_⟩
      have hdec : Reader.Decodes readMarker [0x00, flag] (decide (flag = 0x01)) := by
        intro pre' post'
        simp [readMarker]
      exact hdec.bind hy
  · -- the byte at hand is the first one that `f` takes
    cases hmarker
    have hlt := (hadvances _ _ _ _ _ h).1
    obtain ⟨y, post, rfl, rfl, hy⟩ := hf _ _ _ _ _ h
    obtain ⟨b, y, rfl⟩ : ∃ b y', y = b :: y' := List.exists_cons_of_length_pos (by omega)
    refine ⟨b :: y, post, rfl, rfl, ?_⟩
    intro pre' post'
    have hb : b ≠ 0x00 := by simpa using hzero
    have hmarker' : readMarker (pre' ++ (b :: y ++ post')) pre'.length =
        .ok (false, pre'.length) := by
      simp [readMarker, hb]
    exact Reader.bind_ok.2 ⟨false, pre'.length, hmarker', hy pre' post'⟩

/-- What is read after the inputs. -/
lemma afterInputs_local (version : UInt32) (inputs : List TxIn) : Reader.Local (do
    let nOutputs ← readVarint
    let outputs ← readMany TxOut.deserialize nOutputs
    let locktime ← readUint32
    pure (Transaction.mk version inputs outputs locktime)) :=
  readVarint_local.bind fun nOutputs => (TxOut.deserialize_local.many nOutputs).bind
    fun _ => readUint32_local.bind fun _ => Reader.pure_local _

lemma afterInputs_advances (version : UInt32) (inputs : List TxIn) : Reader.Advances (do
    let nOutputs ← readVarint
    let outputs ← readMany TxOut.deserialize nOutputs
    let locktime ← readUint32
    pure (Transaction.mk version inputs outputs locktime)) :=
  readVarint_advances.bind fun nOutputs => ((TxOut.deserialize_local.many nOutputs).bind
    fun _ => readUint32_local.bind fun _ => Reader.pure_local _).inside

/-- What is read after the version. A stack at the end of the data cannot be the last thing that
a transaction reads. -/
lemma afterVersion_local (version : UInt32) : Reader.Local (do
    let hasWitness ← readMarker
    let nInputs ← readVarint
    let inputs ← readMany (TxIn.deserialize hasWitness) nInputs
    let nOutputs ← readVarint
    let outputs ← readMany TxOut.deserialize nOutputs
    let locktime ← readUint32
    pure (Transaction.mk version inputs outputs locktime)) := by
  have hinputs (hasWitness : Bool) (nInputs : ℕ) : Reader.Local (do
      let inputs ← readMany (TxIn.deserialize hasWitness) nInputs
      let nOutputs ← readVarint
      let outputs ← readMany TxOut.deserialize nOutputs
      let locktime ← readUint32
      pure (Transaction.mk version inputs outputs locktime)) :=
    ((TxIn.deserialize_localInside hasWitness).many nInputs).bind_local (afterInputs_local version)
      (afterInputs_advances version)
  apply readMarker_bind_local
  · intro hasWitness
    exact readVarint_local.bind (hinputs hasWitness)
  · intro hasWitness
    exact readVarint_advances.bind fun nInputs => (hinputs hasWitness nInputs).inside

lemma deserialize_local : Transaction.deserialize.Local := readUint32_local.bind afterVersion_local

lemma deserialize_advances : Transaction.deserialize.Advances :=
  readUint32_advances.bind fun version => (afterVersion_local version).inside

end Transaction

namespace BlockHeader

lemma afterVersion_local (version : UInt32) : Reader.Local (do
    let prevBlockHash ← readBytes 32
    let merkleRoot ← readBytes 32
    let timestamp ← readUint32
    let bits ← readUint32
    let nonce ← readUint32
    pure (BlockHeader.mk version prevBlockHash merkleRoot timestamp bits nonce)) :=
  (readBytes_local 32).bind fun _ => (readBytes_local 32).bind fun _ => readUint32_local.bind
    fun _ => readUint32_local.bind fun _ => readUint32_local.bind fun _ => Reader.pure_local _

lemma deserialize_local : BlockHeader.deserialize.Local := readUint32_local.bind afterVersion_local

lemma deserialize_advances : BlockHeader.deserialize.Advances :=
  readUint32_advances.bind fun version => (afterVersion_local version).inside

end BlockHeader

namespace Block

lemma afterHeader_local (header : BlockHeader) : Reader.Local (do
    let nTransactions ← readVarint
    let transactions ← readMany Transaction.deserialize nTransactions
    pure (Block.mk header transactions)) :=
  readVarint_local.bind fun nTransactions =>
    (Transaction.deserialize_local.many nTransactions).bind fun _ => Reader.pure_local _

lemma deserialize_local : Block.deserialize.Local :=
  BlockHeader.deserialize_local.bind afterHeader_local

lemma deserialize_advances : Block.deserialize.Advances :=
  BlockHeader.deserialize_advances.bind fun header => (afterHeader_local header).inside

end Block

/-! The lists of what is decoded. -/

/-- No list of a transaction and no byte string in it is longer than `n`. -/
structure Transaction.ListsWithin (tx : Transaction) (n : ℕ) : Prop where
  vin : tx.vin.length ≤ n
  vout : tx.vout.length ≤ n
  witness : ∀ txin ∈ tx.vin, txin.witness.length ≤ n
  scriptSig : ∀ txin ∈ tx.vin, txin.scriptSig.length ≤ n
  items : ∀ txin ∈ tx.vin, ∀ item ∈ txin.witness, item.length ≤ n
  scriptPubkey : ∀ txout ∈ tx.vout, txout.scriptPubkey.length ≤ n

structure Block.ListsWithin (block : Block) (n : ℕ) : Prop where
  transactions : block.transactions.length ≤ n
  each : ∀ tx ∈ block.transactions, tx.ListsWithin n

lemma length_le_flatMap {α : Type} {xs : List α} {f : α → Bytes}
    (hpos : ∀ x ∈ xs, 1 ≤ (f x).length) : xs.length ≤ (xs.flatMap f).length := by
  rw [flatMap_length, ← List.length_map (fun x => (f x).length)]
  apply List.length_le_sum_of_one_le
  intro n hn
  obtain ⟨x, hx, rfl⟩ := List.mem_map.1 hn
  exact hpos x hx

lemma length_le_flatMap_of_mem {α : Type} {xs : List α} {f : α → Bytes} {x : α} (hx : x ∈ xs) :
    (f x).length ≤ (xs.flatMap f).length := by
  rw [flatMap_length]
  exact List.le_sum_of_mem (List.mem_map_of_mem hx)

lemma length_le_writeBytes (data : Bytes) : data.length + 1 ≤ (writeBytes data).length := by
  rw [writeBytes, List.length_append, writeVarint_length]
  split_ifs <;> omega

lemma Witness.lists_le_serialize (items : List Bytes) :
    items.length ≤ (Witness.serialize items).length ∧
      ∀ item ∈ items, item.length ≤ (Witness.serialize items).length := by
  unfold Witness.serialize
  split_ifs with hnil
  · subst hnil
    exact ⟨le_rfl, fun item hitem => by cases hitem⟩
  · rw [List.length_append]
    constructor
    · have hitems : items.length ≤ (items.flatMap writeBytes).length := by
        apply length_le_flatMap
        intro item _
        have := length_le_writeBytes item
        omega
      omega
    · intro item hitem
      have hbytes := length_le_writeBytes item
      have hle := length_le_flatMap_of_mem (f := writeBytes) hitem
      omega

lemma TxIn.lists_le_serialize (txin : TxIn) :
    txin.scriptSig.length + 1 ≤ (txin.serialize false).length ∧
      txin.witness.length ≤ (txin.serialize true).length ∧
      (∀ item ∈ txin.witness, item.length ≤ (txin.serialize true).length) := by
  obtain ⟨hlist, hitems⟩ := Witness.lists_le_serialize txin.witness
  have hlength := TxIn.serialize_length true txin
  rw [if_pos rfl] at hlength
  refine ⟨?_, by omega, ?_⟩
  · have hsig := length_le_writeBytes txin.scriptSig
    simp only [TxIn.serialize, List.length_append]
    omega
  · intro item hitem
    have := hitems item hitem
    omega

/-- The encoding of a transaction is at least as long as each of its lists. -/
lemma Transaction.listsWithin_serialize (tx : Transaction) :
    tx.ListsWithin (tx.serialize true).length := by
  have hlength := Transaction.serialize_length tx
  rw [← flatMap_length, ← flatMap_length] at hlength
  have hbase (txin : TxIn) :
      (txin.serialize false).length ≤ (txin.serialize tx.hasWitness).length := by
    rw [TxIn.serialize_length tx.hasWitness]
    omega
  have hin (txin : TxIn) (htxin : txin ∈ tx.vin) : (txin.serialize tx.hasWitness).length ≤
      (tx.vin.flatMap fun txin => txin.serialize tx.hasWitness).length :=
    length_le_flatMap_of_mem (f := fun txin => txin.serialize tx.hasWitness) htxin
  have hwitness (txin : TxIn) (htxin : txin ∈ tx.vin) (hne : txin.witness ≠ []) :
      (txin.serialize true).length ≤ (tx.serialize true).length := by
    have hhas : tx.hasWitness = true := by
      rw [Transaction.hasWitness, List.any_eq_true]
      exact ⟨txin, htxin, by simpa using hne⟩
    have hle := hin txin htxin
    rw [hhas] at hle hlength
    omega
  constructor
  · have hle : tx.vin.length ≤
        (tx.vin.flatMap fun txin => txin.serialize tx.hasWitness).length := by
      apply length_le_flatMap
      intro txin _
      have hsig := (TxIn.lists_le_serialize txin).1
      have := hbase txin
      omega
    omega
  · have hle : tx.vout.length ≤ (tx.vout.flatMap TxOut.serialize).length := by
      apply length_le_flatMap
      intro txout _
      simp [TxOut.serialize, writeUint64]
      omega
    omega
  · intro txin htxin
    by_cases hnil : txin.witness = []
    · simp [hnil]
    · exact (TxIn.lists_le_serialize txin).2.1.trans (hwitness txin htxin hnil)
  · intro txin htxin
    have hsig := (TxIn.lists_le_serialize txin).1
    have hle := hin txin htxin
    have := hbase txin
    omega
  · intro txin htxin item hitem
    have hle := (TxIn.lists_le_serialize txin).2.2 item hitem
    exact hle.trans (hwitness txin htxin (List.ne_nil_of_mem hitem))
  · intro txout htxout
    have hle := length_le_flatMap_of_mem (f := TxOut.serialize) htxout
    have hspk := length_le_writeBytes txout.scriptPubkey
    simp only [TxOut.serialize, List.length_append] at hle
    omega

lemma Transaction.ListsWithin.mono {tx : Transaction} {m n : ℕ} (h : tx.ListsWithin m)
    (hle : m ≤ n) : tx.ListsWithin n where
  vin := h.vin.trans hle
  vout := h.vout.trans hle
  witness txin htxin := (h.witness txin htxin).trans hle
  scriptSig txin htxin := (h.scriptSig txin htxin).trans hle
  items txin htxin item hitem := (h.items txin htxin item hitem).trans hle
  scriptPubkey txout htxout := (h.scriptPubkey txout htxout).trans hle

namespace Transaction

lemma one_le_length_serialize (tx : Transaction) : 1 ≤ (tx.serialize true).length := by
  have := serialize_length tx
  omega

lemma listsWithin_of_deserialize {data : Bytes} {tx : Transaction} {offset offset' : ℕ}
    (h : deserialize data offset = .ok (tx, offset')) : tx.ListsWithin (offset' - offset) := by
  obtain ⟨-, hle, -⟩ := deserialize_length h
  exact tx.listsWithin_serialize.mono (by omega)

end Transaction

namespace Block

lemma listsWithin_of_deserialize {data : Bytes} {block : Block} {offset offset' : ℕ}
    (h : deserialize data offset = .ok (block, offset')) :
    block.ListsWithin (offset' - offset) := by
  obtain ⟨header, offset₁, h₁, h⟩ := Reader.bind_ok.1 h
  obtain ⟨nTransactions, offset₂, h₂, h⟩ := Reader.bind_ok.1 h
  obtain ⟨transactions, offset₃, h₃, h⟩ := Reader.bind_ok.1 h
  obtain ⟨rfl, rfl⟩ := Reader.pure_ok.1 h
  have hheader := BlockHeader.deserialize_advances _ _ _ _ h₁
  have hcount := readVarint_advances _ _ _ _ h₂
  obtain ⟨-, hle, -⟩ := Transaction.readMany_deserialize_length h₃ hcount.2
  constructor
  · have hlength : transactions.length ≤ (transactions.flatMap (·.serialize true)).length :=
      length_le_flatMap fun tx _ => tx.one_le_length_serialize
    change transactions.length ≤ _
    omega
  · intro tx htx
    have hone : (tx.serialize true).length ≤ (transactions.flatMap (·.serialize true)).length :=
      length_le_flatMap_of_mem (f := fun tx => tx.serialize true) htx
    exact tx.listsWithin_serialize.mono (by omega)

end Block

/-- What `deserialize` returns at an offset is decided by the bytes from there to the new offset,
in whatever data they stand, and no list in it is longer than they are. The counted loops on the
way end within the data, whatever the count. -/
theorem deserialize_between_offsets (data : Bytes) (offset : ℕ) :
    (∀ tx offset', Transaction.deserialize data offset = .ok (tx, offset') →
      offset < offset' ∧ offset' ≤ data.length ∧
        Reader.Decodes Transaction.deserialize (slice data offset (offset' - offset)) tx ∧
        (∀ post, Transaction.deserialize (data.take offset' ++ post) offset = .ok (tx, offset')) ∧
        tx.ListsWithin (offset' - offset)) ∧
    (∀ block offset', Block.deserialize data offset = .ok (block, offset') →
      offset < offset' ∧ offset' ≤ data.length ∧
        Reader.Decodes Block.deserialize (slice data offset (offset' - offset)) block ∧
        (∀ post, Block.deserialize (data.take offset' ++ post) offset = .ok (block, offset')) ∧
        block.ListsWithin (offset' - offset)) ∧
    (∀ hasWitness, (TxIn.deserialize hasWitness).LoopsWithinData) ∧
    Reader.LoopsWithinData (do let length ← readVarint; readBytes length) ∧
    TxOut.deserialize.LoopsWithinData ∧ Transaction.deserialize.LoopsWithinData := by
  refine ⟨?_, ?_, ?_, ?_, ?_, ?_⟩
  · intro tx offset' h
    obtain ⟨hlt, hle⟩ := Transaction.deserialize_advances _ _ _ _ h
    exact ⟨hlt, hle, Transaction.deserialize_local.decodes_slice Transaction.deserialize_advances h,
      Transaction.deserialize_local.append Transaction.deserialize_advances h,
      Transaction.listsWithin_of_deserialize h⟩
  · intro block offset' h
    obtain ⟨hlt, hle⟩ := Block.deserialize_advances _ _ _ _ h
    exact ⟨hlt, hle, Block.deserialize_local.decodes_slice Block.deserialize_advances h,
      Block.deserialize_local.append Block.deserialize_advances h,
      Block.listsWithin_of_deserialize h⟩
  · intro hasWitness
    exact (TxIn.deserialize_advances hasWitness).loopsWithinData
  · exact readVarBytes_advances.loopsWithinData
  · exact TxOut.deserialize_advances.loopsWithinData
  · exact Transaction.deserialize_advances.loopsWithinData

/-! A block between other bytes. -/
namespace LocalityExample
open Transaction.CodecExample

def tx : Transaction := txWith [inputWith [[0x01], []]]

def block : Block := ⟨⟨1, zeroHash, zeroHash, 1000, 0x207fffff, 0⟩, [tx]⟩

def data : Bytes := [0xaa, 0xbb] ++ (block.serialize true ++ [0x00, 0x01])

end LocalityExample

open LocalityExample in
theorem deserialize_between_offsets_block :
    (∃ offset', Transaction.deserialize data 83 = .ok (tx, offset') ∧
      offset' + 2 = data.length ∧ tx.ListsWithin (offset' - 83)) ∧
    ∃ offset', Block.deserialize data 2 = .ok (block, offset') ∧
      offset' + 2 = data.length ∧ block.ListsWithin (offset' - 2) := by
  have htx : Transaction.deserialize data 83 = .ok (tx, data.length - 2) := by decide +kernel
  have hblock : Block.deserialize data 2 = .ok (block, data.length - 2) := by decide +kernel
  obtain ⟨-, -, -, -, hwithin⟩ := (deserialize_between_offsets data 83).1 _ _ htx
  obtain ⟨-, -, -, -, hwithinBlock⟩ := (deserialize_between_offsets data 2).2.1 _ _ hblock
  exact ⟨⟨_, htx, by decide +kernel, hwithin⟩, ⟨_, hblock, by decide +kernel, hwithinBlock⟩⟩

end BerzCoin
