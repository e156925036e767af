import BerzCoin.Bytes

/-! The wire encodings of `Serializer` and `VarInt`. A reader takes the whole byte
string and an offset, as in the source, and returns the value and the next offset. -/
namespace BerzCoin

/-- The exceptions the modelled code raises, with their texts. -/
inductive PyError
  | valueError (msg : String)
  | structError (msg : String)
  | indexError (msg : String)
  | typeError (msg : String)
  | overflowError (msg : String)
  | storageError (msg : String)
  | runtimeError (msg : String)
  | attributeError (msg : String)
  deriving DecidableEq, Repr

lemma except_bind_eq_ok {ε α β : Type} {x : Except ε α} {f : α → Except ε β} {b : β}
    (h : x >>= f = .ok b) : ∃ a, x = .ok a ∧ f a = .ok b := by
  cases x with
  | error e => cases h
  | ok a => exact ⟨a, rfl, h⟩

def hexDigit (n : ℕ) : Char := "0123456789abcdef".toList.getD n '0'

/-- `bytes.hex()`. -/
def hex (data : Bytes) : String :=
  String.ofList (data.flatMap fun b => [hexDigit (b.toNat / 16), hexDigit (b.toNat % 16)])

abbrev Reader (α : Type) := Bytes → ℕ → Except PyError (α × ℕ)

/-- Decode one value and hand it to the next reader at the new offset. -/
def Reader.bind {α β : Type} (r : Reader α) (f : α → Reader β) : Reader β :=
  fun data offset =>
    match r data offset with
    | .ok (a, offset') => f a data offset'
    | .error e => .error e

instance : Monad Reader where
  pure a := fun _ offset => .ok (a, offset)
  bind := Reader.bind

/-- `[read() for _ in range(n)]`. -/
def readMany {α : Type} (r : Reader α) : ℕ → Reader (List α)
  | 0 => pure []
  | n + 1 => do
      let a ← r
      let as ← readMany r n
      pure (a :: as)

namespace Serializer

def readBytes (length : ℕ) : Reader Bytes := fun data offset =>
  if data.length < offset + length then
    .error (.valueError ("Not enough data: need " ++ toString length ++ ", have " ++
      toString ((data.length : ℤ) - offset)))
  else .ok (slice data offset length, offset + length)

/-- `struct.unpack_from` of a little-endian unsigned field of `width` bytes. -/
def unpackFrom (width : ℕ) : Reader ℕ := fun data offset =>
  if data.length < offset + width then .error (.structError "unpack_from requires a larger buffer")
  else .ok (leNat (slice data offset width), offset + width)

def readUint32 : Reader UInt32 := do
  let n ← unpackFrom 4
  pure (UInt32.ofNat n)

def readUint64 : Reader UInt64 := do
  let n ← unpackFrom 8
  pure (UInt64.ofNat n)

/-- The bytes after the marker of a multi-byte varint. -/
def readVarintTail (width : ℕ) : Reader ℕ := fun data offset =>
  if data.length < offset + width then .error (.valueError "Insufficient data for varint")
  else .ok (leNat (slice data offset width), offset + width)

/-- `VarInt.decode`: one marker byte, then zero, two, four or eight bytes. -/
def readVarint : Reader ℕ := fun data offset =>
  match data[offset]? with
  | none => .error (.valueError "Insufficient data for varint")
  | some first =>
    if first < 0xfd then .ok (first.toNat, offset + 1)
    else if first = 0xfd then readVarintTail 2 data (offset + 1)
    else if first = 0xfe then readVarintTail 4 data (offset + 1)
    else readVarintTail 8 data (offset + 1)

def writeUint32 (value : UInt32) : Bytes := leBytes 4 value.toNat
def writeUint64 (value : UInt64) : Bytes := leBytes 8 value.toNat

/-- `VarInt.encode`. Its arguments are lengths of byte strings and lists. -/
def writeVarint (value : ℕ) : Bytes :=
  if value < 0xfd then leBytes 1 value
  else if value ≤ 0xffff then 0xfd :: leBytes 2 value
  else if value ≤ 0xffffffff then 0xfe :: leBytes 4 value
  else 0xff :: leBytes 8 value

def writeBytes (data : Bytes) : Bytes := writeVarint data.length ++ data

end Serializer

/-- A reader inverts an encoding wherever the encoded bytes stand in the input. -/
def Reader.Decodes {α : Type} (r : Reader α) (encoded : Bytes) (a : α) : Prop :=
  ∀ pre post : Bytes, r (pre ++ (encoded ++ post)) pre.length = .ok (a, pre.length + encoded.length)

namespace Reader.Decodes

variable {α β : Type} {r : Reader α} {f : α → Reader β} {x y : Bytes} {a : α} {b : β}

lemma pure (a : α) : Reader.Decodes (Pure.pure a) [] a := by
  intro pre post
  rfl

/-- Consecutive fields decode one after the other. -/
lemma bind (hr : Reader.Decodes r x a) (hf : Reader.Decodes (f a) y b) :
    Reader.Decodes (r >>= f) (x ++ y) b := by
  intro pre post
  have hx := hr pre (y ++ post)
  have hy := hf (pre ++ x) post
  simp only [List.append_assoc, List.length_append] at hx hy ⊢
  change Reader.bind r f _ _ = _
  rw [Reader.bind, hx]
  simpa only [Nat.add_assoc] using hy

/-- The last field, followed by the constructor of the decoded value. -/
lemma map {g : α → β} (hr : Reader.Decodes r x a) :
    Reader.Decodes (r >>= fun v => Pure.pure (g v)) x (g a) := by
  have h := hr.bind (f := fun v => Pure.pure (g v)) (Reader.Decodes.pure (g a))
  rwa [List.append_nil] at h

lemma many {enc : α → Bytes} (as : List α) (h : ∀ a ∈ as, Reader.Decodes r (enc a) a) :
    Reader.Decodes (readMany r as.length) (as.flatMap enc) as := by
  induction as with
  | nil => exact Reader.Decodes.pure []
  | cons a as ih =>
    have ht := ih fun b hb => h b (List.mem_cons_of_mem a hb)
    exact (h a (by simp)).bind (ht.map (g := (a :: ·)))

/-- Decodable encodings of different values never coincide. -/
lemma unique {a' : α} (h : Reader.Decodes r x a) (h' : Reader.Decodes r x a') : a = a' := by
  have he := (h [] []).symm.trans (h' [] [])
  simpa using he

end Reader.Decodes

namespace Serializer

lemma readBytes_decodes {length : ℕ} {data : Bytes} (h : data.length = length) :
    Reader.Decodes (readBytes length) data data := by
  intro pre post
  subst h
  have hle : ¬ (pre ++ (data ++ post)).length < pre.length + data.length := by
    simp only [List.length_append]
    omega
  simp only [readBytes, if_neg hle, slice_append_right]

/-- A reader of a little-endian field of `width` bytes, whatever it raises where there are fewer. -/
def ReadsLe (width : ℕ) (r : Reader ℕ) : Prop :=
  ∃ e, ∀ data offset, r data offset =
    if data.length < offset + width then .error e
    else .ok (leNat (slice data offset width), offset + width)

lemma readsLe_unpackFrom (width : ℕ) : ReadsLe width (unpackFrom width) := ⟨_, fun _ _ => rfl⟩

lemma readsLe_varintTail (width : ℕ) : ReadsLe width (readVarintTail width) := ⟨_, fun _ _ => rfl⟩

lemma ReadsLe.decodes {width n : ℕ} {r : Reader ℕ} (hr : ReadsLe width r) (h : n < 256 ^ width) :
    Reader.Decodes r (leBytes width n) n := by
  obtain ⟨e, hr⟩ := hr
  intro pre post
  have hle : ¬ (pre ++ (leBytes width n ++ post)).length < pre.length + width := by
    simp only [List.length_append, leBytes_length]
    omega
  have hs := slice_append_right pre (leBytes width n) post
  rw [leBytes_length] at hs
  rw [hr, if_neg hle, hs, leNat_leBytes_of_lt h, leBytes_length]

lemma unpackFrom_decodes {width n : ℕ} (h : n < 256 ^ width) :
    Reader.Decodes (unpackFrom width) (leBytes width n) n := (readsLe_unpackFrom width).decodes h

lemma readUint32_decodes (v : UInt32) : Reader.Decodes readUint32 (writeUint32 v) v := by
  have h : v.toNat < 256 ^ 4 := v.toNat_lt
  simpa [readUint32, writeUint32] using (unpackFrom_decodes h).map (g := UInt32.ofNat)

lemma readUint64_decodes (v : UInt64) : Reader.Decodes readUint64 (writeUint64 v) v := by
  have h : v.toNat < 256 ^ 8 := v.toNat_lt
  simpa [readUint64, writeUint64] using (unpackFrom_decodes h).map (g := UInt64.ofNat)

/-- A marker byte selects the width of the rest. -/
private lemma readVarint_marked {marker : UInt8} {width n : ℕ} (hn : n < 256 ^ width)
    (hm : ∀ data offset, data[offset]? = some marker →
      readVarint data offset = readVarintTail width data (offset + 1)) :
    Reader.Decodes readVarint (marker :: leBytes width n) n := by
  intro pre post
  have ht := (readsLe_varintTail width).decodes hn (pre ++ [marker]) post
  simp only [List.append_assoc, List.length_append, List.length_singleton,
    List.singleton_append] at ht
  rw [hm _ _ (by simp), List.cons_append, ht]
  simp only [List.length_cons, Except.ok.injEq, Prod.mk.injEq, true_and]
  omega

lemma readVarint_decodes {n : ℕ} (h : n < 2 ^ 64) : Reader.Decodes readVarint (writeVarint n) n := by
  unfold writeVarint
  split_ifs with h1 h2 h3
  · intro pre post
    have hb : (UInt8.ofNat (n % 256)).toNat = n := by
      rw [UInt8.toNat_ofNat']
      omega
    have hlt : UInt8.ofNat (n % 256) < 0xfd := by
      rw [UInt8.lt_iff_toNat_lt, hb]
      exact h1
    simp [readVarint, leBytes, hlt, hb]
  · exact readVarint_marked (by omega) fun data offset hd => by simp [readVarint, hd]
  · exact readVarint_marked (by omega) fun data offset hd => by simp [readVarint, hd]
  · exact readVarint_marked (by omega) fun data offset hd => by simp [readVarint, hd]

/-- A length-prefixed byte string, as every script and witness item is stored. -/
lemma readVarBytes_decodes {data : Bytes} (h : data.length < 2 ^ 64) :
    Reader.Decodes (do let n ← readVarint; readBytes n) (writeBytes data) data :=
  (readVarint_decodes h).bind (readBytes_decodes rfl)

end Serializer
end BerzCoin
