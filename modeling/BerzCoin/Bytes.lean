import Mathlib

/-! Byte strings and the fixed-width integer encodings of Python's `int.to_bytes`,
`int.from_bytes` and `struct`. A byte string is a list of bytes; a hexadecimal
rendering is represented by the bytes it renders. -/
namespace BerzCoin

abbrev Bytes := List UInt8

instance : LawfulBEq Bytes := inferInstance

/-- `n.to_bytes(width, 'little')`; higher digits are dropped. -/
def leBytes : ℕ → ℕ → Bytes
  | 0, _ => []
  | width + 1, n => UInt8.ofNat (n % 256) :: leBytes width (n / 256)

/-- `int.from_bytes(data, 'little')`. -/
def leNat : Bytes → ℕ
  | [] => 0
  | b :: bs => b.toNat + 256 * leNat bs

/-- `int.from_bytes(data, 'big')`. -/
def beNat (data : Bytes) : ℕ := leNat data.reverse

/-- `n.to_bytes(width, 'big')` for a number that fits. -/
def beBytes (width n : ℕ) : Bytes := (leBytes width n).reverse

/-- `data[start:start + length]`. -/
def slice (data : Bytes) (start length : ℕ) : Bytes := (data.drop start).take length

/-- The order in which a set of ids is gone through. -/
structure SetOrder where
  list : List Bytes → List Bytes
  perm : ∀ ids, (list ids).Perm ids

/-- The order of the list itself. -/
def SetOrder.listed : SetOrder := ⟨id, List.Perm.refl⟩

@[simp] lemma SetOrder.list_nil (order : SetOrder) : order.list [] = [] :=
  List.perm_nil.1 (order.perm [])

@[simp] lemma SetOrder.list_singleton (order : SetOrder) (id : Bytes) : order.list [id] = [id] :=
  List.perm_singleton.1 (order.perm [id])

@[simp] lemma leBytes_length (width n : ℕ) : (leBytes width n).length = width := by
  induction width generalizing n with
  | zero => rfl
  | succ width ih => simp [leBytes, ih]

lemma leNat_lt (data : Bytes) : leNat data < 256 ^ data.length := by
  induction data with
  | nil => simp [leNat]
  | cons b bs ih =>
    have hb := b.toNat_lt
    simp only [leNat, List.length_cons, pow_succ]
    omega

lemma leNat_leBytes (width n : ℕ) : leNat (leBytes width n) = n % 256 ^ width := by
  induction width generalizing n with
  | zero => simp [leBytes, leNat, Nat.mod_one]
  | succ width ih =>
    have hb : (UInt8.ofNat (n % 256)).toNat = n % 256 := by
      rw [UInt8.toNat_ofNat']
      omega
    simp only [leBytes, leNat, hb, ih]
    rw [pow_succ', Nat.mod_mul]

lemma leNat_leBytes_of_lt {width n : ℕ} (h : n < 256 ^ width) :
    leNat (leBytes width n) = n := by
  rw [leNat_leBytes, Nat.mod_eq_of_lt h]

lemma leBytes_leNat (data : Bytes) : leBytes data.length (leNat data) = data := by
  induction data with
  | nil => rfl
  | cons b bs ih =>
    have hb := b.toNat_lt
    have hmod : (b.toNat + 256 * leNat bs) % 256 = b.toNat := by omega
    have hdiv : (b.toNat + 256 * leNat bs) / 256 = leNat bs := by omega
    simp only [List.length_cons, leNat, leBytes, hmod, hdiv, ih, UInt8.ofNat_toNat]

lemma slice_length {data : Bytes} {start length : ℕ} (h : start + length ≤ data.length) :
    (slice data start length).length = length := by
  simp only [slice, List.length_take, List.length_drop]
  omega

@[simp] lemma slice_append_right (pre data post : Bytes) :
    slice (pre ++ (data ++ post)) pre.length data.length = data := by
  simp [slice]

end BerzCoin
