import BerzCoin.CoreSerialization

/-! How many bytes a reader takes, and readers that take the shortest encoding only. -/
namespace BerzCoin

lemma Reader.bind_ok {α β : Type} {r : Reader α} {f : α → Reader β} {data : Bytes} {offset : ℕ}
    {b : β} {offset' : ℕ} :
    (r >>= f) data offset = .ok (b, offset') ↔
      ∃ a offset₁, r data offset = .ok (a, offset₁) ∧ f a data offset₁ = .ok (b, offset') := by
  change Reader.bind r f data offset = _ ↔ _
  unfold Reader.bind
  cases r data offset with
  | error e => simp
  | ok p =>
    obtain ⟨a, offset₁⟩ := p
    simp

lemma Reader.pure_ok {α : Type} {a b : α} {data : Bytes} {offset offset' : ℕ} :
    (pure a : Reader α) data offset = .ok (b, offset') ↔ b = a ∧ offset' = offset := by
  change Except.ok (a, offset) = _ ↔ _
  constructor
  · intro h
    cases h
    exact ⟨rfl, rfl⟩
  · rintro ⟨rfl, rfl⟩
    rfl

/-- A reader that accepts less and otherwise returns the same. -/
def Reader.Refines {α : Type} (r' r : Reader α) : Prop :=
  ∀ data offset x, r' data offset = .ok x → r data offset = .ok x

namespace Reader.Refines
variable {α β : Type} {r r' : Reader α} {f f' : α → Reader β}

lemma refl (r : Reader α) : Reader.Refines r r := fun _ _ _ h => h

lemma bind (hr : Reader.Refines r' r) (hf : ∀ a, Reader.Refines (f' a) (f a)) :
    Reader.Refines (r' >>= f') (r >>= f) := by
  intro data offset x h
  obtain ⟨b, offset'⟩ := x
  obtain ⟨a, offset₁, h₁, h₂⟩ := Reader.bind_ok.1 h
  exact Reader.bind_ok.2 ⟨a, offset₁, hr _ _ _ h₁, hf a _ _ _ h₂⟩

lemma many (hr : Reader.Refines r' r) (n : ℕ) : Reader.Refines (readMany r' n) (readMany r n) := by
  induction n with
  | zero => exact refl _
  | succ n ih => exact bind hr fun _ => bind ih fun _ => refl _

end Reader.Refines

/-- A reader goes forward, and by at least the given number of bytes unless it comes to the
end of the data. -/
def Reader.AtLeast {α : Type} (r : Reader α) (size : α → ℕ) : Prop :=
  ∀ data offset a offset', r data offset = .ok (a, offset') →
    offset ≤ offset' ∧ (offset' < data.length → offset + size a ≤ offset')

lemma Reader.AtLeast.many {α : Type} {r : Reader α} {size : α → ℕ} (hr : r.AtLeast size) (n : ℕ) :
    (readMany r n).AtLeast fun as => (as.map size).sum := by
  induction n with
  | zero =>
    intro data offset as offset' h
    obtain ⟨rfl, rfl⟩ := Reader.pure_ok.1 h
    simp
  | succ n ih =>
    intro data offset as offset' h
    obtain ⟨a, offset₁, h₁, h⟩ := Reader.bind_ok.1 h
    obtain ⟨rest, offset₂, h₂, h⟩ := Reader.bind_ok.1 h
    obtain ⟨rfl, rfl⟩ := Reader.pure_ok.1 h
    obtain ⟨hle₁, hsize₁⟩ := hr _ _ _ _ h₁
    obtain ⟨hle₂, hsize₂⟩ := ih _ _ _ _ h₂
    refine ⟨hle₁.trans hle₂, ?_⟩
    intro hlt
    have hs₁ := hsize₁ (by omega)
    have hs₂ := hsize₂ hlt
    simp only [List.map_cons, List.sum_cons] at hs₂ ⊢
    omega

/-- What a reader has taken is the encoding of what it returns. -/
def Reader.Recovers {α : Type} (r : Reader α) (enc : α → Bytes) : Prop :=
  ∀ data offset a offset', r data offset = .ok (a, offset') →
    data.drop offset = enc a ++ data.drop offset' ∧ offset' = offset + (enc a).length

lemma Reader.Recovers.many {α : Type} {r : Reader α} {enc : α → Bytes} (hr : r.Recovers enc) (n : ℕ) :
    (readMany r n).Recovers fun as => as.flatMap enc := by
  induction n with
  | zero =>
    intro data offset as offset' h
    obtain ⟨rfl, rfl⟩ := Reader.pure_ok.1 h
    simp
  | succ n ih =>
    intro data offset as offset' h
    obtain ⟨a, offset₁, h₁, h⟩ := Reader.bind_ok.1 h
    obtain ⟨rest, offset₂, h₂, h⟩ := Reader.bind_ok.1 h
    obtain ⟨rfl, rfl⟩ := Reader.pure_ok.1 h
    obtain ⟨hdata₁, hoffset₁⟩ := hr _ _ _ _ h₁
    obtain ⟨hdata₂, hoffset₂⟩ := ih _ _ _ _ h₂
    refine ⟨?_, ?_⟩
    · simp only [hdata₁, hdata₂, List.flatMap_cons, List.append_assoc]
    · simp only [List.flatMap_cons, List.length_append] at hoffset₂ ⊢
      omega

lemma readMany_length {α : Type} {r : Reader α} {n : ℕ} {data : Bytes} {offset offset' : ℕ}
    {as : List α} (h : readMany r n data offset = .ok (as, offset')) : as.length = n := by
  induction n generalizing offset as with
  | zero =>
    obtain ⟨rfl, rfl⟩ := Reader.pure_ok.1 h
    rfl
  | succ n ih =>
    obtain ⟨a, offset₁, h₁, h⟩ := Reader.bind_ok.1 h
    obtain ⟨rest, offset₂, h₂, h⟩ := Reader.bind_ok.1 h
    obtain ⟨rfl, rfl⟩ := Reader.pure_ok.1 h
    rw [List.length_cons, ih h₂]

/-- What every value of a list that is read satisfies. -/
lemma readMany_forall {α : Type} {r : Reader α} {P : α → Prop}
    (hr : ∀ data offset a offset', r data offset = .ok (a, offset') → P a) {n : ℕ} {data : Bytes}
    {offset offset' : ℕ} {as : List α} (h : readMany r n data offset = .ok (as, offset')) :
    ∀ a ∈ as, P a := by
  induction n generalizing offset as with
  | zero =>
    obtain ⟨rfl, rfl⟩ := Reader.pure_ok.1 h
    intro a ha
    cases ha
  | succ n ih =>
    obtain ⟨a, offset₁, h₁, h⟩ := Reader.bind_ok.1 h
    obtain ⟨rest, offset₂, h₂, h⟩ := Reader.bind_ok.1 h
    obtain ⟨rfl, rfl⟩ := Reader.pure_ok.1 h
    intro x hx
    rcases List.mem_cons.1 hx with rfl | hx
    · exact hr _ _ _ _ h₁
    · exact ih h₂ x hx

namespace Serializer

lemma drop_eq_slice {data : Bytes} {offset length : ℕ} :
    data.drop offset = slice data offset length ++ data.drop (offset + length) := by
  rw [slice, ← List.drop_drop, List.take_append_drop]

lemma readBytes_ok {length : ℕ} {data : Bytes} {offset : ℕ} {a : Bytes} {offset' : ℕ}
    (h : readBytes length data offset = .ok (a, offset')) :
    a.length = length ∧ data.drop offset = a ++ data.drop offset' ∧ offset' = offset + length ∧
      offset' ≤ data.length := by
  unfold readBytes at h
  split_ifs at h with hlt
  cases h
  exact ⟨slice_length (not_lt.1 hlt), drop_eq_slice, rfl, by omega⟩

lemma ReadsLe.ok {width : ℕ} {r : Reader ℕ} (hr : ReadsLe width r) {data : Bytes}
    {offset n offset' : ℕ} (h : r data offset = .ok (n, offset')) :
    n < 256 ^ width ∧ data.drop offset = leBytes width n ++ data.drop offset' ∧
      offset' = offset + width ∧ offset' ≤ data.length := by
  obtain ⟨e, hr⟩ := hr
  rw [hr] at h
  split_ifs at h with hlt
  cases h
  have hlen := slice_length (not_lt.1 hlt)
  have hbytes := leBytes_leNat (slice data offset width)
  have hbound := leNat_lt (slice data offset width)
  rw [hlen] at hbytes hbound
  refine ⟨hbound, ?_, rfl, by omega⟩
  rw [hbytes]
  exact drop_eq_slice

/-- A field that is read into a type of its width. -/
lemma unpackFrom_map_ok {α : Type} {width : ℕ} {f : ℕ → α} {g : α → ℕ}
    (hgf : ∀ n < 256 ^ width, g (f n) = n) {data : Bytes} {offset offset' : ℕ} {v : α}
    (h : (unpackFrom width >>= fun n => pure (f n)) data offset = .ok (v, offset')) :
    data.drop offset = leBytes width (g v) ++ data.drop offset' ∧ offset' = offset + width ∧
      offset' ≤ data.length := by
  obtain ⟨n, offset₁, h₁, h⟩ := Reader.bind_ok.1 h
  obtain ⟨rfl, rfl⟩ := Reader.pure_ok.1 h
  obtain ⟨hn, hdata, hoffset, hle⟩ := (readsLe_unpackFrom width).ok h₁
  refine ⟨?_, hoffset, hle⟩
  rw [hgf n hn]
  exact hdata

lemma readUint32_ok {data : Bytes} {offset offset' : ℕ} {v : UInt32}
    (h : readUint32 data offset = .ok (v, offset')) :
    data.drop offset = writeUint32 v ++ data.drop offset' ∧ offset' = offset + 4 ∧
      offset' ≤ data.length :=
  unpackFrom_map_ok (fun _ hn => UInt32.toNat_ofNat_of_lt' hn) h

lemma readUint64_ok {data : Bytes} {offset offset' : ℕ} {v : UInt64}
    (h : readUint64 data offset = .ok (v, offset')) :
    data.drop offset = writeUint64 v ++ data.drop offset' ∧ offset' = offset + 8 ∧
      offset' ≤ data.length :=
  unpackFrom_map_ok (fun _ hn => UInt64.toNat_ofNat_of_lt' hn) h

/-- The four forms of a varint. -/
lemma readVarint_ok {data : Bytes} {offset n offset' : ℕ}
    (h : readVarint data offset = .ok (n, offset')) :
    offset < data.length ∧
    ((n < 0xfd ∧ data.drop offset = leBytes 1 n ++ data.drop offset' ∧ offset' = offset + 1) ∨
      (n ≤ 0xffff ∧ data.drop offset = 0xfd :: leBytes 2 n ++ data.drop offset' ∧
        offset' = offset + 3) ∨
      (n ≤ 0xffffffff ∧ data.drop offset = 0xfe :: leBytes 4 n ++ data.drop offset' ∧
        offset' = offset + 5) ∨
      (n < 2 ^ 64 ∧ data.drop offset = 0xff :: leBytes 8 n ++ data.drop offset' ∧
        offset' = offset + 9)) := by
  unfold readVarint at h
  cases hfirst : data[offset]? with
  | none => simp [hfirst] at h
  | some first =>
    obtain ⟨hlt, hget⟩ := List.getElem?_eq_some_iff.1 hfirst
    have hdrop : data.drop offset = first :: data.drop (offset + 1) := by
      rw [List.drop_eq_getElem_cons hlt, hget]
    refine ⟨hlt, ?_⟩
    simp only [hfirst] at h
    split_ifs at h with h1 h2 h3
    · cases h
      have hn : first.toNat < 0xfd := h1
      have hbyte : leBytes 1 first.toNat = [first] := by
        have hmod : first.toNat % 256 = first.toNat := by omega
        simp [leBytes, hmod]
      refine .inl ⟨hn, ?_, rfl⟩
      rw [hdrop, hbyte]
      rfl
    · obtain ⟨hn, hdata, hoffset, -⟩ := (readsLe_varintTail _).ok h
      refine .inr (.inl ⟨by omega, ?_, by omega⟩)
      rw [hdrop, h2, hdata]
      rfl
    · obtain ⟨hn, hdata, hoffset, -⟩ := (readsLe_varintTail _).ok h
      refine .inr (.inr (.inl ⟨by omega, ?_, by omega⟩))
      rw [hdrop, h3, hdata]
      rfl
    · obtain ⟨hn, hdata, hoffset, -⟩ := (readsLe_varintTail _).ok h
      have hff : first = 0xff := by
        have hub := first.toNat_lt
        have h1' : ¬ first.toNat < 0xfd := h1
        have h2' : first.toNat ≠ 0xfd := fun hc => h2 (UInt8.toNat_inj.1 hc)
        have h3' : first.toNat ≠ 0xfe := fun hc => h3 (UInt8.toNat_inj.1 hc)
        refine UInt8.toNat_inj.1 ?_
        have hval : first.toNat = 255 := by omega
        exact hval
      refine .inr (.inr (.inr ⟨by omega, ?_, by omega⟩))
      rw [hdrop, hff, hdata]
      rfl

lemma writeVarint_length (n : ℕ) : (writeVarint n).length =
    if n < 0xfd then 1 else if n ≤ 0xffff then 3 else if n ≤ 0xffffffff then 5 else 9 := by
  unfold writeVarint
  split_ifs <;> simp

lemma readVarint_takes {data : Bytes} {offset n offset' : ℕ}
    (h : readVarint data offset = .ok (n, offset')) :
    offset + (writeVarint n).length ≤ offset' ∧ n < 2 ^ 64 := by
  obtain ⟨-, hforms⟩ := readVarint_ok h
  rw [writeVarint_length]
  rcases hforms with ⟨hn, -, ho⟩ | ⟨hn, -, ho⟩ | ⟨hn, -, ho⟩ | ⟨hn, -, ho⟩
  · rw [if_pos hn]
    omega
  · split_ifs <;> omega
  · split_ifs <;> omega
  · split_ifs <;> omega

/-- A varint in its shortest form. -/
def readShortVarint : Reader ℕ := fun data offset =>
  match readVarint data offset with
  | .error e => .error e
  | .ok (n, offset') =>
    if offset' = offset + (writeVarint n).length then .ok (n, offset')
    else .error (.valueError "Non-minimal varint")

lemma readShortVarint_ok {data : Bytes} {offset n offset' : ℕ} :
    readShortVarint data offset = .ok (n, offset') ↔
      readVarint data offset = .ok (n, offset') ∧ offset' = offset + (writeVarint n).length := by
  unfold readShortVarint
  cases readVarint data offset with
  | error e => simp
  | ok p =>
    obtain ⟨m, o⟩ := p
    simp only
    constructor
    · intro h
      split_ifs at h with ho
      cases h
      exact ⟨rfl, ho⟩
    · rintro ⟨h, ho⟩
      cases h
      rw [if_pos ho]

lemma readShortVarint_refines : Reader.Refines readShortVarint readVarint := by
  intro data offset x h
  exact (readShortVarint_ok.1 h).1

lemma readShortVarint_decodes {n : ℕ} (h : n < 2 ^ 64) :
    Reader.Decodes readShortVarint (writeVarint n) n := by
  intro pre post
  exact readShortVarint_ok.2 ⟨readVarint_decodes h pre post, rfl⟩

lemma readShortVarint_recovers : Reader.Recovers readShortVarint writeVarint := by
  intro data offset n offset' h
  obtain ⟨h, hlen⟩ := readShortVarint_ok.1 h
  refine ⟨?_, hlen⟩
  obtain ⟨-, hforms⟩ := readVarint_ok h
  have hlength := writeVarint_length n
  unfold writeVarint
  rcases hforms with ⟨hn, hd, ho⟩ | ⟨hn, hd, ho⟩ | ⟨hn, hd, ho⟩ | ⟨hn, hd, ho⟩
  · rw [if_pos hn]
    exact hd
  · have h1 : ¬ n < 0xfd := fun hc => by
      rw [if_pos hc] at hlength
      omega
    rw [if_neg h1, if_pos hn]
    exact hd
  · have h2 : ¬ n ≤ 0xffff := fun hc => by
      split_ifs at hlength <;> omega
    rw [if_neg (by omega), if_neg h2, if_pos hn]
    exact hd
  · have h3 : ¬ n ≤ 0xffffffff := fun hc => by
      split_ifs at hlength <;> omega
    rw [if_neg (by omega), if_neg (by omega), if_neg h3]
    exact hd

/-- A byte string after its length in the shortest form. -/
def readShortBytes : Reader Bytes := do
  let length ← readShortVarint
  readBytes length

lemma readShortBytes_refines :
    Reader.Refines readShortBytes (do let length ← readVarint; readBytes length) :=
  readShortVarint_refines.bind fun _ => .refl _

lemma readShortBytes_decodes {data : Bytes} (h : data.length < 2 ^ 64) :
    Reader.Decodes readShortBytes (writeBytes data) data :=
  (readShortVarint_decodes h).bind (readBytes_decodes rfl)

lemma readShortBytes_recovers : Reader.Recovers readShortBytes writeBytes := by
  intro data offset a offset' h
  obtain ⟨n, offset₁, h₁, h₂⟩ := Reader.bind_ok.1 h
  obtain ⟨hdata₁, ho₁⟩ := readShortVarint_recovers _ _ _ _ h₁
  obtain ⟨rfl, hdata₂, ho₂, -⟩ := readBytes_ok h₂
  refine ⟨?_, ?_⟩
  · rw [hdata₁, hdata₂, writeBytes, List.append_assoc]
  · rw [writeBytes, List.length_append]
    omega

lemma readVarBytes_takes {data : Bytes} {offset : ℕ} {a : Bytes} {offset' : ℕ}
    (h : (do let length ← readVarint; readBytes length : Reader Bytes) data offset = .ok (a, offset')) :
    offset + (writeBytes a).length ≤ offset' ∧ a.length < 2 ^ 64 := by
  obtain ⟨n, offset₁, h₁, h₂⟩ := Reader.bind_ok.1 h
  obtain ⟨hle, hn⟩ := readVarint_takes h₁
  obtain ⟨rfl, -, ho, -⟩ := readBytes_ok h₂
  refine ⟨?_, hn⟩
  rw [writeBytes, List.length_append]
  omega

end Serializer
end BerzCoin
