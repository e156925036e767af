import BerzCoin.CryptoAddress
import BerzCoin.Numerals

/-! `convertbits` writes one number in groups of another width. -/
namespace BerzCoin
namespace Bech32
open Numerals

/-- A number of `bits` bits in groups of `tobits` bits, with `left` bits of value `rest` after
them. -/
structure Regroups (tobits number bits : ℕ) (out : List ℕ) (left rest : ℕ) : Prop where
  left_lt : left < tobits
  length : out.length * tobits + left = bits
  lt : ∀ group ∈ out, group < 2 ^ tobits
  rest_lt : rest < 2 ^ left
  value : value (2 ^ tobits) out * 2 ^ left + rest = number

lemma and_mask (number bits : ℕ) : number &&& (1 <<< bits - 1) = number % 2 ^ bits := by
  rw [Nat.shiftLeft_eq, Nat.one_mul, Nat.and_two_pow_sub_one_eq_mod]

namespace Regroups
variable {tobits number number' bits bits' left left' rest rest' : ℕ} {out out' : List ℕ}

lemma rest_eq (h : Regroups tobits number bits out left rest) : rest = number % 2 ^ left := by
  rw [← h.value, Nat.add_comm, Nat.add_mul_mod_self_right, Nat.mod_eq_of_lt h.rest_lt]

/-- The pending bits and further input give more groups. -/
lemma append (more : ℕ) (h : Regroups tobits number bits out left rest)
    (h' : Regroups tobits (rest * 2 ^ more + number') (left + more) out' left' rest') :
    Regroups tobits (number * 2 ^ more + number') (bits + more) (out ++ out') left' rest' where
  left_lt := h'.left_lt
  length := by
    have hlength := h.length
    have hlength' := h'.length
    rw [List.length_append, Nat.add_mul]
    omega
  lt := by
    intro group hgroup
    cases List.mem_append.1 hgroup with
    | inl hfirst => exact h.lt group hfirst
    | inr hsecond => exact h'.lt group hsecond
  rest_lt := h'.rest_lt
  value := by
    have hpow : (2 ^ tobits) ^ out'.length * 2 ^ left' = 2 ^ left * 2 ^ more := by
      rw [← pow_mul, ← pow_add, ← pow_add, Nat.mul_comm, h'.length]
    calc Numerals.value (2 ^ tobits) (out ++ out') * 2 ^ left' + rest'
        = Numerals.value (2 ^ tobits) out * ((2 ^ tobits) ^ out'.length * 2 ^ left') +
            (Numerals.value (2 ^ tobits) out' * 2 ^ left' + rest') := by
          rw [value_append]
          ring
      _ = (Numerals.value (2 ^ tobits) out * 2 ^ left + rest) * 2 ^ more + number' := by
          rw [hpow, h'.value]
          ring
      _ = number * 2 ^ more + number' := by rw [h.value]

end Regroups

/-- A group in front of the groups of the lower bits. -/
lemma Regroups.cons {tobits acc bits left : ℕ} {out : List ℕ}
    (h : Regroups tobits (acc % 2 ^ bits) bits out left (acc % 2 ^ left)) :
    Regroups tobits (acc % 2 ^ (bits + tobits)) (bits + tobits) (acc / 2 ^ bits % 2 ^ tobits :: out) left
      (acc % 2 ^ left) := by
  have hgroup : Regroups tobits (acc / 2 ^ bits % 2 ^ tobits) tobits [acc / 2 ^ bits % 2 ^ tobits] 0 0 :=
    { left_lt := Nat.pos_of_ne_zero fun hzero => by
        have hlt := h.left_lt
        omega
      length := by simp
      lt := by
        intro group hmem
        rw [List.mem_singleton.1 hmem]
        exact Nat.mod_lt _ (Nat.two_pow_pos tobits)
      rest_lt := by simp
      value := by simp [value_cons] }
  have hlower : Regroups tobits (0 * 2 ^ bits + acc % 2 ^ bits) (0 + bits) out left (acc % 2 ^ left) := by
    simpa only [Nat.zero_mul, Nat.zero_add] using h
  have happend := hgroup.append bits hlower
  have hmod : acc / 2 ^ bits % 2 ^ tobits * 2 ^ bits + acc % 2 ^ bits = acc % 2 ^ (bits + tobits) := by
    rw [pow_add, Nat.mod_mul]
    ring
  rw [hmod, Nat.add_comm tobits] at happend
  exact happend

/-- The inner loop takes whole groups off the accumulator. -/
lemma convertbitsEmit_regroups {tobits : ℕ} (hpos : 0 < tobits) (acc : ℕ) {fuel bits : ℕ}
    (hfuel : bits ≤ fuel) :
    ∃ out left, convertbitsEmit acc tobits fuel bits = (out, left) ∧
      Regroups tobits (acc % 2 ^ bits) bits out left (acc % 2 ^ left) := by
  induction fuel generalizing bits with
  | zero =>
    obtain rfl := Nat.le_zero.1 hfuel
    exact ⟨[], 0, rfl, hpos, by simp, by simp, by simp [Nat.mod_one], by simp⟩
  | succ fuel ih =>
    rw [convertbitsEmit]
    split_ifs with hle
    · obtain ⟨out, left, hemit, hregroups⟩ := @ih (bits - tobits) (by omega)
      have hcons := hregroups.cons
      rw [Nat.sub_add_cancel hle] at hcons
      refine ⟨_, left, ?_, hcons⟩
      rw [hemit, and_mask, Nat.shiftRight_eq_div_pow]
    · exact ⟨[], bits, rfl, by omega, by simp, by simp, Nat.mod_lt _ (Nat.two_pow_pos bits), by simp⟩

/-- The accumulator keeps the bits that are still to be written. -/
lemma accumulate (acc : ℕ) {frombits tobits bits value : ℕ} (hvalue : value < 2 ^ frombits)
    (hbits : bits < tobits) :
    (((acc <<< frombits) ||| value) &&& (1 <<< (frombits + tobits - 1) - 1)) % 2 ^ (bits + frombits) =
      acc % 2 ^ bits * 2 ^ frombits + value := by
  have hor : (acc <<< frombits) ||| value = 2 ^ frombits * acc + value := by
    rw [Nat.shiftLeft_eq, Nat.mul_comm, Nat.two_pow_add_eq_or_of_lt hvalue]
  have hdvd : 2 ^ (bits + frombits) ∣ 2 ^ (frombits + tobits - 1) :=
    Nat.pow_dvd_pow 2 (by omega)
  rw [and_mask, hor, Nat.mod_mod_of_dvd _ hdvd, Nat.add_comm bits, pow_add, Nat.mod_mul,
    Nat.mul_add_mod, Nat.mod_eq_of_lt hvalue, Nat.mul_add_div (Nat.two_pow_pos frombits),
    Nat.div_eq_of_lt hvalue, Nat.add_zero]
  ring

/-- The loop over the input, from an accumulator with pending bits. -/
lemma convertbitsLoop_regroups {frombits tobits : ℕ} (hpos : 0 < tobits) {data : List ℕ}
    (hdata : ∀ group ∈ data, group < 2 ^ frombits) (acc : ℕ) {bits : ℕ} (hbits : bits < tobits) :
    ∃ out acc' left, convertbitsLoop frombits tobits data acc bits = some (out, acc', left) ∧
      Regroups tobits (acc % 2 ^ bits * 2 ^ (data.length * frombits) + value (2 ^ frombits) data)
        (bits + data.length * frombits) out left (acc' % 2 ^ left) := by
  induction data generalizing acc bits with
  | nil =>
    exact ⟨[], acc, bits, rfl, hbits, by simp, by simp, Nat.mod_lt _ (Nat.two_pow_pos bits), by simp⟩
  | cons group data ih =>
    have hgroup := hdata group (by simp)
    obtain ⟨acc', hacc⟩ : ∃ acc', ((acc <<< frombits) ||| group) &&&
      (1 <<< (frombits + tobits - 1) - 1) = acc' := ⟨_, rfl⟩
    have hkeep := accumulate acc hgroup hbits
    rw [hacc] at hkeep
    obtain ⟨out, left, hemit, hfirst⟩ :=
      convertbitsEmit_regroups hpos acc' (le_refl (bits + frombits))
    obtain ⟨out', acc'', left', hloop, hrest⟩ :=
      ih (fun g hg => hdata g (by simp [hg])) acc' hfirst.left_lt
    have hshift : group >>> frombits = 0 := by
      rw [Nat.shiftRight_eq_div_pow]
      exact Nat.div_eq_of_lt hgroup
    refine ⟨out ++ out', acc'', left', ?_, ?_⟩
    · rw [convertbitsLoop, if_neg (not_not.2 hshift)]
      simp only [hacc, hemit, hloop, Option.map_some]
    · have happend := hfirst.append _ hrest
      have hnumber : acc' % 2 ^ (bits + frombits) * 2 ^ (data.length * frombits) +
            value (2 ^ frombits) data =
          acc % 2 ^ bits * 2 ^ ((group :: data).length * frombits) +
            value (2 ^ frombits) (group :: data) := by
        rw [hkeep, value_cons, List.length_cons, ← pow_mul, Nat.mul_comm frombits, Nat.succ_mul, pow_add]
        ring
      have hcount : bits + frombits + data.length * frombits =
          bits + (group :: data).length * frombits := by
        rw [List.length_cons, Nat.succ_mul]
        ring
      rwa [hnumber, hcount] at happend

/-! The two ways to end, and that they undo each other. -/
section ends
variable {frombits tobits : ℕ} {data out : List ℕ}

lemma two_pow_split {left : ℕ} (h : left ≤ tobits) : 2 ^ tobits = 2 ^ left * 2 ^ (tobits - left) := by
  rw [← pow_add, Nat.add_sub_cancel' h]

/-- The pending bits, filled up with zeros. -/
lemma last_group {left : ℕ} (acc : ℕ) (h : left ≤ tobits) :
    (acc <<< (tobits - left)) &&& (1 <<< tobits - 1) = acc % 2 ^ left * 2 ^ (tobits - left) := by
  rw [and_mask, Nat.shiftLeft_eq, two_pow_split h, Nat.mul_mod_mul_right]

/-- The loop on the whole input. -/
lemma convertbitsLoop_whole (hpos : 0 < tobits) (hdata : ∀ group ∈ data, group < 2 ^ frombits) :
    ∃ out acc left, convertbitsLoop frombits tobits data 0 0 = some (out, acc, left) ∧
      Regroups tobits (value (2 ^ frombits) data) (data.length * frombits) out left (acc % 2 ^ left) := by
  have h := convertbitsLoop_regroups hpos hdata 0 hpos
  rwa [Nat.zero_mod, Nat.zero_mul, Nat.zero_add, Nat.zero_add] at h

/-- With padding, the last group is filled with zeros. -/
lemma convertbits_pad (hpos : 0 < tobits) (hdata : ∀ group ∈ data, group < 2 ^ frombits) :
    ∃ out filled, convertbits data frombits tobits true = some out ∧ filled < tobits ∧
      (∀ group ∈ out, group < 2 ^ tobits) ∧
      out.length * tobits = data.length * frombits + filled ∧
      value (2 ^ tobits) out = value (2 ^ frombits) data * 2 ^ filled := by
  obtain ⟨out, acc, left, hloop, hregroups⟩ := convertbitsLoop_whole hpos hdata
  have hlength := hregroups.length
  have hlt := hregroups.left_lt
  have hvalue := hregroups.value
  by_cases hleft : left = 0
  · subst hleft
    refine ⟨out, 0, ?_, hpos, hregroups.lt, by omega, ?_⟩
    · simp [convertbits, hloop]
    · have hrest := hregroups.rest_lt
      omega
  · have hlast := last_group acc hlt.le
    have hpow := two_pow_split hlt.le
    refine ⟨out ++ [acc % 2 ^ left * 2 ^ (tobits - left)], tobits - left, ?_, by omega, ?_, ?_, ?_⟩
    · simp [convertbits, hloop, hleft, hlast]
    · intro group hgroup
      cases List.mem_append.1 hgroup with
      | inl hfirst => exact hregroups.lt group hfirst
      | inr hsecond =>
        rw [List.mem_singleton.1 hsecond, hpow]
        exact Nat.mul_lt_mul_of_pos_right hregroups.rest_lt (Nat.two_pow_pos _)
    · rw [List.length_append, List.length_singleton, Nat.succ_mul]
      omega
    · rw [value_snoc, ← hvalue, Nat.add_mul, Nat.mul_assoc, ← hpow]

/-- Without padding, fewer than `frombits` bits may be left, all of them zero. -/
lemma convertbits_noPad (hpos : 0 < tobits) (hdata : ∀ group ∈ data, group < 2 ^ frombits) :
    ∃ out left rest, Regroups tobits (value (2 ^ frombits) data) (data.length * frombits) out left rest ∧
      convertbits data frombits tobits false =
        if frombits ≤ left ∨ rest ≠ 0 then none else some out := by
  obtain ⟨out, acc, left, hloop, hregroups⟩ := convertbitsLoop_whole hpos hdata
  have hlast := last_group acc hregroups.left_lt.le
  have hzero : acc % 2 ^ left * 2 ^ (tobits - left) ≠ 0 ↔ acc % 2 ^ left ≠ 0 := by
    simp
  refine ⟨out, left, acc % 2 ^ left, hregroups, ?_⟩
  simp only [convertbits, hloop, hlast, hzero, Bool.false_eq_true, if_false]

/-- A number of bits in whole groups and fewer bits than a group. -/
lemma groups_unique {width a b left left' : ℕ} (hleft : left < width) (hleft' : left' < width)
    (h : a * width + left = b * width + left') : a = b ∧ left = left' := by
  have hdiv := congrArg (· / width) h
  have hmod := congrArg (· % width) h
  simp only [Nat.mul_comm _ width, Nat.mul_add_div (show 0 < width by omega), Nat.mul_add_mod,
    Nat.div_eq_of_lt hleft, Nat.div_eq_of_lt hleft', Nat.mod_eq_of_lt hleft,
    Nat.mod_eq_of_lt hleft'] at hdiv hmod
  exact ⟨hdiv, hmod⟩

/-- A list regrouped and padded comes back. -/
lemma convertbits_back (hpos : 0 < tobits) (hle : tobits ≤ frombits)
    (hdata : ∀ group ∈ data, group < 2 ^ frombits)
    (h : convertbits data frombits tobits true = some out) :
    convertbits out tobits frombits false = some data := by
  obtain ⟨out', filled, hout, hfilled, hlt, hlength, hvalue⟩ := convertbits_pad hpos hdata
  obtain rfl : out' = out := Option.some.inj (hout.symm.trans h)
  obtain ⟨back, left, rest, hregroups, hback⟩ :=
    convertbits_noPad (show 0 < frombits by omega) hlt
  have hcount := hregroups.length
  have hleft := hregroups.left_lt
  rw [hlength] at hcount
  -- fewer than `frombits` bits were filled in, so they are the ones left
  have hsame := groups_unique hleft (show filled < frombits by omega) hcount
  obtain ⟨hlen, rfl⟩ := hsame
  have hrest : rest = 0 := by
    rw [hregroups.rest_eq, hvalue, Nat.mul_mod_left]
  have hnumber := hregroups.value
  rw [hvalue, hrest, Nat.add_zero] at hnumber
  have hdataEq : back = data := by
    apply value_inj (Nat.one_lt_two_pow (by omega)) hlen hregroups.lt hdata
    exact Nat.eq_of_mul_eq_mul_right (Nat.two_pow_pos left) hnumber
  rw [hback, if_neg, hdataEq]
  intro hbad
  cases hbad with
  | inl hmany => omega
  | inr hbits => exact hbits hrest

/-- A list that is taken without padding is the padded regrouping of its result. -/
lemma convertbits_forth (hpos : 0 < frombits) (hle : frombits ≤ tobits)
    (hdata : ∀ group ∈ data, group < 2 ^ frombits)
    (h : convertbits data frombits tobits false = some out) :
    convertbits out tobits frombits true = some data ∧ ∀ group ∈ out, group < 2 ^ tobits := by
  obtain ⟨out', left, rest, hregroups, hout⟩ := convertbits_noPad (show 0 < tobits by omega) hdata
  rw [hout] at h
  split_ifs at h with hbad
  obtain rfl : out' = out := Option.some.inj h
  rw [not_or, not_le, not_not] at hbad
  obtain ⟨hleft, rfl⟩ := hbad
  obtain ⟨back, filled, hback, hfilled, hlt, hlength, hvalue⟩ := convertbits_pad hpos hregroups.lt
  have hcount := hregroups.length
  have hsame := groups_unique (a := back.length) (b := data.length) hleft hfilled (by omega)
  obtain ⟨hlen, rfl⟩ := hsame
  have hnumber := hregroups.value
  rw [Nat.add_zero] at hnumber
  refine ⟨?_, hregroups.lt⟩
  rw [hback, value_inj (Nat.one_lt_two_pow (by omega)) hlen hlt hdata (hvalue.trans hnumber)]

end ends
end Bech32
end BerzCoin
