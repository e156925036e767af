import BerzCoin.ScriptSigchecks

/-! Relative lock times of transaction inputs. -/
namespace BerzCoin
open Script (getItem)

structure SequenceLock where
  minHeight : ℤ
  minTime : ℤ
  deriving DecidableEq, Repr

namespace SequenceLock

def isSatisfied (lock : SequenceLock) (height time : ℤ) : Bool :=
  lock.minHeight ≤ height ∧ lock.minTime ≤ time

end SequenceLock

/-- The loop of `calculate_sequence_lock`, from the input with index `i` on. -/
def sequenceLockLoop (inputsHeight inputsTime : List ℤ) :
    List TxIn → ℕ → SequenceLock → Except PyError SequenceLock
  | [], _, lock => .ok lock
  | txin :: vin, i, lock =>
    if txin.sequence = 0xffffffff then sequenceLockLoop inputsHeight inputsTime vin (i + 1) lock
    else if txin.sequence &&& 0x80000000 = 0 then
      sequenceLockLoop inputsHeight inputsTime vin (i + 1) lock
    else
      let relativeLock := (txin.sequence &&& 0x0000ffff).toNat
      if txin.sequence &&& 0x00400000 ≠ 0 then do
        let inputTime ← getItem inputsTime i
        let lockTime := inputTime + (relativeLock <<< 9 : ℕ)
        sequenceLockLoop inputsHeight inputsTime vin (i + 1)
          { lock with minTime := max lock.minTime lockTime }
      else do
        let inputHeight ← getItem inputsHeight i
        let lockHeight := inputHeight + relativeLock
        sequenceLockLoop inputsHeight inputsTime vin (i + 1)
          { lock with minHeight := max lock.minHeight lockHeight }

def calculateSequenceLock (tx : Transaction) (inputsHeight inputsTime : List ℤ) :
    Except PyError SequenceLock :=
  sequenceLockLoop inputsHeight inputsTime tx.vin 0 { minHeight := 0, minTime := 0 }

def isSequenceLockSatisfied (tx : Transaction) (inputsHeight inputsTime : List ℤ)
    (blockHeight blockTime : ℤ) : Except PyError Bool := do
  let lock ← calculateSequenceLock tx inputsHeight inputsTime
  return lock.isSatisfied blockHeight blockTime

section maxLock

/-- The largest of some locks, or 0. -/
def maxLock (locks : List ℤ) : ℤ := locks.foldr max 0

@[simp] lemma maxLock_nil : maxLock [] = 0 := rfl

@[simp] lemma maxLock_cons (lock : ℤ) (locks : List ℤ) :
    maxLock (lock :: locks) = max lock (maxLock locks) := rfl

lemma maxLock_le {locks : List ℤ} {bound : ℤ} :
    maxLock locks ≤ bound ↔ 0 ≤ bound ∧ ∀ lock ∈ locks, lock ≤ bound := by
  induction locks with
  | nil => simp
  | cons lock locks ih =>
    rw [maxLock_cons, max_le_iff, ih, List.forall_mem_cons]
    tauto

lemma maxLock_nonneg (locks : List ℤ) : 0 ≤ maxLock locks :=
  (maxLock_le.1 (le_refl (maxLock locks))).1

lemma le_maxLock {locks : List ℤ} {lock : ℤ} (h : lock ∈ locks) : lock ≤ maxLock locks :=
  (maxLock_le.1 (le_refl (maxLock locks))).2 lock h

lemma maxLock_mem {locks : List ℤ} (h : 0 < maxLock locks) : maxLock locks ∈ locks := by
  induction locks with
  | nil => simp at h
  | cons lock locks ih =>
    rw [maxLock_cons] at h ⊢
    by_cases hle : maxLock locks ≤ lock
    · rw [max_eq_left hle]
      exact List.mem_cons_self
    · rw [max_eq_right (by omega)] at h ⊢
      exact List.mem_cons_of_mem _ (ih h)

/-- Every positive lock has one at least as large on the other side. -/
def CoveredBy (locks locks' : List ℤ) : Prop :=
  ∀ lock ∈ locks, 0 < lock → ∃ lock' ∈ locks', lock ≤ lock'

lemma maxLock_le_maxLock {locks locks' : List ℤ} :
    maxLock locks ≤ maxLock locks' ↔ CoveredBy locks locks' := by
  constructor
  · intro hle lock hmem hpos
    have hlock := le_maxLock hmem
    exact ⟨maxLock locks', maxLock_mem (by omega), by omega⟩
  · intro hcovered
    rw [maxLock_le]
    refine ⟨maxLock_nonneg locks', ?_⟩
    intro lock hmem
    by_cases hpos : 0 < lock
    · obtain ⟨lock', hmem', hle⟩ := hcovered lock hmem hpos
      exact hle.trans (le_maxLock hmem')
    · have hnonneg := maxLock_nonneg locks'
      omega

def Matching (locks locks' : List ℤ) : Prop := CoveredBy locks locks' ∧ CoveredBy locks' locks

lemma maxLock_eq_maxLock {locks locks' : List ℤ} :
    maxLock locks = maxLock locks' ↔ Matching locks locks' := by
  rw [Matching, ← maxLock_le_maxLock, ← maxLock_le_maxLock]
  exact le_antisymm_iff

end maxLock

section locks

/-- The locks of the inputs that a test of their sequence selects, in units of `scale`. -/
def locksOf (selects : UInt32 → Bool) (scale : ℕ) : List TxIn → List ℤ → List ℤ
  | txin :: vin, base :: bases =>
    let relativeLock := (txin.sequence &&& 0x0000ffff).toNat
    if selects txin.sequence then (base + (scale * relativeLock : ℕ)) :: locksOf selects scale vin bases
    else locksOf selects scale vin bases
  | _, _ => []

/-- The disable flag of a sequence number is clear. -/
def enabled (sequence : UInt32) : Bool := sequence &&& 0x80000000 = 0

/-- The inputs that the loop does not skip. -/
def notSkipped (sequence : UInt32) : Bool :=
  sequence ≠ 0xffffffff ∧ sequence &&& 0x80000000 ≠ 0

/-- The unit of a lock is a height, or 512 seconds where bit 22 is set. -/
def heightLocks (selects : UInt32 → Bool) : List TxIn → List ℤ → List ℤ :=
  locksOf (fun sequence => selects sequence && sequence &&& 0x00400000 = 0) 1

def timeLocks (selects : UInt32 → Bool) : List TxIn → List ℤ → List ℤ :=
  locksOf (fun sequence => selects sequence && sequence &&& 0x00400000 ≠ 0) 512

section cons
variable {selects : UInt32 → Bool} {txin : TxIn} {vin : List TxIn} {base : ℤ} {bases : List ℤ}

lemma locksOf_cons_of_not {scale : ℕ} (h : selects txin.sequence = false) :
    locksOf selects scale (txin :: vin) (base :: bases) = locksOf selects scale vin bases := by
  rw [locksOf, if_neg (by simp [h])]

lemma heightLocks_cons_of_not (h : selects txin.sequence = false) :
    heightLocks selects (txin :: vin) (base :: bases) = heightLocks selects vin bases :=
  locksOf_cons_of_not (by rw [h, Bool.false_and])

lemma timeLocks_cons_of_not (h : selects txin.sequence = false) :
    timeLocks selects (txin :: vin) (base :: bases) = timeLocks selects vin bases :=
  locksOf_cons_of_not (by rw [h, Bool.false_and])

lemma heightLocks_cons_timed (h : txin.sequence &&& 0x00400000 ≠ 0) :
    heightLocks selects (txin :: vin) (base :: bases) = heightLocks selects vin bases :=
  locksOf_cons_of_not (by simp [h])

lemma timeLocks_cons_untimed (h : txin.sequence &&& 0x00400000 = 0) :
    timeLocks selects (txin :: vin) (base :: bases) = timeLocks selects vin bases :=
  locksOf_cons_of_not (by simp [h])

lemma heightLocks_cons (hselects : selects txin.sequence = true)
    (h : txin.sequence &&& 0x00400000 = 0) :
    heightLocks selects (txin :: vin) (base :: bases) =
      (base + (txin.sequence &&& 0x0000ffff).toNat) :: heightLocks selects vin bases := by
  rw [heightLocks, locksOf, if_pos (by rw [hselects, h]; rfl), Nat.one_mul]

lemma timeLocks_cons (hselects : selects txin.sequence = true)
    (h : txin.sequence &&& 0x00400000 ≠ 0) :
    timeLocks selects (txin :: vin) (base :: bases) =
      (base + ((txin.sequence &&& 0x0000ffff).toNat <<< 9 : ℕ)) :: timeLocks selects vin bases := by
  rw [timeLocks, locksOf, if_pos (by simp [hselects, h]), Nat.shiftLeft_eq, Nat.mul_comm]

end cons

lemma getItem_length (items items' : List ℤ) (base : ℤ) :
    getItem (items ++ base :: items') items.length = .ok base := by
  simp [getItem]

/-- What the loop adds to a lock over the inputs still to come. -/
lemma sequenceLockLoop_eq {vin : List TxIn} {heights times pastHeights pastTimes : List ℤ}
    (hheights : heights.length = vin.length) (htimes : times.length = vin.length)
    (hpast : pastTimes.length = pastHeights.length) {lock : SequenceLock}
    (hminHeight : 0 ≤ lock.minHeight) (hminTime : 0 ≤ lock.minTime) :
    sequenceLockLoop (pastHeights ++ heights) (pastTimes ++ times) vin pastHeights.length lock =
      .ok { minHeight := max lock.minHeight (maxLock (heightLocks notSkipped vin heights))
            minTime := max lock.minTime (maxLock (timeLocks notSkipped vin times)) } := by
  induction vin generalizing heights times pastHeights pastTimes lock with
  | nil =>
    rw [List.length_eq_zero_iff.1 hheights, List.length_eq_zero_iff.1 htimes, sequenceLockLoop]
    change Except.ok lock =
      Except.ok (SequenceLock.mk (max lock.minHeight 0) (max lock.minTime 0))
    rw [max_eq_left hminHeight, max_eq_left hminTime]
  | cons txin vin ih =>
    obtain ⟨height, heights, rfl⟩ := List.exists_cons_of_length_eq_add_one hheights
    obtain ⟨time, times, rfl⟩ := List.exists_cons_of_length_eq_add_one htimes
    have hnext {lock : SequenceLock} := @ih heights times (pastHeights ++ [height])
      (pastTimes ++ [time]) (by simpa using hheights) (by simpa using htimes) (by simpa using hpast) lock
    simp only [List.append_assoc, List.singleton_append, List.length_append, List.length_singleton]
      at hnext
    have hheight := getItem_length pastHeights heights height
    have htime := getItem_length pastTimes times time
    rw [hpast] at htime
    rw [sequenceLockLoop]
    dsimp only
    split_ifs with hfinal hdisabled htimed
    · have hskip : notSkipped txin.sequence = false := by simp [notSkipped, hfinal]
      rw [hnext hminHeight hminTime, heightLocks_cons_of_not hskip, timeLocks_cons_of_not hskip]
    · have hskip : notSkipped txin.sequence = false := by simp [notSkipped, hdisabled]
      rw [hnext hminHeight hminTime, heightLocks_cons_of_not hskip, timeLocks_cons_of_not hskip]
    · have hselects : notSkipped txin.sequence = true := by simp [notSkipped, hfinal, hdisabled]
      rw [htime, heightLocks_cons_timed htimed, timeLocks_cons hselects htimed, maxLock_cons,
        ← max_assoc]
      exact hnext hminHeight (le_max_of_le_left hminTime)
    · have hselects : notSkipped txin.sequence = true := by simp [notSkipped, hfinal, hdisabled]
      have huntimed : txin.sequence &&& 0x00400000 = 0 := by simpa using htimed
      rw [hheight, heightLocks_cons hselects huntimed, timeLocks_cons_untimed huntimed, maxLock_cons,
        ← max_assoc]
      exact hnext (le_max_of_le_left hminHeight) hminTime

lemma calculateSequenceLock_eq {tx : Transaction} {inputsHeight inputsTime : List ℤ}
    (hheights : inputsHeight.length = tx.vin.length) (htimes : inputsTime.length = tx.vin.length) :
    calculateSequenceLock tx inputsHeight inputsTime =
      .ok { minHeight := maxLock (heightLocks notSkipped tx.vin inputsHeight)
            minTime := maxLock (timeLocks notSkipped tx.vin inputsTime) } := by
  have hloop := @sequenceLockLoop_eq tx.vin inputsHeight inputsTime [] [] hheights htimes rfl
    { minHeight := 0, minTime := 0 } (le_refl 0) (le_refl 0)
  dsimp only at hloop
  rwa [max_eq_right (maxLock_nonneg _), max_eq_right (maxLock_nonneg _)] at hloop

end locks

/-- The lock is that of the inputs with the disable flag clear, and it is satisfied exactly where
each of their locks has expired. -/
def FollowsBip68 (tx : Transaction) (inputsHeight inputsTime : List ℤ) : Prop :=
  calculateSequenceLock tx inputsHeight inputsTime =
      .ok { minHeight := maxLock (heightLocks enabled tx.vin inputsHeight)
            minTime := maxLock (timeLocks enabled tx.vin inputsTime) } ∧
    ∀ blockHeight blockTime : ℤ, 0 ≤ blockHeight → 0 ≤ blockTime →
      isSequenceLockSatisfied tx inputsHeight inputsTime blockHeight blockTime =
        .ok ((∀ lock ∈ heightLocks enabled tx.vin inputsHeight, lock ≤ blockHeight) ∧
          ∀ lock ∈ timeLocks enabled tx.vin inputsTime, lock ≤ blockTime : Bool)

/-- A lock with the maxima of some locks is satisfied where all of them have expired. -/
lemma isSatisfied_maxLock {heights times : List ℤ} {height time : ℤ} (hheight : 0 ≤ height)
    (htime : 0 ≤ time) :
    SequenceLock.isSatisfied { minHeight := maxLock heights, minTime := maxLock times } height time =
      decide ((∀ lock ∈ heights, lock ≤ height) ∧ ∀ lock ∈ times, lock ≤ time) := by
  unfold SequenceLock.isSatisfied
  simp only [maxLock_le, hheight, htime, true_and]

theorem followsBip68_iff {tx : Transaction} {inputsHeight inputsTime : List ℤ}
    (hheights : inputsHeight.length = tx.vin.length) (htimes : inputsTime.length = tx.vin.length) :
    FollowsBip68 tx inputsHeight inputsTime ↔
      Matching (heightLocks enabled tx.vin inputsHeight) (heightLocks notSkipped tx.vin inputsHeight) ∧
        Matching (timeLocks enabled tx.vin inputsTime) (timeLocks notSkipped tx.vin inputsTime) := by
  have hlock := calculateSequenceLock_eq hheights htimes
  rw [← maxLock_eq_maxLock, ← maxLock_eq_maxLock]
  constructor
  · rintro ⟨hcalculate, -⟩
    rw [hlock, Except.ok.injEq, SequenceLock.mk.injEq] at hcalculate
    exact ⟨hcalculate.1.symm, hcalculate.2.symm⟩
  · rintro ⟨hheight, htime⟩
    rw [← hheight, ← htime] at hlock
    refine ⟨hlock, ?_⟩
    intro blockHeight blockTime hblockHeight hblockTime
    rw [isSequenceLockSatisfied, hlock]
    exact congrArg Except.ok (isSatisfied_maxLock hblockHeight hblockTime)

/-- A payment with one input of the given sequence. -/
def relativePayment (sequence : UInt32) : Transaction :=
  { version := 2
    vin := [{ prevTxHash := [], prevTxIndex := 0, scriptSig := [], sequence := sequence,
              witness := [] }]
    vout := []
    locktime := 0 }

theorem followsBip68_iff_final :
    FollowsBip68 (relativePayment 0xffffffff) [100] [0] ↔
      Matching (heightLocks enabled (relativePayment 0xffffffff).vin [100])
          (heightLocks notSkipped (relativePayment 0xffffffff).vin [100]) ∧
        Matching (timeLocks enabled (relativePayment 0xffffffff).vin [0])
          (timeLocks notSkipped (relativePayment 0xffffffff).vin [0]) :=
  followsBip68_iff rfl rfl

theorem enabled_lock_ignored :
    isSequenceLockSatisfied (relativePayment 5) [100] [0] 0 0 = .ok true ∧
      heightLocks enabled (relativePayment 5).vin [100] = [105] ∧
      ¬ FollowsBip68 (relativePayment 5) [100] [0] := by
  have hsatisfied : isSequenceLockSatisfied (relativePayment 5) [100] [0] 0 0 = .ok true := by
    decide
  refine ⟨hsatisfied, by decide, ?_⟩
  rintro ⟨-, hexpired⟩
  have hfalse := hexpired 0 0 (le_refl 0) (le_refl 0)
  rw [hsatisfied] at hfalse
  revert hfalse
  decide

end BerzCoin
