import BerzCoin.SubsetSums

/-! `CoinSelector`: the coins that a payment spends, and what spending them costs. -/
namespace BerzCoin
open List SubsetSums

/-- `(txid, vout, amount)`. -/
structure SelectedCoin where
  txid : String
  vout : ℕ
  amount : ℕ
  deriving DecidableEq, Repr

/-- A coin as the caller has it: a dictionary, or an object with attributes. -/
inductive Utxo
  | dict (txid : Option String) (vout index amount value : Option ℕ)
  | object (txid : String) (vout amount : ℕ)
  deriving DecidableEq, Repr

/-- `_to_outpoint_tuple`. -/
def Utxo.toOutpointTuple : Utxo → SelectedCoin
  | dict txid vout index amount value =>
    ⟨txid.getD "", vout.getD (index.getD 0), amount.getD (value.getD 0)⟩
  | object txid vout amount => ⟨txid, vout, amount⟩

structure CoinSelectionResult where
  selected : List SelectedCoin
  change : ℤ
  totalSelected : ℕ
  fee : ℤ
  effectiveValue : ℤ
  deriving DecidableEq, Repr

inductive SelectionStrategy
  | optimal | largest | smallest | knapsack
  deriving DecidableEq, Repr

/-- Every other name means `optimal`. -/
def SelectionStrategy.ofName (strategy : String) : SelectionStrategy :=
  if strategy = "largest" then largest
  else if strategy = "smallest" then smallest
  else if strategy = "knapsack" then knapsack
  else optimal

namespace CoinSelector

def dustThreshold : ℤ := 546

/-- `tx_size` for a number of inputs and two outputs. -/
def txSize (inputs : ℕ) : ℕ := 10 + inputs * 150 + 2 * 34

def createResult (selected : List SelectedCoin) (target feeRate : ℕ) : CoinSelectionResult :=
  let totalSelected := (selected.map SelectedCoin.amount).sum
  let fee : ℤ := (txSize selected.length * feeRate : ℕ)
  let effectiveValue : ℤ := totalSelected - fee
  let change : ℤ := effectiveValue - target
  if 0 < change ∧ change < dustThreshold then
    -- the change is set to zero before it is added to the fee
    let change := 0
    ⟨selected, change, totalSelected, fee + change, effectiveValue⟩
  else if change < 0 then ⟨selected, 0, totalSelected, fee, effectiveValue⟩
  else ⟨selected, change, totalSelected, fee, effectiveValue⟩

@[simp] lemma selected_createResult (selected : List SelectedCoin) (target feeRate : ℕ) :
    (createResult selected target feeRate).selected = selected := by
  simp only [createResult]
  split_ifs <;> rfl

/-- The loop of `_select_largest`, from the coins and the total selected so far. -/
def largestLoop (target : ℕ) : List Utxo → List SelectedCoin × ℕ → List SelectedCoin × ℕ
  | [], state => state
  | utxo :: utxos, (selected, total) =>
    let coin := utxo.toOutpointTuple
    let state := (selected ++ [coin], total + coin.amount)
    if target ≤ state.2 then state else largestLoop target utxos state

def selectLargest (utxos : List Utxo) (target feeRate : ℕ) : Option CoinSelectionResult :=
  let (selected, total) := largestLoop target utxos.reverse ([], 0)
  if total < target then none else some (createResult selected target feeRate)

/-- The loop of `_select_smallest`: a coin that leads too far beyond the target is left out. -/
def smallestLoop (target : ℕ) : List Utxo → List SelectedCoin × ℕ → List SelectedCoin × ℕ
  | [], state => state
  | utxo :: utxos, (selected, total) =>
    let coin := utxo.toOutpointTuple
    let state :=
      if total + coin.amount ≤ target + 10000 then (selected ++ [coin], total + coin.amount)
      else (selected, total)
    if target ≤ state.2 then state else smallestLoop target utxos state

def selectSmallest (utxos : List Utxo) (target feeRate : ℕ) : Option CoinSelectionResult :=
  let (selected, total) := smallestLoop target utxos ([], 0)
  if total < target then selectLargest utxos target feeRate
  else some (createResult selected target feeRate)

/-- The table of `_select_knapsack`, by the amount that the coins of an entry add up to. -/
abbrev KnapsackTable := List (Option (List SelectedCoin))

/-- `dp[i]`, `None` also beyond the table. -/
def KnapsackTable.entry (dp : KnapsackTable) (i : ℕ) : Option (List SelectedCoin) := (dp[i]?).join

/-- One turn of the inner loop. -/
def knapsackTurn (coin : SelectedCoin) (dp : KnapsackTable) (i : ℕ) : KnapsackTable :=
  match dp.entry i with
  | none => dp
  | some chosen =>
    if i + coin.amount < dp.length then
      match dp.entry (i + coin.amount) with
      | none => dp.set (i + coin.amount) (some (chosen ++ [coin]))
      | some held =>
        if chosen.length + 1 < held.length then
          dp.set (i + coin.amount) (some (chosen ++ [coin]))
        else dp
    else dp

/-- The inner loop goes through the table downwards. -/
def knapsackSweep (dp : KnapsackTable) (utxo : Utxo) : KnapsackTable :=
  (range dp.length).reverse.foldl (knapsackTurn utxo.toOutpointTuple) dp

def knapsackTable (utxos : List Utxo) (target : ℕ) : KnapsackTable :=
  utxos.foldl knapsackSweep ((replicate (target + 10000) none).set 0 (some []))

/-- The first entry from the target on. -/
def bestSelection (dp : KnapsackTable) (target : ℕ) : Option (List SelectedCoin) :=
  (range' target (min (target + 10000) dp.length - target)).findSome? dp.entry

def selectKnapsack (utxos : List Utxo) (target feeRate : ℕ) : Option CoinSelectionResult :=
  match bestSelection (knapsackTable utxos target) target with
  | none => selectLargest utxos target feeRate
  | some selected => some (createResult selected target feeRate)

/-- A result that covers the target after its fee. -/
def covering (target : ℕ) (result : Option CoinSelectionResult) : Option CoinSelectionResult :=
  result.filter fun result => (target : ℤ) ≤ result.effectiveValue

def selectOptimal (utxos : List Utxo) (target feeRate : ℕ) : Option CoinSelectionResult :=
  ((covering target (selectKnapsack utxos target feeRate)).or
    (covering target (selectSmallest utxos target feeRate))).or
      (covering target (selectLargest utxos target feeRate))

/-- `utxos_sorted`. -/
def sorted (utxos : List Utxo) : List Utxo :=
  utxos.mergeSort fun utxo utxo' => utxo.toOutpointTuple.amount ≤ utxo'.toOutpointTuple.amount

def selectCoins (utxos : List Utxo) (target feeRate : ℕ) (strategy : String) :
    Option CoinSelectionResult :=
  if utxos = [] then none
  else
    match SelectionStrategy.ofName strategy with
    | .largest => selectLargest (sorted utxos) target feeRate
    | .smallest => selectSmallest (sorted utxos) target feeRate
    | .knapsack => selectKnapsack (sorted utxos) target feeRate
    | .optimal => selectOptimal (sorted utxos) target feeRate

/-! What the loops select. -/
section loops
open SelectedCoin (amount)
variable {utxos : List Utxo} {target feeRate : ℕ}

abbrev coins (utxos : List Utxo) : List SelectedCoin := utxos.map Utxo.toOutpointTuple

lemma largestLoop_eq (utxos : List Utxo) (selected : List SelectedCoin) (sum : ℕ) :
    largestLoop target utxos (selected, sum) =
      (selected ++ upTo amount target sum (coins utxos),
        sum + total amount (upTo amount target sum (coins utxos))) := by
  induction utxos generalizing selected sum with
  | nil => simp [largestLoop, upTo]
  | cons utxo utxos ih =>
    simp only [largestLoop, map_cons, upTo]
    split_ifs with h
    · simp
    · rw [ih]
      simp [Nat.add_assoc]

/-- Coins in ascending order: once one of them is left out, the rest is left out too. -/
lemma smallestLoop_of_over {selected : List SelectedCoin} {sum : ℕ} (hsum : sum < target)
    (hover : ∀ coin ∈ coins utxos, target + 10000 < sum + coin.amount) :
    smallestLoop target utxos (selected, sum) = (selected, sum) := by
  induction utxos with
  | nil => rfl
  | cons utxo utxos ih =>
    have hhead : target + 10000 < sum + utxo.toOutpointTuple.amount := hover _ mem_cons_self
    simp only [smallestLoop, if_neg (not_le.2 hhead), if_neg (not_le.2 hsum)]
    exact ih fun coin hcoin => hover coin (mem_cons_of_mem _ hcoin)

lemma smallestLoop_spec {selected : List SelectedCoin} {sum : ℕ} (hsum : sum < target)
    (hsorted : (coins utxos).Pairwise fun coin coin' => coin.amount ≤ coin'.amount) :
    if sum + total amount (upTo amount target sum (coins utxos)) ≤ target + 10000 then
      smallestLoop target utxos (selected, sum) =
        (selected ++ upTo amount target sum (coins utxos),
          sum + total amount (upTo amount target sum (coins utxos)))
    else (smallestLoop target utxos (selected, sum)).2 < target := by
  induction utxos generalizing selected sum with
  | nil => simp [smallestLoop, upTo, show sum ≤ target + 10000 by omega]
  | cons utxo utxos ih =>
    obtain ⟨hhead, htail⟩ := pairwise_cons.1 hsorted
    by_cases hfits : sum + utxo.toOutpointTuple.amount ≤ target + 10000
    · by_cases hreach : target ≤ sum + utxo.toOutpointTuple.amount
      · simp [smallestLoop, upTo, hfits, hreach]
      · have hrest := @ih (selected ++ [utxo.toOutpointTuple]) _ (not_le.1 hreach) htail
        simpa [smallestLoop, upTo, hfits, hreach, Nat.add_assoc] using hrest
    · have hreach : target ≤ sum + utxo.toOutpointTuple.amount := by omega
      have hrest : smallestLoop target utxos (selected, sum) = (selected, sum) := by
        apply smallestLoop_of_over hsum
        intro coin hcoin
        have hle := hhead coin hcoin
        omega
      simp [smallestLoop, upTo, hfits, hreach, hrest, not_le.2 hsum, hsum]

lemma selectLargest_spec (htarget : 0 < target) :
    (total amount (coins utxos) < target ∧ selectLargest utxos target feeRate = none) ∨
      ∃ chosen, IsShortest amount target (coins utxos).reverse chosen ∧
        selectLargest utxos target feeRate = some (createResult chosen target feeRate) := by
  have htotal : total amount (coins utxos.reverse) = total amount (coins utxos) :=
    total_perm (utxos.reverse_perm.map _)
  rw [selectLargest, largestLoop_eq]
  simp only [nil_append, Nat.zero_add]
  by_cases hreach : target ≤ total amount (coins utxos)
  · have hshortest := @upTo_isShortest _ amount target 0 (coins utxos.reverse) htarget
      (by omega)
    rw [Nat.sub_zero] at hshortest
    refine .inr ⟨_, ?_, if_neg (not_lt.2 hshortest.reaches)⟩
    rw [← map_reverse]
    exact hshortest
  · refine .inl ⟨not_le.1 hreach, ?_⟩
    rw [upTo_of_lt (by omega), if_pos (by omega)]

lemma selectSmallest_spec (htarget : 0 < target)
    (hsorted : (coins utxos).Pairwise fun coin coin' => coin.amount ≤ coin'.amount) :
    (∃ chosen, IsShortest amount target (coins utxos) chosen ∧
        total amount chosen ≤ target + 10000 ∧
        selectSmallest utxos target feeRate = some (createResult chosen target feeRate)) ∨
      (∀ chosen, IsShortest amount target (coins utxos) chosen →
          target + 10000 < total amount chosen) ∧
        selectSmallest utxos target feeRate = selectLargest utxos target feeRate := by
  have hloop := @smallestLoop_spec utxos target [] 0 htarget hsorted
  simp only [nil_append, Nat.zero_add] at hloop
  by_cases hreach : target ≤ total amount (coins utxos)
  · have hshortest := @upTo_isShortest _ amount target 0 (coins utxos) htarget
      (by omega)
    rw [Nat.sub_zero] at hshortest
    split_ifs at hloop with hfits
    · refine .inl ⟨_, hshortest, hfits, ?_⟩
      rw [selectSmallest, hloop]
      exact if_neg (not_lt.2 hshortest.reaches)
    · refine .inr ⟨?_, ?_⟩
      · intro chosen hchosen
        rw [hchosen.unique hshortest]
        exact not_le.1 hfits
      · rw [selectSmallest]
        exact if_pos hloop
  · refine .inr ⟨?_, ?_⟩
    · intro chosen hchosen
      have hle := @total_subperm_le _ amount _ _ hchosen.subperm
      have hge := hchosen.reaches
      omega
    · rw [upTo_of_lt (by omega), if_pos (by omega)] at hloop
      rw [selectSmallest, hloop]
      exact if_pos (not_le.1 hreach)

end loops

/-! The table of the knapsack. -/
section knapsack
open SelectedCoin (amount)
variable {coin : SelectedCoin} {dp dp' : KnapsackTable} {utxos : List Utxo} {target feeRate s : ℕ}

@[simp] lemma length_knapsackTurn (i : ℕ) : (knapsackTurn coin dp i).length = dp.length := by
  unfold knapsackTurn
  repeat' split
  all_goals simp

@[simp] lemma length_foldl_knapsackTurn (turns : List ℕ) :
    (turns.foldl (knapsackTurn coin) dp).length = dp.length := by
  induction turns generalizing dp with
  | nil => rfl
  | cons i turns ih => rw [foldl_cons, ih, length_knapsackTurn]

lemma entry_set {i : ℕ} {cell : Option (List SelectedCoin)} (hi : i < dp.length) (s : ℕ) :
    KnapsackTable.entry (dp.set i cell) s = if s = i then cell else dp.entry s := by
  unfold KnapsackTable.entry
  split_ifs with h
  · subst h
    rw [getElem?_set_self hi]
    rfl
  · rw [getElem?_set_ne (Ne.symm h)]

/-- A turn improves one entry. -/
lemma entry_knapsackTurn (i : ℕ) (hs : s < dp.length) :
    (knapsackTurn coin dp i).entry s =
      if s = i + coin.amount then fewer (dp.entry s) ((dp.entry i).map (· ++ [coin]))
      else dp.entry s := by
  unfold knapsackTurn
  cases hchosen : dp.entry i with
  | none => simp [fewer]
  | some chosen =>
    by_cases hfits : i + coin.amount < dp.length
    · simp only [if_pos hfits]
      cases hheld : dp.entry (i + coin.amount) with
      | none =>
        rw [entry_set hfits]
        split_ifs with h
        · subst h
          simp [hheld, fewer]
        · rfl
      | some held =>
        by_cases hless : chosen.length + 1 < held.length
        · simp only [if_pos hless, entry_set hfits]
          split_ifs with h
          · subst h
            simp [hheld, fewer, hless]
          · rfl
        · simp only [if_neg hless]
          split_ifs with h
          · subst h
            simp [hheld, fewer, hless]
          · rfl
    · simp only [if_neg hfits]
      rw [if_neg]
      rintro rfl
      exact hfits hs

/-- The turns from `n` down find the entries that they read as they were before the sweep. -/
lemma entry_turns (hpos : 0 < coin.amount) (n : ℕ) (hlength : dp'.length = dp.length)
    (hdone : ∀ s < dp.length, dp'.entry s =
      if n + coin.amount ≤ s then
        fewer (dp.entry s) ((dp.entry (s - coin.amount)).map (· ++ [coin]))
      else dp.entry s) (hs : s < dp.length) :
    ((range n).reverse.foldl (knapsackTurn coin) dp' : KnapsackTable).entry s =
      if coin.amount ≤ s then
        fewer (dp.entry s) ((dp.entry (s - coin.amount)).map (· ++ [coin]))
      else dp.entry s := by
  induction n generalizing dp' with
  | zero => simpa using hdone s hs
  | succ n ih =>
    rw [range_succ, reverse_append, reverse_singleton, singleton_append, foldl_cons]
    apply ih (by rw [length_knapsackTurn, hlength])
    intro s hs
    rw [entry_knapsackTurn n (hlength ▸ hs), hdone s hs]
    by_cases hturn : s = n + coin.amount
    · rw [if_pos hturn, if_neg (by omega), if_pos hturn.ge, hdone n (by omega),
        if_neg (by omega), hturn, Nat.add_sub_cancel]
    · rw [if_neg hturn]
      by_cases hle : n + coin.amount ≤ s
      · rw [if_pos hle, if_pos (by omega)]
      · rw [if_neg hle, if_neg (by omega)]

lemma entry_turns_zero (hzero : coin.amount = 0) (turns : List ℕ) (hs : s < dp.length) :
    (turns.foldl (knapsackTurn coin) dp : KnapsackTable).entry s = dp.entry s := by
  induction turns generalizing dp with
  | nil => rfl
  | cons i turns ih =>
    rw [foldl_cons, ih (by rwa [length_knapsackTurn]), entry_knapsackTurn i hs, hzero, Nat.add_zero]
    split_ifs with h
    · subst h
      cases dp.entry s <;> simp [fewer]
    · rfl

/-- The table settles every sum for the coins that were seen. -/
def TableFor (seen : List SelectedCoin) (dp : KnapsackTable) : Prop :=
  ∀ s < dp.length, Settles amount seen s (dp.entry s)

lemma tableFor_sweep {seen : List SelectedCoin} (h : TableFor seen dp) (utxo : Utxo) :
    TableFor (utxo.toOutpointTuple :: seen) (knapsackSweep dp utxo) := by
  intro s hs
  rw [knapsackSweep, length_foldl_knapsackTurn] at hs
  rcases Nat.eq_zero_or_pos utxo.toOutpointTuple.amount with hzero | hpos
  · rw [knapsackSweep, entry_turns_zero hzero _ hs]
    exact (h s hs).cons_zero hzero
  · rw [knapsackSweep, entry_turns hpos dp.length rfl _ hs]
    · split_ifs with hle
      · apply (h s hs).cons
        · intro _
          exact h _ (by omega)
        · omega
      · exact @Settles.cons _ _ seen _ s _ none (h s hs) (fun hle' => (hle hle').elim) fun _ => rfl
    · intro s hs
      rw [if_neg (by omega)]

lemma tableFor_foldl {seen : List SelectedCoin} (h : TableFor seen dp) (utxos : List Utxo) :
    TableFor ((coins utxos).reverse ++ seen) (utxos.foldl knapsackSweep dp) := by
  induction utxos generalizing dp seen with
  | nil => exact h
  | cons utxo utxos ih => simpa using ih (tableFor_sweep h utxo)

lemma length_knapsackTable (utxos : List Utxo) (target : ℕ) :
    (knapsackTable utxos target).length = target + 10000 := by
  have hfold (dp : KnapsackTable) : (utxos.foldl knapsackSweep dp).length = dp.length := by
    induction utxos generalizing dp with
    | nil => rfl
    | cons utxo utxos ih => rw [foldl_cons, ih, knapsackSweep, length_foldl_knapsackTurn]
  rw [knapsackTable, hfold, length_set, length_replicate]

/-- The invariant of the outer loop, at its end. -/
theorem tableFor_knapsackTable (utxos : List Utxo) (target : ℕ) :
    TableFor (coins utxos) (knapsackTable utxos target) := by
  have hstart : TableFor [] ((replicate (target + 10000) none).set 0 (some [])) := by
    intro s hs
    rw [length_set, length_replicate] at hs
    have hentry : KnapsackTable.entry ((replicate (target + 10000) none).set 0 (some [])) s =
        if s = 0 then some [] else none := by
      rw [entry_set (by simp)]
      simp [KnapsackTable.entry, hs]
    rw [hentry]
    exact settles_nil s
  intro s hs
  have hsettles := tableFor_foldl hstart utxos s hs
  rw [append_nil] at hsettles
  exact hsettles.perm (reverse_perm _)

/-- Coins that add up to the smallest amount of the window, as few as there are. -/
structure IsBest (utxos : List SelectedCoin) (target : ℕ) (chosen : List SelectedCoin) : Prop where
  fewest : IsFewest amount utxos (total amount chosen) chosen
  reaches : target ≤ total amount chosen
  window : total amount chosen < target + 10000
  smallest : ∀ other, other <+~ utxos → target ≤ total amount other →
    total amount chosen ≤ total amount other

lemma bestSelection_spec (utxos : List Utxo) (target : ℕ) :
    match bestSelection (knapsackTable utxos target) target with
    | none => ∀ other, other <+~ coins utxos → target ≤ total amount other →
        target + 10000 ≤ total amount other
    | some chosen => IsBest (coins utxos) target chosen := by
  have htable := tableFor_knapsackTable utxos target
  have hlength := length_knapsackTable utxos target
  have hnone (s : ℕ) (hs : s < target + 10000) (hentry : (knapsackTable utxos target).entry s = none)
      (other : List SelectedCoin) (hother : other <+~ coins utxos) : total amount other ≠ s := by
    have hsettles := htable s (by omega)
    rw [hentry] at hsettles
    exact hsettles other hother
  cases hbest : bestSelection (knapsackTable utxos target) target with
  | none =>
    intro other hother hreach
    by_contra hlt
    rw [bestSelection, findSome?_eq_none_iff] at hbest
    refine hnone (total amount other) (by omega) (hbest _ ?_) other hother rfl
    rw [mem_range'_1]
    omega
  | some chosen =>
    rw [bestSelection, findSome?_eq_some_iff] at hbest
    obtain ⟨before, s, after, hrange, hentry, hbefore⟩ := hbest
    obtain ⟨k, -, rfl, hrest⟩ := range'_eq_append_iff.1 hrange
    have hs : target ≤ s ∧ s < target + 10000 := by
      have hmem : s ∈ range' target (min (target + 10000) (knapsackTable utxos target).length - target) := by
        rw [hrange]
        exact mem_append_right _ mem_cons_self
      rw [mem_range'_1] at hmem
      omega
    have hfirst : target + k * 1 = s := (range'_eq_cons_iff.1 hrest.symm).1
    have hfewest := htable s (by omega)
    rw [hentry] at hfewest
    have htotal := hfewest.total
    refine ⟨htotal ▸ hfewest, by omega, by omega, ?_⟩
    intro other hother hreach
    by_contra hlt
    refine hnone (total amount other) (by omega) (hbefore _ ?_) other hother rfl
    rw [mem_range'_1]
    omega

lemma selectKnapsack_spec :
    (∃ chosen, IsBest (coins utxos) target chosen ∧
        selectKnapsack utxos target feeRate = some (createResult chosen target feeRate)) ∨
      (∀ other, other <+~ coins utxos → target ≤ total amount other →
          target + 10000 ≤ total amount other) ∧
        selectKnapsack utxos target feeRate = selectLargest utxos target feeRate := by
  have hspec := bestSelection_spec utxos target
  unfold selectKnapsack
  cases hbest : bestSelection (knapsackTable utxos target) target with
  | none =>
    rw [hbest] at hspec
    exact .inr ⟨hspec, rfl⟩
  | some chosen =>
    rw [hbest] at hspec
    exact .inl ⟨chosen, hspec, rfl⟩

/-- Where some coins add up to an amount of the window, the selection takes each coin at most once,
adds up to the smallest amount of the window, and no selection with this amount has fewer coins. -/
theorem selectKnapsack_optimal {subset : List SelectedCoin} (hsubset : subset <+~ coins utxos)
    (hreach : target ≤ total amount subset) (hwindow : total amount subset < target + 10000) :
    ∃ result, selectKnapsack utxos target feeRate = some result ∧
      result.selected <+~ coins utxos ∧
      target ≤ total amount result.selected ∧ total amount result.selected < target + 10000 ∧
      (∀ other, other <+~ coins utxos → target ≤ total amount other →
        total amount result.selected ≤ total amount other) ∧
      ∀ other, other <+~ coins utxos → total amount other = total amount result.selected →
        result.selected.length ≤ other.length := by
  obtain ⟨chosen, hbest, hresult⟩ | ⟨hbeyond, -⟩ :=
    @selectKnapsack_spec utxos target feeRate
  · refine ⟨_, hresult, ?_⟩
    rw [selected_createResult]
    exact ⟨hbest.fewest.subperm, hbest.reaches, hbest.window, hbest.smallest, hbest.fewest.fewest⟩
  · have hle := hbeyond subset hsubset hreach
    omega

/-- Two coins that only reach the target together. -/
theorem selectKnapsack_optimal_two :
    ∃ result, selectKnapsack [.object "aa" 0 700, .object "bb" 1 800] 1000 1 = some result ∧
      result.selected <+~ [⟨"aa", 0, 700⟩, ⟨"bb", 1, 800⟩] ∧
      1000 ≤ total amount result.selected ∧ total amount result.selected < 1000 + 10000 ∧
      (∀ other, other <+~ [⟨"aa", 0, 700⟩, ⟨"bb", 1, 800⟩] → 1000 ≤ total amount other →
        total amount result.selected ≤ total amount other) ∧
      ∀ other, other <+~ [⟨"aa", 0, 700⟩, ⟨"bb", 1, 800⟩] →
        total amount other = total amount result.selected →
          result.selected.length ≤ other.length :=
  @selectKnapsack_optimal [.object "aa" 0 700, .object "bb" 1 800] 1000 1
    [⟨"aa", 0, 700⟩, ⟨"bb", 1, 800⟩] (.refl _) (by decide) (by decide)

end knapsack

end CoinSelector
end BerzCoin
