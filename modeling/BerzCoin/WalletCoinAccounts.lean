import BerzCoin.WalletCoinSelection

/-! What the four strategies select, told by the amounts alone, and when the accounts of their
results are right. -/
namespace BerzCoin.CoinSelector
open List SubsetSums
open SelectedCoin (amount)

/-- The fee of `_create_result` for a number of inputs. -/
def charge (feeRate inputs : ℕ) : ℕ := txSize inputs * feeRate

/-- The coins pay for the target and for their fee. -/
def Covers (target feeRate : ℕ) (chosen : List SelectedCoin) : Prop :=
  target + charge feeRate chosen.length ≤ total amount chosen

instance (target feeRate : ℕ) (chosen : List SelectedCoin) : Decidable (Covers target feeRate chosen) :=
  inferInstanceAs (Decidable (_ ≤ _))

/-- The coins pay for the target and for their fee, and what is left is nothing or no dust. -/
def LeavesNoDust (target feeRate : ℕ) (chosen : List SelectedCoin) : Prop :=
  total amount chosen = target + charge feeRate chosen.length ∨
    target + charge feeRate chosen.length + 546 ≤ total amount chosen

/-- The accounts of a result are right, and it takes each coin at most once. -/
structure Conserves (coins : List SelectedCoin) (target : ℕ) (result : CoinSelectionResult) :
    Prop where
  sum : result.totalSelected = total amount result.selected
  balance : (result.totalSelected : ℤ) = target + result.fee + result.change
  change : result.change = 0 ∨ dustThreshold ≤ result.change
  once : result.selected <+~ coins

def ascending (coins : List SelectedCoin) : List SelectedCoin :=
  coins.mergeSort fun coin coin' => coin.amount ≤ coin'.amount

/-! The selections, without the table and the loops. The fee is not looked at. -/

def LargestFirst (coins : List SelectedCoin) (target : ℕ) (chosen : List SelectedCoin) : Prop :=
  IsShortest amount target (ascending coins).reverse chosen

def SmallestFirst (coins : List SelectedCoin) (target : ℕ) (chosen : List SelectedCoin) : Prop :=
  IsShortest amount target (ascending coins) chosen ∧ total amount chosen ≤ target + 10000

/-- The first selection if there is one, else the second. -/
def Else (first second : List SelectedCoin → Prop) (chosen : List SelectedCoin) : Prop :=
  first chosen ∨ (∀ other, ¬ first other) ∧ second chosen

/-- The coins that a strategy takes. -/
def Takes (coins : List SelectedCoin) (target feeRate : ℕ) :
    SelectionStrategy → List SelectedCoin → Prop
  | .largest => LargestFirst coins target
  | .smallest => Else (SmallestFirst coins target) (LargestFirst coins target)
  | .knapsack => Else (IsBest coins target) (LargestFirst coins target)
  | .optimal =>
    Else (fun chosen => Else (IsBest coins target) (LargestFirst coins target) chosen ∧
        Covers target feeRate chosen)
      (Else (fun chosen => Else (SmallestFirst coins target) (LargestFirst coins target) chosen ∧
          Covers target feeRate chosen)
        fun chosen => LargestFirst coins target chosen ∧ Covers target feeRate chosen)

section accounts
variable {utxos : List Utxo} {selection : List SelectedCoin} {target feeRate : ℕ}
  {chosen chosen' : List SelectedCoin}

lemma effectiveValue_createResult :
    (createResult chosen target feeRate).effectiveValue =
      total amount chosen - charge feeRate chosen.length := by
  simp only [createResult]
  split_ifs <;> rfl

lemma covers_iff_le : Covers target feeRate chosen ↔
    (target : ℤ) ≤ (createResult chosen target feeRate).effectiveValue := by
  rw [effectiveValue_createResult, Covers]
  omega

/-- The balance fails exactly where dust is dropped or the fee is not covered. -/
lemma conserves_createResult_iff (h : chosen <+~ selection) :
    Conserves selection target (createResult chosen target feeRate) ↔
      LeavesNoDust target feeRate chosen := by
  have hsum : (chosen.map amount).sum = total amount chosen := rfl
  have hcharge : ((txSize chosen.length * feeRate : ℕ) : ℤ) = charge feeRate chosen.length := rfl
  have hresult : ∃ change fee : ℤ, createResult chosen target feeRate =
      ⟨chosen, change, total amount chosen, fee, total amount chosen - charge feeRate chosen.length⟩ ∧
      (change = 0 ∨ dustThreshold ≤ change) ∧
      ((total amount chosen : ℤ) = target + fee + change ↔ LeavesNoDust target feeRate chosen) := by
    simp only [createResult, hsum, hcharge, LeavesNoDust, dustThreshold]
    split_ifs with hdust hshort
    · exact ⟨_, _, rfl, .inl rfl, by omega⟩
    · exact ⟨_, _, rfl, .inl rfl, by omega⟩
    · exact ⟨_, _, rfl, by omega, by omega⟩
  obtain ⟨change, fee, hresult, hchange, hbalance⟩ := hresult
  rw [hresult, ← hbalance]
  exact ⟨fun hconserves => hconserves.balance, fun hbalance => ⟨rfl, hbalance, hchange, h⟩⟩

/-! The code follows the selections. -/

/-- The run returns the result for coins that the selection admits, or nothing if there are none. -/
def Follows (target feeRate : ℕ) (takes : List SelectedCoin → Prop)
    (run : Option CoinSelectionResult) : Prop :=
  (∃ chosen, takes chosen ∧ run = some (createResult chosen target feeRate)) ∨
    (∀ chosen, ¬ takes chosen) ∧ run = none

variable {takes first second : List SelectedCoin → Prop} {run run' : Option CoinSelectionResult}

lemma Follows.fallback
    (h : (∃ chosen, first chosen ∧ run = some (createResult chosen target feeRate)) ∨
      (∀ chosen, ¬ first chosen) ∧ run = run') (h' : Follows target feeRate second run') :
    Follows target feeRate (Else first second) run := by
  obtain ⟨chosen, hchosen, hrun⟩ | ⟨hnone, rfl⟩ := h
  · exact .inl ⟨chosen, .inl hchosen, hrun⟩
  · obtain ⟨chosen, hchosen, hrun⟩ | ⟨hnone', hrun⟩ := h'
    · exact .inl ⟨chosen, .inr ⟨hnone, hchosen⟩, hrun⟩
    · refine .inr ⟨?_, hrun⟩
      rintro chosen (hchosen | ⟨-, hchosen⟩)
      · exact hnone chosen hchosen
      · exact hnone' chosen hchosen

lemma Follows.orElse (h : Follows target feeRate first run) (h' : Follows target feeRate second run') :
    Follows target feeRate (Else first second) (run.or run') := by
  apply Follows.fallback _ h'
  obtain ⟨chosen, hchosen, rfl⟩ | ⟨hnone, rfl⟩ := h
  · exact .inl ⟨chosen, hchosen, rfl⟩
  · exact .inr ⟨hnone, rfl⟩

/-- The selections of one kind have the same total and the same number of coins. -/
def OneCost (takes : List SelectedCoin → Prop) : Prop :=
  ∀ chosen chosen', takes chosen → takes chosen' →
    total amount chosen = total amount chosen' ∧ chosen.length = chosen'.length

lemma OneCost.covers (h : OneCost takes) (hchosen : takes chosen) (hchosen' : takes chosen')
    (hcovers : Covers target feeRate chosen) : Covers target feeRate chosen' := by
  obtain ⟨htotal, hlength⟩ := h chosen chosen' hchosen hchosen'
  rwa [Covers, ← htotal, ← hlength]

lemma OneCost.orElse (h : OneCost first) (h' : OneCost second) : OneCost (Else first second) := by
  rintro chosen chosen' (hchosen | ⟨hnone, hchosen⟩) (hchosen' | ⟨hnone', hchosen'⟩)
  · exact h chosen chosen' hchosen hchosen'
  · exact (hnone' chosen hchosen).elim
  · exact (hnone chosen' hchosen').elim
  · exact h' chosen chosen' hchosen hchosen'

lemma OneCost.and (h : OneCost takes) (p : List SelectedCoin → Prop) :
    OneCost fun chosen => takes chosen ∧ p chosen :=
  fun chosen chosen' hchosen hchosen' => h chosen chosen' hchosen.1 hchosen'.1

lemma Follows.covering (h : Follows target feeRate takes run) (hone : OneCost takes) :
    Follows target feeRate (fun chosen => takes chosen ∧ Covers target feeRate chosen)
      (CoinSelector.covering target run) := by
  obtain ⟨chosen, hchosen, rfl⟩ | ⟨hnone, rfl⟩ := h
  · by_cases hcovers : Covers target feeRate chosen
    · refine .inl ⟨chosen, ⟨hchosen, hcovers⟩, ?_⟩
      rw [CoinSelector.covering, Option.filter_some, if_pos (decide_eq_true (covers_iff_le.1 hcovers))]
    · refine .inr ⟨?_, ?_⟩
      · rintro chosen' ⟨hchosen', hcovers'⟩
        exact hcovers (hone.covers hchosen' hchosen hcovers')
      · rw [CoinSelector.covering, Option.filter_some, if_neg]
        rw [decide_eq_true_eq]
        exact fun hle => hcovers (covers_iff_le.2 hle)
  · exact .inr ⟨fun chosen hchosen => hnone chosen hchosen.1, rfl⟩

lemma coins_sorted (utxos : List Utxo) : coins (sorted utxos) = ascending (coins utxos) := by
  apply map_mergeSort
  intro utxo _ utxo' _
  rfl

lemma ascending_perm (selection : List SelectedCoin) : ascending selection ~ selection :=
  mergeSort_perm ..

lemma pairwise_ascending (selection : List SelectedCoin) :
    (ascending selection).Pairwise fun coin coin' => coin.amount ≤ coin'.amount := by
  refine (pairwise_mergeSort ?_ ?_ selection).imp fun hle => of_decide_eq_true hle
  · intro a b c hab hbc
    exact decide_eq_true ((of_decide_eq_true hab).trans (of_decide_eq_true hbc))
  · intro a b
    simp only [Bool.or_eq_true, decide_eq_true_eq]
    exact le_total a.amount b.amount

lemma LargestFirst.subperm (h : LargestFirst selection target chosen) : chosen <+~ selection :=
  h.start.sublist.subperm.trans ((reverse_perm _).trans (ascending_perm selection)).subperm

lemma SmallestFirst.subperm (h : SmallestFirst selection target chosen) : chosen <+~ selection :=
  h.1.start.sublist.subperm.trans (ascending_perm selection).subperm

lemma follows_largest (htarget : 0 < target) :
    Follows target feeRate (LargestFirst (coins utxos) target)
      (selectLargest (sorted utxos) target feeRate) := by
  obtain ⟨hshort, hrun⟩ | ⟨chosen, hchosen, hrun⟩ :=
    @selectLargest_spec (sorted utxos) target feeRate htarget
  · refine .inr ⟨?_, hrun⟩
    intro chosen hchosen
    have hle := @total_subperm_le _ amount _ _ hchosen.subperm
    have hreaches := hchosen.reaches
    rw [coins_sorted, total_perm (ascending_perm _)] at hshort
    omega
  · rw [coins_sorted] at hchosen
    exact .inl ⟨chosen, hchosen, hrun⟩

lemma follows_smallest (htarget : 0 < target) :
    Follows target feeRate (Else (SmallestFirst (coins utxos) target) (LargestFirst (coins utxos) target))
      (selectSmallest (sorted utxos) target feeRate) := by
  apply Follows.fallback _ (follows_largest htarget)
  have hsorted := pairwise_ascending (coins utxos)
  rw [← coins_sorted] at hsorted
  obtain ⟨chosen, hchosen, hfits, hrun⟩ | ⟨hbeyond, hrun⟩ :=
    @selectSmallest_spec (sorted utxos) target feeRate htarget hsorted
  · rw [coins_sorted] at hchosen
    exact .inl ⟨chosen, ⟨hchosen, hfits⟩, hrun⟩
  · refine .inr ⟨?_, hrun⟩
    rintro chosen ⟨hchosen, hfits⟩
    rw [← coins_sorted] at hchosen
    have hlt := hbeyond chosen hchosen
    omega

lemma IsBest.perm {selection' : List SelectedCoin} (hperm : selection ~ selection')
    (h : IsBest selection target chosen) : IsBest selection' target chosen where
  fewest := @Settles.perm _ _ _ _ _ (some chosen) hperm h.fewest
  reaches := h.reaches
  window := h.window
  smallest other hother := h.smallest other (hperm.subperm_left.2 hother)

lemma follows_knapsack (htarget : 0 < target) :
    Follows target feeRate (Else (IsBest (coins utxos) target) (LargestFirst (coins utxos) target))
      (selectKnapsack (sorted utxos) target feeRate) := by
  apply Follows.fallback _ (follows_largest htarget)
  have hperm : coins (sorted utxos) ~ coins utxos := by
    rw [coins_sorted]
    exact ascending_perm _
  obtain ⟨chosen, hchosen, hrun⟩ | ⟨hbeyond, hrun⟩ :=
    @selectKnapsack_spec (sorted utxos) target feeRate
  · exact .inl ⟨chosen, hchosen.perm hperm, hrun⟩
  · refine .inr ⟨?_, hrun⟩
    intro chosen hchosen
    have hle := hbeyond chosen (hperm.subperm_left.2 hchosen.fewest.subperm) hchosen.reaches
    have hlt := hchosen.window
    omega

lemma oneCost_largest : OneCost (LargestFirst selection target) := by
  intro chosen chosen' hchosen hchosen'
  rw [hchosen.unique hchosen']
  exact ⟨rfl, rfl⟩

lemma oneCost_smallest : OneCost (SmallestFirst selection target) := by
  intro chosen chosen' hchosen hchosen'
  rw [hchosen.1.unique hchosen'.1]
  exact ⟨rfl, rfl⟩

lemma oneCost_best : OneCost (IsBest selection target) := by
  intro chosen chosen' hchosen hchosen'
  have htotal : total amount chosen = total amount chosen' :=
    le_antisymm (hchosen.smallest _ hchosen'.fewest.subperm hchosen'.reaches)
      (hchosen'.smallest _ hchosen.fewest.subperm hchosen.reaches)
  refine ⟨htotal, le_antisymm ?_ ?_⟩
  · exact hchosen.fewest.fewest _ hchosen'.fewest.subperm htotal.symm
  · exact hchosen'.fewest.fewest _ hchosen.fewest.subperm htotal

lemma follows_optimal (htarget : 0 < target) :
    Follows target feeRate (Takes (coins utxos) target feeRate .optimal)
      (selectOptimal (sorted utxos) target feeRate) := by
  rw [selectOptimal, Option.or_assoc]
  exact ((follows_knapsack htarget).covering (oneCost_best.orElse oneCost_largest)).orElse
    (((follows_smallest htarget).covering (oneCost_smallest.orElse oneCost_largest)).orElse
      ((follows_largest htarget).covering oneCost_largest))

lemma oneCost_takes (strategy : SelectionStrategy) :
    OneCost (Takes selection target feeRate strategy) := by
  cases strategy with
  | largest => exact oneCost_largest
  | smallest => exact oneCost_smallest.orElse oneCost_largest
  | knapsack => exact oneCost_best.orElse oneCost_largest
  | optimal =>
    exact ((oneCost_best.orElse oneCost_largest).and _).orElse
      (((oneCost_smallest.orElse oneCost_largest).and _).orElse (oneCost_largest.and _))

/-- Whatever a strategy takes is one of three selections. -/
lemma Takes.cases {strategy : SelectionStrategy}
    (h : Takes selection target feeRate strategy chosen) :
    IsBest selection target chosen ∨ SmallestFirst selection target chosen ∨
      LargestFirst selection target chosen := by
  cases strategy with
  | largest => exact .inr (.inr h)
  | smallest => exact .inr (h.imp id And.right)
  | knapsack => exact h.imp id fun h => .inr h.2
  | optimal =>
    obtain ⟨h | ⟨-, h⟩, -⟩ | ⟨-, ⟨h | ⟨-, h⟩, -⟩ | ⟨-, h, -⟩⟩ := h
    · exact .inl h
    · exact .inr (.inr h)
    · exact .inr (.inl h)
    · exact .inr (.inr h)
    · exact .inr (.inr h)

lemma Takes.subperm {strategy : SelectionStrategy}
    (h : Takes selection target feeRate strategy chosen) :
    chosen <+~ selection ∧ target ≤ total amount chosen := by
  obtain h | h | h := h.cases
  · exact ⟨h.fewest.subperm, h.reaches⟩
  · exact ⟨h.subperm, h.1.reaches⟩
  · exact ⟨h.subperm, h.reaches⟩

/-- The run of a strategy, without the shortcut for an empty list. -/
lemma follows_selectCoins (htarget : 0 < target) (strategy : String) :
    Follows target feeRate (Takes (coins utxos) target feeRate (.ofName strategy))
      (selectCoins utxos target feeRate strategy) := by
  by_cases hnil : utxos = []
  · rw [selectCoins, if_pos hnil]
    refine .inr ⟨?_, rfl⟩
    intro chosen hchosen
    obtain ⟨hsub, hreaches⟩ := hchosen.subperm
    rw [hnil, coins, map_nil, subperm_nil] at hsub
    rw [hsub, total_nil] at hreaches
    omega
  · rw [selectCoins, if_neg hnil]
    cases SelectionStrategy.ofName strategy with
    | largest => exact follows_largest htarget
    | smallest => exact follows_smallest htarget
    | knapsack => exact follows_knapsack htarget
    | optimal => exact follows_optimal htarget

/-- The accounts of the result are right exactly where what the strategy takes pays for the target
and the fee and leaves nothing or no dust. -/
theorem selectCoins_conserves_iff (htarget : 0 < target) (strategy : String) :
    (∀ result, selectCoins utxos target feeRate strategy = some result →
        Conserves (coins utxos) target result) ↔
      ∀ chosen, Takes (coins utxos) target feeRate (.ofName strategy) chosen →
        LeavesNoDust target feeRate chosen := by
  obtain ⟨chosen, hchosen, hrun⟩ | ⟨hnone, hrun⟩ :=
    @follows_selectCoins utxos target feeRate htarget strategy
  · rw [hrun]
    constructor
    · intro h chosen' hchosen'
      obtain ⟨htotal, hlength⟩ := oneCost_takes _ chosen chosen' hchosen hchosen'
      have hexact := (conserves_createResult_iff hchosen.subperm.1).1 (h _ rfl)
      rwa [LeavesNoDust, htotal, hlength] at hexact
    · rintro h result ⟨rfl⟩
      exact (conserves_createResult_iff hchosen.subperm.1).2 (h chosen hchosen)
  · rw [hrun]
    refine iff_of_true (by simp) ?_
    intro chosen hchosen
    exact (hnone chosen hchosen).elim

/-- Two of three coins reach the target, and none alone. -/
lemma largestFirst_three (hone : 1000 < target) (htwo : target ≤ 1700) :
    LargestFirst [⟨"aa", 0, 400⟩, ⟨"bb", 0, 700⟩, ⟨"cc", 0, 1000⟩] target
      [⟨"cc", 0, 1000⟩, ⟨"bb", 0, 700⟩] := by
  have hsorted : ascending [⟨"aa", 0, 400⟩, ⟨"bb", 0, 700⟩, ⟨"cc", 0, 1000⟩] =
      [⟨"aa", 0, 400⟩, ⟨"bb", 0, 700⟩, ⟨"cc", 0, 1000⟩] := mergeSort_of_pairwise (by decide)
  have htaken : upTo amount target 0 [⟨"cc", 0, 1000⟩, ⟨"bb", 0, 700⟩, ⟨"aa", 0, 400⟩] =
      [⟨"cc", 0, 1000⟩, ⟨"bb", 0, 700⟩] := by
    simp [upTo, hone, htwo]
  rw [LargestFirst, hsorted, ← htaken]
  apply @upTo_isShortest _ amount target 0
  · omega
  · exact htwo.trans (by decide)

/-- Of three coins the two largest pay for 1322 and their fee. -/
theorem selectCoins_conserves_iff_two :
    selectCoins [.object "aa" 0 400, .object "bb" 0 700, .object "cc" 0 1000] 1322 1 "largest" =
        some ⟨[⟨"cc", 0, 1000⟩, ⟨"bb", 0, 700⟩], 0, 1700, 378, 1322⟩ ∧
      Conserves [⟨"aa", 0, 400⟩, ⟨"bb", 0, 700⟩, ⟨"cc", 0, 1000⟩] 1322
        ⟨[⟨"cc", 0, 1000⟩, ⟨"bb", 0, 700⟩], 0, 1700, 378, 1322⟩ := by
  have htwo := @largestFirst_three 1322 (by decide) (by decide)
  have hunique (chosen : List SelectedCoin)
      (h : LargestFirst [⟨"aa", 0, 400⟩, ⟨"bb", 0, 700⟩, ⟨"cc", 0, 1000⟩] 1322 chosen) :
      chosen = [⟨"cc", 0, 1000⟩, ⟨"bb", 0, 700⟩] := h.unique htwo
  have hrun : selectCoins [.object "aa" 0 400, .object "bb" 0 700, .object "cc" 0 1000] 1322 1
      "largest" = some ⟨[⟨"cc", 0, 1000⟩, ⟨"bb", 0, 700⟩], 0, 1700, 378, 1322⟩ := by
    obtain ⟨chosen, hchosen, hresult⟩ | ⟨hnone, -⟩ :=
      @follows_selectCoins [.object "aa" 0 400, .object "bb" 0 700, .object "cc" 0 1000] 1322 1
        (by decide) "largest"
    · rw [hresult, hunique chosen hchosen]
      decide
    · exact (hnone _ htwo).elim
  refine ⟨hrun, (@selectCoins_conserves_iff [.object "aa" 0 400, .object "bb" 0 700,
    .object "cc" 0 1000] 1322 1 (by decide) "largest").2 ?_ _ hrun⟩
  intro chosen hchosen
  rw [hunique chosen hchosen]
  exact .inl (by decide)

/-- What is left is dust: it is neither change nor added to the fee. -/
theorem selectCoins_drops_dust :
    ¬ ∀ result, selectCoins [.object "aa" 0 1000] 600 1 "largest" = some result →
        Conserves [⟨"aa", 0, 1000⟩] 600 result := by
  intro h
  have hrun : selectCoins [.object "aa" 0 1000] 600 1 "largest" =
      some ⟨[⟨"aa", 0, 1000⟩], 0, 1000, 228, 772⟩ := by
    simp only [selectCoins, sorted, mergeSort_singleton]
    decide
  have hbalance := (h _ hrun).balance
  norm_num at hbalance

/-- Some of the coins pay for the target and their fee. -/
def Payable (coins : List SelectedCoin) (target feeRate : ℕ) : Prop :=
  ∃ subset, subset <+~ coins ∧ Covers target feeRate subset

lemma Takes.covers (h : Takes selection target feeRate .optimal chosen) :
    Covers target feeRate chosen := by
  obtain ⟨-, hcovers⟩ | ⟨-, ⟨-, hcovers⟩ | ⟨-, -, hcovers⟩⟩ := h
  · exact hcovers
  · exact hcovers
  · exact hcovers

lemma exists_takes_optimal_iff : (∃ chosen, Takes selection target feeRate .optimal chosen) ↔
    ∃ chosen, (IsBest selection target chosen ∨ SmallestFirst selection target chosen ∨
      LargestFirst selection target chosen) ∧ Covers target feeRate chosen := by
  have horElse (first second : List SelectedCoin → Prop) :
      (∃ chosen, Else first second chosen) ↔ (∃ chosen, first chosen) ∨ ∃ chosen, second chosen := by
    constructor
    · rintro ⟨chosen, hchosen | ⟨-, hchosen⟩⟩
      · exact .inl ⟨chosen, hchosen⟩
      · exact .inr ⟨chosen, hchosen⟩
    · rintro (⟨chosen, hchosen⟩ | ⟨chosen, hchosen⟩)
      · exact ⟨chosen, .inl hchosen⟩
      · by_cases hfirst : ∃ other, first other
        · obtain ⟨other, hother⟩ := hfirst
          exact ⟨other, .inl hother⟩
        · exact ⟨chosen, .inr ⟨not_exists.1 hfirst, hchosen⟩⟩
  constructor
  · rintro ⟨chosen, hchosen⟩
    exact ⟨chosen, hchosen.cases, hchosen.covers⟩
  · rintro ⟨chosen, hchosen, hcovers⟩
    rw [Takes, horElse, horElse]
    obtain hchosen | hchosen | hchosen := hchosen
    · exact .inl ⟨chosen, .inl hchosen, hcovers⟩
    · exact .inr (.inl ⟨chosen, .inl hchosen, hcovers⟩)
    · exact .inr (.inr ⟨chosen, hchosen, hcovers⟩)

/-- The run returns a result that covers the target. -/
def Finds (target : ℕ) (run : Option CoinSelectionResult) : Prop :=
  ∃ result, run = some result ∧ (target : ℤ) ≤ result.effectiveValue

lemma finds_optimal_iff (htarget : 0 < target) :
    Finds target (selectCoins utxos target feeRate "optimal") ↔
      ∃ chosen, (IsBest (coins utxos) target chosen ∨ SmallestFirst (coins utxos) target chosen ∨
        LargestFirst (coins utxos) target chosen) ∧ Covers target feeRate chosen := by
  have hfollows := @follows_selectCoins utxos target feeRate htarget "optimal"
  rw [show SelectionStrategy.ofName "optimal" = .optimal by decide] at hfollows
  rw [← exists_takes_optimal_iff]
  obtain ⟨chosen, hchosen, hrun⟩ | ⟨hnone, hrun⟩ := hfollows
  · exact iff_of_true ⟨_, hrun, covers_iff_le.1 hchosen.covers⟩ ⟨chosen, hchosen⟩
  · refine iff_of_false ?_ (not_exists.2 hnone)
    rintro ⟨result, hresult, -⟩
    rw [hrun] at hresult
    cases hresult

/-- Where some of the coins pay, a result is found exactly if one of three selections, made without
a look at the fee, happens to pay for it as well. -/
theorem selectCoins_complete_iff (htarget : 0 < target) :
    (Payable (coins utxos) target feeRate →
        Finds target (selectCoins utxos target feeRate "optimal")) ↔
      (Payable (coins utxos) target feeRate →
        ∃ chosen, (IsBest (coins utxos) target chosen ∨ SmallestFirst (coins utxos) target chosen ∨
          LargestFirst (coins utxos) target chosen) ∧ Covers target feeRate chosen) := by
  rw [finds_optimal_iff htarget]

/-- None of the coins reaches the target, and two of them cover it with their fee. -/
theorem selectCoins_complete_iff_two :
    Finds 1200 (selectCoins [.object "aa" 0 400, .object "bb" 0 700, .object "cc" 0 1000] 1200 1
      "optimal") := by
  have htwo := @largestFirst_three 1200 (by decide) (by decide)
  apply (@selectCoins_complete_iff [.object "aa" 0 400, .object "bb" 0 700, .object "cc" 0 1000]
    1200 1 (by decide)).2
  · intro _
    exact ⟨_, .inr (.inr htwo), by decide⟩
  · exact ⟨_, htwo.subperm, by decide⟩

/-- Each of the coins reaches the target, so the strategies stop at one of them, and none pays for
its fee; together they would. -/
theorem selectCoins_misses_pair :
    ¬ (Payable [⟨"aa", 0, 1000⟩, ⟨"bb", 0, 1100⟩] 1000 1 →
        Finds 1000 (selectCoins [.object "aa" 0 1000, .object "bb" 0 1100] 1000 1 "optimal")) := by
  intro h
  have hfinds := h ⟨_, .refl _, by decide⟩
  rw [finds_optimal_iff (by decide)] at hfinds
  obtain ⟨chosen, hchosen, hcovers⟩ := hfinds
  have hsorted : ascending [⟨"aa", 0, 1000⟩, ⟨"bb", 0, 1100⟩] =
      [⟨"aa", 0, 1000⟩, ⟨"bb", 0, 1100⟩] := mergeSort_of_pairwise (by decide)
  have hpays : total amount chosen ≤ 1100 := by
    obtain hbest | hsmallest | hlargest := hchosen
    · exact (hbest.smallest [⟨"aa", 0, 1000⟩] (by simp [Utxo.toOutpointTuple]) (by decide)).trans
        (by decide)
    · have hfirst : IsShortest amount 1000 (ascending [⟨"aa", 0, 1000⟩, ⟨"bb", 0, 1100⟩])
          [⟨"aa", 0, 1000⟩] := by
        rw [hsorted]
        exact @upTo_isShortest _ amount 1000 0 [_, _] (by decide) (by decide)
      rw [hsmallest.1.unique hfirst]
      decide
    · have hfirst : IsShortest amount 1000 (ascending [⟨"aa", 0, 1000⟩, ⟨"bb", 0, 1100⟩]).reverse
          [⟨"bb", 0, 1100⟩] := by
        rw [hsorted]
        exact @upTo_isShortest _ amount 1000 0 [_, _] (by decide) (by decide)
      rw [hlargest.unique hfirst]
      decide
  have hone : 1 ≤ chosen.length := by
    cases chosen with
    | nil => simp [Covers] at hcovers
    | cons => simp
  rw [Covers, charge, txSize] at hcovers
  omega

end accounts
end BerzCoin.CoinSelector
