import BerzCoin.MempoolRejection

/-! When a rejected package leaves the mempool as it was. The roll back takes out the members that
were added; what they had evicted or replaced is not put back. -/
namespace BerzCoin
namespace Mempool
variable {F : Type}

/-- The same entries, up to their links, and the same totals. -/
structure SameEntries (pool pool' : Mempool F) : Prop where
  within : pool.Within pool'
  covers : pool'.Within pool
  size : pool.totalSize = pool'.totalSize
  vsize : pool.totalVsize = pool'.totalVsize
  weight : pool.totalWeight = pool'.totalWeight
  fee : pool.totalFee = pool'.totalFee

lemma SameEntries.refl (pool : Mempool F) : pool.SameEntries pool :=
  ⟨.refl pool, .refl pool, rfl, rfl, rfl, rfl⟩

lemma Within.core_rows_subset {pool pool' : Mempool F} (h : pool.Within pool') :
    pool.transactions.rows.map (fun r => (r.1, r.2.core)) ⊆
      pool'.transactions.rows.map fun r => (r.1, r.2.core) := by
  intro x hx
  obtain ⟨r, hr, rfl⟩ := List.mem_map.1 hx
  obtain ⟨entry, hentry, hcore⟩ := h r.1 r.2 (KeyedRows.get?_of_mem_rows hr)
  exact List.mem_map.2 ⟨(r.1, entry), KeyedRows.mem_rows_of_get? hentry, by simp [hcore]⟩

lemma core_rows_nodup (pool : Mempool F) :
    (pool.transactions.rows.map fun r => (r.1, r.2.core)).Nodup := by
  have hkeys := pool.nodup_txids
  refine List.Nodup.of_map Prod.fst ?_
  rw [List.map_map]
  exact hkeys

/-- Pools with the same entries have the same sums over them. -/
lemma total_congr {pool pool' : Mempool F} (h : pool.Within pool') (h' : pool'.Within pool)
    {f : MempoolEntry F → ℤ} (hf : ∀ entry, f entry.core = f entry) :
    pool.transactions.total f = pool'.transactions.total f := by
  have hperm : (pool.transactions.rows.map fun r => (r.1, r.2.core)).Perm
      (pool'.transactions.rows.map fun r => (r.1, r.2.core)) :=
    (List.perm_ext_iff_of_nodup (core_rows_nodup pool) (core_rows_nodup pool')).2
      fun x => ⟨fun hx => h.core_rows_subset hx, fun hx => h'.core_rows_subset hx⟩
  have hsum := (hperm.map fun r => f r.2).sum_eq
  rw [List.map_map, List.map_map] at hsum
  have hrows (rows : List (Bytes × MempoolEntry F)) :
      rows.map ((fun r => f r.2) ∘ fun r => (r.1, r.2.core)) = rows.map fun r => f r.2 :=
    List.map_congr_left fun r _ => hf r.2
  rw [hrows, hrows] at hsum
  exact hsum

lemma Books.sameEntries [LinearOrder F] {pool pool' : Mempool F} (hbooks : pool.Books) (hbooks' : pool'.Books)
    (h : pool.Within pool') (h' : pool'.Within pool) : pool.SameEntries pool' where
  within := h
  covers := h'
  size := by rw [hbooks.size, hbooks'.size, total_congr h h' fun _ => rfl]
  vsize := by rw [hbooks.vsize, hbooks'.vsize, total_congr h h' fun _ => rfl]
  weight := by rw [hbooks.weight, hbooks'.weight, total_congr h h' fun _ => rfl]
  fee := by rw [hbooks.fee, hbooks'.fee, total_congr h h' fun _ => rfl]

/-! The entries that were there before a package, which are no descendants of its members. -/

/-- No entry besides `ids` lists one of them as a descendant. -/
def Apart (ids : List Bytes) (pool : Mempool F) : Prop :=
  ∀ txid entry, pool.transactions.get? txid = some entry → txid ∉ ids →
    ∀ desc ∈ entry.descendants, desc ∉ ids

def Holds (ids : List Bytes) (pool : Mempool F) : Prop :=
  ∀ txid ∈ ids, pool.transactions.get? txid ≠ none

lemma keptByRemoval_apart (ids : List Bytes) : KeptByRemoval (Apart ids : Mempool F → Prop) := by
  intro pool txid h txid' entry hentry hnot desc hdesc
  cases hold : pool.transactions.get? txid with
  | none =>
    have hsame : pool.removeEntry txid = pool := by
      unfold removeEntry
      rw [hold]
    rw [hsame] at hentry
    exact h txid' entry hentry hnot desc hdesc
  | some old =>
    rw [removeEntry_get? hold] at hentry
    split_ifs at hentry
    obtain ⟨entry', hentry', rfl⟩ := Option.map_eq_some_iff.1 hentry
    refine h txid' entry' hentry' hnot desc ?_
    simp only [unlink] at hdesc
    split_ifs at hdesc
    · exact List.mem_of_mem_erase hdesc
    · exact hdesc

lemma removeEntry_present {pool : Mempool F} {txid txid' : Bytes} (hne : txid' ≠ txid)
    (h : pool.transactions.get? txid' ≠ none) :
    (pool.removeEntry txid).transactions.get? txid' ≠ none := by
  cases hold : pool.transactions.get? txid with
  | none =>
    unfold removeEntry
    rw [hold]
    exact h
  | some old =>
    rw [removeEntry_get? hold, if_neg hne]
    simpa using h

lemma removeEntries_holds {ids gone : List Bytes} {pool : Mempool F} (h : Holds ids pool)
    (hgone : ∀ txid ∈ gone, txid ∉ ids) : Holds ids (pool.removeEntries gone) := by
  induction gone generalizing pool with
  | nil => exact h
  | cons txid gone ih =>
    refine ih ?_ fun txid' hmem => hgone txid' (List.mem_cons_of_mem _ hmem)
    intro txid' hmem
    refine removeEntry_present ?_ (h txid' hmem)
    rintro rfl
    exact hgone txid' List.mem_cons_self hmem

lemma Apart.descendantsLoop {ids : List Bytes} {pool : Mempool F} (h : Apart ids pool) (fuel : ℕ) :
    ∀ queue found : List Bytes, (∀ txid ∈ queue, txid ∉ ids) → (∀ txid ∈ found, txid ∉ ids) →
      ∀ txid ∈ pool.descendantsLoop fuel queue found, txid ∉ ids := by
  induction fuel with
  | zero =>
    intro queue found _ hfound
    simpa [Mempool.descendantsLoop] using hfound
  | succ fuel ih =>
    intro queue found hqueue hfound
    cases queue with
    | nil => simpa [Mempool.descendantsLoop] using hfound
    | cons current queue =>
      rw [Mempool.descendantsLoop]
      have hrest : ∀ txid ∈ queue, txid ∉ ids := fun txid hmem =>
        hqueue txid (List.mem_cons_of_mem _ hmem)
      cases hcurrent : pool.transactions.get? current with
      | none => exact ih queue found hrest hfound
      | some entry =>
        have hnew : ∀ txid ∈ entry.descendants.filter (· ∉ found), txid ∉ ids := fun txid hmem =>
          h current entry hcurrent (hqueue current List.mem_cons_self) txid (List.mem_filter.1 hmem).1
        refine ih _ _ ?_ ?_
        · intro txid hmem
          rcases List.mem_append.1 hmem with hmem | hmem
          · exact hrest txid hmem
          · exact hnew txid hmem
        · intro txid hmem
          rcases List.mem_append.1 hmem with hmem | hmem
          · exact hfound txid hmem
          · exact hnew txid hmem

/-- The removal of an entry that is not among `ids` leaves them in the pool. -/
lemma Apart.removeTransaction_holds {ids : List Bytes} {pool : Mempool F} (h : Apart ids pool)
    (hold : Holds ids pool) {txid : Bytes} (hnot : txid ∉ ids) :
    Holds ids (pool.removeTransaction txid true) := by
  unfold removeTransaction
  rw [if_pos rfl]
  split_ifs
  · refine removeEntries_holds hold ?_
    intro txid' hmem
    rcases mem_addNew.1 hmem with hmem | hmem
    · rw [List.mem_singleton.1 hmem]
      exact hnot
    · exact h.descendantsLoop _ [txid] [] (by simpa using hnot) (by simp) txid' hmem
  · exact hold

lemma Apart.removeEach_holds {ids gone : List Bytes} {pool : Mempool F} (h : Apart ids pool)
    (hold : Holds ids pool) (hgone : ∀ txid ∈ gone, txid ∉ ids) :
    Holds ids (pool.removeEach gone) := by
  induction gone generalizing pool with
  | nil => exact hold
  | cons txid gone ih =>
    exact ih ((keptByRemoval_apart ids).departure pool txid h)
      (h.removeTransaction_holds hold (hgone txid List.mem_cons_self))
      fun txid' hmem => hgone txid' (List.mem_cons_of_mem _ hmem)

/-! The calls for the members. -/
section member
variable [LinearOrder F] (settings : MempoolSettings F) (chain : ChainView) {pool : Mempool F}
  {args : CallArgs F} {tx : Transaction} {c : Candidate F}

/-- The pool when a call has taken out what it takes out. -/
def leftBy (pool : Mempool F) (c : Candidate F) : Mempool F :=
  if (pool.makeRoom settings c).canAccept settings c.size c.weight then pool.cleared settings c
  else pool.makeRoom settings c

lemma KeptByDeparture.leftBy {P : Mempool F → Prop} (hP : KeptByDeparture P) (h : P pool)
    (c : Candidate F) : P (pool.leftBy settings c) := by
  unfold Mempool.leftBy
  split_ifs
  · exact hP.cleared h
  · exact hP.makeRoom settings h c

lemma leftBy_within (pool : Mempool F) (c : Candidate F) : (pool.leftBy settings c).Within pool :=
  (keptByRemoval_within pool).departure.leftBy settings (.refl pool) c

/-- None of `ids` is evicted or replaced by the call. -/
def Spares (ids : List Bytes) (pool : Mempool F) (args : CallArgs F) (tx : Transaction) : Prop :=
  ∀ c, pool.screen settings chain args tx = .ok c → Holds ids (pool.leftBy settings c)

variable {settings chain}

/-- What a call does to the entries. -/
lemma addTransaction_leftBy (hbooks : pool.Books) (hback : pool.Backed)
    (hscreen : pool.screen settings chain args tx = .ok c) :
    (pool.addTransaction settings chain args tx =
        (((pool.leftBy settings c).insertEntry chain args.now c).linkTo c.txid c.ancestors, none)) ∨
      ∃ pool' reason, pool.addTransaction settings chain args tx = (pool', some reason) ∧
        ∀ txid, pool'.transactions.get? txid = (pool.leftBy settings c).transactions.get? txid := by
  unfold Mempool.addTransaction leftBy
  rw [hscreen]
  simp only
  split_ifs
  · rcases (screen_ok hscreen).admit_cases hbooks hback args.now with ⟨heq, -⟩ | ⟨reason, heq, hsame, -⟩
    · exact Or.inl heq
    · exact Or.inr ⟨_, reason, Prod.ext rfl heq, hsame.entries⟩
  · exact Or.inr ⟨_, _, rfl, fun _ => rfl⟩

lemma addTransaction_none (hbooks : pool.Books) (hback : pool.Backed) {pool' : Mempool F}
    (h : pool.addTransaction settings chain args tx = (pool', none)) :
    ∃ c, pool.screen settings chain args tx = .ok c ∧ c.txid = tx.txid settings.crypto.toHashlib ∧
      pool' = ((pool.leftBy settings c).insertEntry chain args.now c).linkTo c.txid c.ancestors := by
  cases hscreen : pool.screen settings chain args tx with
  | error reason =>
    simp only [addTransaction, hscreen] at h
    cases h
  | ok c =>
    rcases addTransaction_leftBy hbooks hback hscreen with heq | ⟨pool'', reason, heq, -⟩
    · rw [heq] at h
      cases h
      exact ⟨c, rfl, (screen_ok hscreen).txid_eq, rfl⟩
    · rw [heq] at h
      cases h

lemma addTransaction_some (hbooks : pool.Books) (hback : pool.Backed) {pool' : Mempool F}
    {reason : RejectReason} (h : pool.addTransaction settings chain args tx = (pool', some reason)) :
    (pool' = pool ∧ ∀ c, pool.screen settings chain args tx ≠ .ok c) ∨
      ∃ c, pool.screen settings chain args tx = .ok c ∧
        ∀ txid, pool'.transactions.get? txid = (pool.leftBy settings c).transactions.get? txid := by
  cases hscreen : pool.screen settings chain args tx with
  | error reason' =>
    simp only [addTransaction, hscreen, Prod.mk.injEq] at h
    exact Or.inl ⟨h.1.symm, fun c hc => by cases hc⟩
  | ok c =>
    rcases addTransaction_leftBy hbooks hback hscreen with heq | ⟨pool'', reason', heq, hsame⟩
    · rw [heq] at h
      cases h
    · rw [heq] at h
      cases h
      exact Or.inr ⟨c, rfl, hsame⟩

/-- A new entry is the only one that a call can bring. -/
lemma admitted_get? {txid : Bytes} {now : F} {pool : Mempool F} {entry : MempoolEntry F}
    (h : ((pool.insertEntry chain now c).linkTo c.txid c.ancestors).transactions.get? txid =
      some entry) :
    (txid = c.txid ∧ entry.descendants ⊆ [c.txid]) ∨
      ∃ entry', pool.transactions.get? txid = some entry' ∧ entry.core = entry'.core ∧
        ∀ desc ∈ entry.descendants, desc ∈ entry'.descendants ∨ desc = c.txid := by
  have hlisted (entry' : MempoolEntry F) : ∀ desc ∈ (listDescendant c.txid entry').descendants,
      desc ∈ entry'.descendants ∨ desc = c.txid := by
    intro desc hdesc
    rcases mem_addNew.1 hdesc with hdesc | hdesc
    · exact Or.inl hdesc
    · exact Or.inr (List.mem_singleton.1 hdesc)
  rw [linkTo_get?, insertEntry_get?] at h
  by_cases hown : txid = c.txid
  · left
    refine ⟨hown, ?_⟩
    rw [if_pos hown] at h
    intro desc hdesc
    split_ifs at h
    · cases h
      rcases hlisted _ desc hdesc with hnil | rfl
      · cases hnil
      · exact List.mem_singleton_self _
    · cases h
      cases hdesc
  · right
    rw [if_neg hown] at h
    split_ifs at h
    · obtain ⟨entry', hentry', rfl⟩ := Option.map_eq_some_iff.1 h
      exact ⟨entry', hentry', rfl, hlisted entry'⟩
    · exact ⟨entry, h, rfl, fun desc hdesc => Or.inl hdesc⟩

lemma admitted_within {now : F} {pool : Mempool F}
    (hfresh : pool.transactions.get? c.txid = none) :
    pool.Within ((pool.insertEntry chain now c).linkTo c.txid c.ancestors) := by
  intro txid entry hentry
  have hne : txid ≠ c.txid := by
    rintro rfl
    rw [hfresh] at hentry
    cases hentry
  rw [linkTo_get?, insertEntry_get?, if_neg hne, hentry]
  split_ifs
  · exact ⟨_, rfl, rfl⟩
  · exact ⟨_, rfl, rfl⟩

end member

lemma Within.of_holds {before pool pool' : Mempool F} (h : before.Within pool)
    (hwithin : pool'.Within pool) (hholds : Holds before.txids pool') : before.Within pool' := by
  intro txid entry hentry
  obtain ⟨entry₁, hentry₁, hcore₁⟩ := h txid entry hentry
  have hpresent := hholds txid (mem_txids.2 (by simp [hentry]))
  obtain ⟨entry₂, hentry₂⟩ := Option.ne_none_iff_exists'.1 hpresent
  obtain ⟨entry₁', hentry₁', hcore₂⟩ := hwithin txid entry₂ hentry₂
  cases hentry₁.symm.trans hentry₁'
  exact ⟨entry₂, hentry₂, hcore₁.trans hcore₂.symm⟩

lemma Within.of_eq {pool pool' : Mempool F}
    (h : ∀ txid, pool'.transactions.get? txid = pool.transactions.get? txid) : pool'.Within pool :=
  fun txid entry hentry => ⟨entry, (h txid) ▸ hentry, rfl⟩

section package
variable [LinearOrder F] {settings : MempoolSettings F} {chain : ChainView} {before : Mempool F}

/-- A pool on the way through a package: what was there before, and members. -/
structure Extends (before pool : Mempool F) (added : List Bytes) : Prop where
  books : pool.Books
  backed : pool.Backed
  kept : before.Within pool
  new : ∀ txid, pool.transactions.get? txid ≠ none → txid ∈ before.txids ∨ txid ∈ added
  apart : Apart before.txids pool
  fresh : ∀ txid ∈ added, txid ∉ before.txids

variable {pool pool' : Mempool F} {added : List Bytes} {args : CallArgs F} {tx : Transaction}

lemma Extends.start (hbooks : before.Books) (hback : before.Backed) : Extends before before [] where
  books := hbooks
  backed := hback
  kept := .refl before
  new txid h := Or.inl (mem_txids.2 h)
  apart txid entry hentry hnot := absurd (mem_txids.2 (by simp [hentry])) hnot
  fresh := by simp

lemma Extends.not_mem_of_fresh (h : Extends before pool added) {txid : Bytes}
    (hnone : pool.transactions.get? txid = none) : txid ∉ before.txids := by
  intro hmem
  exact mem_txids.1 hmem (h.kept.absent hnone)

lemma member_backed (hbooks : pool.Books) (hback : pool.Backed)
    (hadd : pool.addTransaction settings chain args tx = (pool', none)) :
    pool'.Books ∧ pool'.Backed := by
  have hbooks' := hbooks.addTransaction settings chain args tx
  have hback' := @Backed.addTransaction F _ settings chain pool tx hbooks hback args
  rw [hadd] at hbooks' hback'
  exact ⟨hbooks', hback'⟩

lemma Extends.member (h : Extends before pool added)
    (hspares : Spares settings chain before.txids pool args tx)
    (hadd : pool.addTransaction settings chain args tx = (pool', none)) :
    Extends before pool' (added ++ [tx.txid settings.crypto.toHashlib]) := by
  obtain ⟨hbooks, hback⟩ := member_backed h.books h.backed hadd
  obtain ⟨c, hscreen, htxid, rfl⟩ := addTransaction_none h.books h.backed hadd
  have hwithin := leftBy_within settings pool c
  have hfresh := (screen_ok hscreen).fresh
  have hnew : c.txid ∉ before.txids := h.not_mem_of_fresh hfresh
  have hleft := (keptByRemoval_apart before.txids).departure.leftBy settings h.apart c
  refine ⟨hbooks, hback, ?_, ?_, ?_, ?_⟩
  · exact (h.kept.of_holds hwithin (hspares c hscreen)).trans (admitted_within (hwithin.absent hfresh))
  · intro txid hpresent
    obtain ⟨entry, hentry⟩ := Option.ne_none_iff_exists'.1 hpresent
    rcases admitted_get? hentry with ⟨rfl, -⟩ | ⟨entry', hentry', -⟩
    · exact Or.inr (by simp [htxid])
    · obtain ⟨entry'', hentry'', -⟩ := hwithin txid entry' hentry'
      exact (h.new txid (by simp [hentry''])).imp_right fun hmem => List.mem_append_left _ hmem
  · intro txid entry hentry hnot desc hdesc
    rcases admitted_get? hentry with ⟨-, hown⟩ | ⟨entry', hentry', -, hlisted⟩
    · rw [List.mem_singleton.1 (hown hdesc)]
      exact hnew
    · rcases hlisted desc hdesc with hdesc' | rfl
      · exact hleft txid entry' hentry' hnot desc hdesc'
      · exact hnew
  · intro txid hmem
    rcases List.mem_append.1 hmem with hmem | hmem
    · exact h.fresh txid hmem
    · rw [List.mem_singleton.1 hmem, ← htxid]
      exact hnew

/-- The roll back takes out the members and nothing else. -/
lemma Extends.rollBack (hbefore : before.Books) (h : Extends before pool added)
    (hspares : Spares settings chain before.txids pool args tx) {reason : RejectReason}
    (hadd : pool.addTransaction settings chain args tx = (pool', some reason)) :
    (pool'.removeEach added.reverse).SameEntries before := by
  have hbooks := h.books.addTransaction settings chain args tx
  rw [hadd] at hbooks
  obtain ⟨left, hsame, hwithin, hapart, hholds⟩ : ∃ left : Mempool F,
      (∀ txid, pool'.transactions.get? txid = left.transactions.get? txid) ∧ left.Within pool ∧
        Apart before.txids left ∧ Holds before.txids left := by
    rcases addTransaction_some h.books h.backed hadd with ⟨rfl, -⟩ | ⟨c, hscreen, hsame⟩
    · refine ⟨pool', fun _ => rfl, .refl pool', h.apart, ?_⟩
      intro txid hmem hnone
      exact mem_txids.1 hmem (h.kept.absent hnone)
    · exact ⟨pool.leftBy settings c, hsame, leftBy_within settings pool c,
        (keptByRemoval_apart before.txids).departure.leftBy settings h.apart c, hspares c hscreen⟩
  have hapart' : Apart before.txids pool' := fun txid entry hentry => hapart txid entry (hsame txid ▸ hentry)
  have hholds' : Holds before.txids pool' := fun txid hmem => hsame txid ▸ hholds txid hmem
  have hfinal : (pool'.removeEach added.reverse).Within pool :=
    (keptByRemoval_within pool).departure.removeEach ((Within.of_eq hsame).trans hwithin) _
  have hkept := h.kept.of_holds hfinal
    (hapart'.removeEach_holds hholds' fun txid hmem => h.fresh txid (List.mem_reverse.1 hmem))
  refine (keptByRemoval_books.departure.removeEach hbooks added.reverse).sameEntries hbefore ?_ hkept
  intro txid entry hentry
  obtain ⟨entry₁, hentry₁, hcore₁⟩ := hfinal txid entry hentry
  rcases h.new txid (by simp [hentry₁]) with hold | hadded
  · obtain ⟨entry₀, hentry₀⟩ := Option.ne_none_iff_exists'.1 (mem_txids.1 hold)
    obtain ⟨entry₁', hentry₁', hcore₀⟩ := h.kept txid entry₀ hentry₀
    cases hentry₁.symm.trans hentry₁'
    exact ⟨entry₀, hentry₀, hcore₁.trans hcore₀.symm⟩
  · have hgone := pool'.removeEach_absent (List.mem_reverse.2 hadded)
    rw [hgone] at hentry
    cases hentry

/-- An entry that was out of the pool, or that a call takes out, can only come back as the member
of that call. -/
lemma lost_of_member (hbooks : pool.Books) (hback : pool.Backed) {txid : Bytes}
    (hadd : pool.addTransaction settings chain args tx = (pool', none))
    (hlost : pool.transactions.get? txid = none ∨ ∃ c, pool.screen settings chain args tx = .ok c ∧
      (pool.leftBy settings c).transactions.get? txid = none) :
    pool'.transactions.get? txid = none ∨ txid ∈ added ++ [tx.txid settings.crypto.toHashlib] := by
  obtain ⟨c, hscreen, htxid, rfl⟩ := addTransaction_none hbooks hback hadd
  have hnone : (pool.leftBy settings c).transactions.get? txid = none := by
    rcases hlost with hnone | ⟨c', hscreen', hnone⟩
    · exact (leftBy_within settings pool c).absent hnone
    · cases hscreen.symm.trans hscreen'
      exact hnone
  by_contra hboth
  obtain ⟨hpresent, hnot⟩ := not_or.1 hboth
  obtain ⟨entry, hentry⟩ := Option.ne_none_iff_exists'.1 hpresent
  rcases admitted_get? hentry with ⟨rfl, -⟩ | ⟨entry', hentry', -⟩
  · exact hnot (by simp [htxid])
  · rw [hnone] at hentry'
    cases hentry'

lemma absent_of_rejected (hbooks : pool.Books) (hback : pool.Backed) {txid : Bytes}
    {reason : RejectReason} (hadd : pool.addTransaction settings chain args tx = (pool', some reason))
    (hlost : pool.transactions.get? txid = none ∨ ∃ c, pool.screen settings chain args tx = .ok c ∧
      (pool.leftBy settings c).transactions.get? txid = none) :
    pool'.transactions.get? txid = none := by
  rcases addTransaction_some hbooks hback hadd with ⟨rfl, hnever⟩ | ⟨c, hscreen, hsame⟩
  · rcases hlost with hnone | ⟨c, hscreen, -⟩
    · exact hnone
    · exact absurd hscreen (hnever c)
  · rw [hsame]
    rcases hlost with hnone | ⟨c', hscreen', hnone⟩
    · exact (leftBy_within settings pool c).absent hnone
    · cases hscreen.symm.trans hscreen'
      exact hnone

/-- The first member of a package that is rejected: it is added and the rejection comes later, or
it is rejected and those before it are taken out. -/
lemma addPackageLoop_cons {feeRate : F} {reason : RejectReason} {argsList : List (CallArgs F)}
    {txs : List Transaction}
    (hloop : addPackageLoop settings chain feeRate argsList (tx :: txs) added pool =
      (pool', some reason)) :
    ∃ args rest next, argsList = args :: rest ∧
      ((pool.addTransaction settings chain { args with packageMinFeeRate := some feeRate } tx =
          (next, none) ∧
        addPackageLoop settings chain feeRate rest txs
          (added ++ [tx.txid settings.crypto.toHashlib]) next = (pool', some reason)) ∨
      (pool.addTransaction settings chain { args with packageMinFeeRate := some feeRate } tx =
          (next, some reason) ∧ pool' = next.removeEach added.reverse)) := by
  cases argsList with
  | nil => cases hloop
  | cons args rest =>
    rw [addPackageLoop] at hloop
    rcases hadd : pool.addTransaction settings chain
      { args with packageMinFeeRate := some feeRate } tx with ⟨next, _ | reason'⟩
    · rw [hadd] at hloop
      exact ⟨args, rest, next, rfl, .inl ⟨hadd, hloop⟩⟩
    · rw [hadd] at hloop
      cases hloop
      exact ⟨args, rest, next, rfl, .inr ⟨hadd, rfl⟩⟩

/-- A package whose members spare what was there before leaves it as it was, where one of them is
rejected. -/
lemma Extends.addPackageLoop (hbefore : before.Books) {feeRate : F} {reason : RejectReason}
    {txs : List Transaction} {argsList : List (CallArgs F)} (h : Extends before pool added)
    (hspares : PackageAll settings chain (Spares settings chain before.txids) feeRate argsList txs pool)
    (hloop : Mempool.addPackageLoop settings chain feeRate argsList txs added pool = (pool', some reason)) :
    pool'.SameEntries before := by
  induction txs generalizing argsList added pool with
  | nil => cases argsList <;> cases hloop
  | cons tx txs ih =>
    obtain ⟨args, rest, next, rfl, ⟨hadd, hloop⟩ | ⟨hadd, rfl⟩⟩ := addPackageLoop_cons hloop
    · obtain ⟨hfirst, hrest⟩ := hspares
      exact ih (h.member hfirst hadd) (hrest next hadd) hloop
    · exact h.rollBack hbefore hspares.1 hadd

/-- An entry that is out of the pool, or in it as a member, is out of it after the roll back. -/
lemma addPackageLoop_lost {feeRate : F} {reason : RejectReason} {txid : Bytes}
    {txs : List Transaction} {argsList : List (CallArgs F)} (hbooks : pool.Books)
    (hback : pool.Backed) (hlost : pool.transactions.get? txid = none ∨ txid ∈ added)
    (hloop : addPackageLoop settings chain feeRate argsList txs added pool = (pool', some reason)) :
    pool'.transactions.get? txid = none := by
  induction txs generalizing argsList added pool with
  | nil => cases argsList <;> cases hloop
  | cons tx txs ih =>
    obtain ⟨args, rest, next, rfl, ⟨hadd, hloop⟩ | ⟨hadd, rfl⟩⟩ := addPackageLoop_cons hloop
    · obtain ⟨hbooks', hback'⟩ := member_backed hbooks hback hadd
      refine ih hbooks' hback' ?_ hloop
      rcases hlost with hnone | hmem
      · exact lost_of_member hbooks hback hadd (Or.inl hnone)
      · exact Or.inr (List.mem_append_left _ hmem)
    · rcases hlost with hnone | hmem
      · exact (keptByRemoval_absent txid).departure.removeEach
          (absent_of_rejected hbooks hback hadd (Or.inl hnone)) _
      · exact next.removeEach_absent (List.mem_reverse.2 hmem)

lemma packageAll_of_kept {ids : List Bytes} {feeRate : F} {reason : RejectReason}
    {txs : List Transaction} {argsList : List (CallArgs F)} (hbooks : pool.Books)
    (hback : pool.Backed) (hkept : Holds ids pool')
    (hloop : addPackageLoop settings chain feeRate argsList txs added pool = (pool', some reason)) :
    PackageAll settings chain (Spares settings chain ids) feeRate argsList txs pool := by
  induction txs generalizing argsList added pool with
  | nil => cases argsList <;> cases hloop
  | cons tx txs ih =>
    obtain ⟨args, rest, next, rfl, ⟨hadd, hloop⟩ | ⟨hadd, rfl⟩⟩ := addPackageLoop_cons hloop
    · obtain ⟨hbooks', hback'⟩ := member_backed hbooks hback hadd
      refine ⟨?_, ?_⟩
      · intro c hscreen txid hmem hnone
        exact hkept txid hmem (addPackageLoop_lost hbooks' hback'
          (lost_of_member hbooks hback hadd (Or.inr ⟨c, hscreen, hnone⟩)) hloop)
      · intro pool'' hadd'
        cases hadd.symm.trans hadd'
        exact ih hbooks' hback' hloop
    · refine ⟨?_, ?_⟩
      · intro c hscreen txid hmem hnone
        exact hkept txid hmem ((keptByRemoval_absent txid).departure.removeEach
          (absent_of_rejected hbooks hback hadd (Or.inr ⟨c, hscreen, hnone⟩)) _)
      · intro pool'' hadd'
        cases hadd.symm.trans hadd'

/-- In a state that any calls reach, a rejected package leaves the entries and the totals alone
exactly when no member up to the rejected one evicts or replaces an entry that was there before. -/
theorem addPackage_rejection_iff (settings : MempoolSettings F)
    (calls : List (ChainView × MempoolCall F)) (chain : ChainView) (floor : F)
    (argsOf : ℕ → CallArgs F) (txs : List Transaction) (reason : RejectReason)
    (hrejected : ((runCalls settings calls).addPackage settings chain floor argsOf txs).2 =
      some reason) :
    ((runCalls settings calls).addPackage settings chain floor argsOf txs).1.SameEntries
        (runCalls settings calls) ↔
      ∀ feeRate ordered,
        (runCalls settings calls).planPackage settings chain floor txs = .ok (feeRate, ordered) →
        PackageAll settings chain (Spares settings chain (runCalls settings calls).txids) feeRate
          ((List.range ordered.length).map argsOf) ordered (runCalls settings calls) := by
  obtain ⟨hbooks, hback⟩ := runCalls_backed settings calls
  generalize runCalls settings calls = pool at hbooks hback hrejected ⊢
  unfold addPackage at hrejected ⊢
  cases hplan : pool.planPackage settings chain floor txs with
  | error reason' =>
    refine iff_of_true (.refl pool) ?_
    intro feeRate ordered h
    cases h
  | ok plan =>
    obtain ⟨feeRate, ordered⟩ := plan
    rw [hplan] at hrejected
    simp only at hrejected ⊢
    rcases hloop : addPackageLoop settings chain feeRate ((List.range ordered.length).map argsOf)
      ordered [] pool with ⟨final, result⟩
    rw [hloop] at hrejected
    cases hrejected
    constructor
    · intro hsame feeRate' ordered' hplan'
      cases hplan'
      refine packageAll_of_kept hbooks hback ?_ hloop
      intro txid hmem hnone
      exact mem_txids.1 hmem (hsame.covers.absent hnone)
    · intro hspares
      exact (Extends.start hbooks hback).addPackageLoop hbooks (hspares feeRate ordered rfl) hloop

end package

end Mempool

/-! Packages over `first`: its child, or a transaction that replaces it, and one that does not unlock
its input. -/
namespace MempoolExample

def replacement : Transaction :=
  { version := 2
    vin := [⟨coin, 0, [], 0, []⟩]
    vout := [⟨50000, payToScript⟩]
    locktime := 0 }

def replacementId : Bytes :=
  beBytes 32 0x6fd060ef66a90ce33295c1e73d0f74d3b458b244e03171171d0299649b4d9e03

def locked : Transaction :=
  { version := 2
    vin := [⟨replacementId, 0, [], 0, []⟩]
    vout := [⟨40000, payToScript⟩]
    locktime := 0 }

/-- Spends the output of `child` without its script. -/
def stuck : Transaction :=
  { version := 2
    vin := [⟨childId, 0, [], 0, []⟩]
    vout := [⟨70000, payToScript⟩]
    locktime := 0 }

def packageSettings : MempoolSettings ℚ :=
  settingsWith 1000 [
    (stuck.serialize false,
      0xda14a349e78afcb2bf916663f2b9538ffa38dc26b39f1f03b7f06ccb264d4347,
      0x3e7a728d20edc9605f198001995ba63a372d7712cc5c5ee559c01ae0127e7044),
    (replacement.serialize false,
      0x5739aecc155f29a41bcf948cd81e190e3bb508865ec5d81804b829fde2baa244,
      0x6fd060ef66a90ce33295c1e73d0f74d3b458b244e03171171d0299649b4d9e03),
    (locked.serialize false,
      0xcdce1ba142dc1aa47d59312145baedc9d1aedf49846a6b9d2d94ba70e210a975,
      0x659ab65655775a471f4b6174c5d65ba1b66e1213533cb07e2201ea5869eb6ffd)]

/-- The pool with `first` alone. -/
def single : Mempool ℚ := Mempool.runCalls packageSettings [(chain, .addTransaction args first)]

/-- The fee rate of `child` and `stuck` together. -/
def packageRate : ℚ := 2500 / 21

def memberArgs : Mempool.CallArgs ℚ := { args with packageMinFeeRate := some packageRate }

/-- `first` is left alone, as a check of the candidate. -/
def leavesFirst (pool : Mempool ℚ) (tx : Transaction) : Bool :=
  (pool.screen packageSettings chain memberArgs tx).toOption.all fun c =>
    ((pool.leftBy packageSettings c).transactions.get? firstId).isSome

lemma spares_of_leavesFirst {pool : Mempool ℚ} {tx : Transaction} (h : leavesFirst pool tx = true) :
    Mempool.Spares packageSettings chain [firstId] pool memberArgs tx := by
  intro c hscreen txid htxid
  obtain rfl := List.mem_singleton.1 htxid
  rw [leavesFirst, hscreen] at h
  exact Option.isSome_iff_ne_none.1 h

end MempoolExample

namespace Mempool
open MempoolExample

/-- The package is rejected for its second member, and the first one is taken out again. -/
theorem addPackage_rejection_iff_rolled_back :
    (single.addPackage packageSettings chain 1 (fun _ => args) [child, stuck]).2 =
        some .script_verification_failed ∧
      (single.addTransaction packageSettings chain memberArgs child).2 = none ∧
      (single.addPackage packageSettings chain 1 (fun _ => args) [child, stuck]).1.SameEntries
        single := by
  have hrejected : (single.addPackage packageSettings chain 1 (fun _ => args) [child, stuck]).2 =
      some .script_verification_failed := by decide +kernel
  have hplan : (single.planPackage packageSettings chain 1 [child, stuck]).toOption =
      some (packageRate, [child, stuck]) := by decide +kernel
  have hids : single.txids = [firstId] := by decide +kernel
  refine ⟨hrejected, by decide +kernel, (addPackage_rejection_iff packageSettings _ chain 1
    (fun _ => args) [child, stuck] .script_verification_failed hrejected).2 ?_⟩
  intro feeRate ordered h
  change single.planPackage packageSettings chain 1 [child, stuck] = _ at h
  rw [h] at hplan
  obtain ⟨rfl, rfl⟩ := Prod.mk.inj (Option.some.inj hplan)
  change PackageAll _ _ (Spares packageSettings chain single.txids) _ _ _ single
  rw [hids]
  refine ⟨spares_of_leavesFirst (by decide +kernel), ?_⟩
  intro pool' hadded
  have hpool : pool' = (single.addTransaction packageSettings chain memberArgs child).1 :=
    congrArg Prod.fst hadded.symm
  subst hpool
  exact ⟨spares_of_leavesFirst (by decide +kernel), fun _ _ => trivial⟩

/-- The package is rejected for its second member, and `first`, which the first member replaced, is
gone. -/
theorem rejected_package_replaces :
    (single.addPackage packageSettings chain 1 (fun _ => args) [replacement, locked]).2 =
        some .script_verification_failed ∧
      single.txids = [firstId] ∧
      (single.addPackage packageSettings chain 1 (fun _ => args) [replacement, locked]).1.txids = [] ∧
      ¬ (single.addPackage packageSettings chain 1 (fun _ => args)
        [replacement, locked]).1.SameEntries single := by
  have hbefore : single.txids = [firstId] := by decide +kernel
  have hafter : (single.addPackage packageSettings chain 1 (fun _ => args)
      [replacement, locked]).1.txids = [] := by decide +kernel
  refine ⟨by decide +kernel, hbefore, hafter, ?_⟩
  intro hsame
  have hpresent := mem_txids.1 (hbefore ▸ List.mem_singleton_self firstId : firstId ∈ single.txids)
  refine hpresent (hsame.covers.absent ?_)
  by_contra hne
  have hmem := mem_txids.2 hne
  rw [hafter] at hmem
  cases hmem

end Mempool
end BerzCoin
