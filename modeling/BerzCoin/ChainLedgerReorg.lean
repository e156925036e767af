import BerzCoin.ChainLedger
import BerzCoin.ChainReorgReports

/-! A reorganisation takes the blocks of the old branch off the ledger and puts those of the new
branch on it. -/
namespace BerzCoin
open Database BlockIndex UndoLog

/-- Blocks that an index has entries for. No two of them share a hash or a transaction, and none
has a transaction of `base`. -/
structure Stocked (H : Hashlib) (root : Bytes) (base : Store Outpoint UtxoRow) (blocks : List Block)
    (b : BlockIndex) : Prop where
  tree : b.TreeShaped
  root : b.getHeight root = some 0
  entry : ∀ block ∈ blocks,
    ∃ e, b.getBlock (block.header.hashHex H) = some e ∧ e.header = block.header
  named : ∀ x ∈ blocks, ∀ y ∈ blocks, x.header.hashHex H = y.header.hashHex H → x = y
  distinct : ∀ block ∈ blocks, (block.transactions.map (·.txid H)).Nodup
  owned : ∀ x ∈ blocks, ∀ y ∈ blocks, ∀ tx ∈ x.transactions, ∀ ty ∈ y.transactions,
    tx.txid H = ty.txid H → x = y
  unused : ∀ block ∈ blocks, ∀ tx ∈ block.transactions, ∀ i, base (tx.txid H, i) = none

/-- An index over a root whose other entries are those of blocks of a list. -/
structure Charted (H : Hashlib) (root : Bytes) (genesis : BlockHeader) (blocks : List Block)
    (b : BlockIndex) : Prop where
  rooted : ∃ aboveRoot, b.Rooted root aboveRoot
  atRoot : ∃ e, b.getBlock root = some e ∧ e.header = genesis
  listed : ∀ k e, b.getBlock k = some e → k ≠ root →
    ∃ block ∈ blocks, block.header.hashHex H = k ∧ e.header = block.header

/-- A chain of blocks from a list, with outputs for one of two networks. Each block was accepted on
the map that the blocks below it leave, at its height. -/
structure Built (H : Hashlib) (root : Bytes) (network : Network)
    (accepts : Store Outpoint UtxoRow → ℕ → Block → Prop) (base : Store Outpoint UtxoRow)
    (blocks : List Block) (chain : List Connected) (tip : Bytes) : Prop where
  linked : Linked H root chain tip
  listed : ∀ c ∈ chain, c.block ∈ blocks
  network : ∀ c ∈ chain, c.network = network ∨ c.network = .mainnet
  approved : Approved H accepts base chain

variable {H : Hashlib} {root tip : Bytes} {base : Store Outpoint UtxoRow} {blocks : List Block}
variable {b b' : BlockIndex} {chain past : List Connected} {network : Network} {c : Connected}
variable {accepts : Store Outpoint UtxoRow → ℕ → Block → Prop}

lemma Built.nil : Built H root network accepts base blocks [] root where
  linked := .root
  listed _ hc := by cases hc
  network _ hc := by cases hc
  approved := trivial

lemma Built.push (h : Built H root network accepts base blocks past c.block.header.prevBlockHash)
    (hc : c.block ∈ blocks) (hnet : c.network = network ∨ c.network = .mainnet)
    {store : Store Outpoint UtxoRow} (hstore : replay base (updates H past) = some store)
    (haccepts : accepts store (past.length + 1) c.block) :
    Built H root network accepts base blocks (c :: past) (c.block.header.hashHex H) where
  linked := .block h.linked
  listed x hx := by
    rcases List.mem_cons.1 hx with rfl | hx
    · exact hc
    · exact h.listed x hx
  network x hx := by
    rcases List.mem_cons.1 hx with rfl | hx
    · exact hnet
    · exact h.network x hx
  approved := by
    refine ⟨h.approved, fun before hbefore => ?_⟩
    rw [hstore] at hbefore
    cases hbefore
    exact haccepts

lemma Built.below (h : Built H root network accepts base blocks (c :: past) tip) :
    tip = c.block.header.hashHex H ∧
      Built H root network accepts base blocks past c.block.header.prevBlockHash := by
  obtain ⟨hlinked, hlisted, hnetwork, happroved⟩ := h
  cases hlinked with
  | block hbelow =>
    exact ⟨rfl, hbelow, fun x hx => hlisted x (List.mem_cons_of_mem _ hx),
      fun x hx => hnetwork x (List.mem_cons_of_mem _ hx), happroved.1⟩

lemma Built.mono {blocks' : List Block} (h : Built H root network accepts base blocks chain tip)
    (hsub : blocks ⊆ blocks') : Built H root network accepts base blocks' chain tip :=
  ⟨h.linked, fun c hc => hsub (h.listed c hc), h.network, h.approved⟩

lemma Approved.mono {accepts' : Store Outpoint UtxoRow → ℕ → Block → Prop}
    (h : Approved H accepts base chain)
    (hweaker : ∀ store height block, accepts store height block → accepts' store height block) :
    Approved H accepts' base chain := by
  induction chain with
  | nil => trivial
  | cons c past ih => exact ⟨ih h.1, fun before hbefore => hweaker _ _ _ (h.2 before hbefore)⟩

lemma Built.weaken {accepts' : Store Outpoint UtxoRow → ℕ → Block → Prop}
    (h : Built H root network accepts base blocks chain tip)
    (hweaker : ∀ store height block, accepts store height block → accepts' store height block) :
    Built H root network accepts' base blocks chain tip :=
  ⟨h.linked, h.listed, h.network, h.approved.mono hweaker⟩

lemma Charted.ofShape {genesis : BlockHeader} (h : Charted H root genesis blocks b)
    (hshape : SameShape b b') : Charted H root genesis blocks b' where
  rooted := h.rooted.imp fun _ hrooted => hshape.rooted hrooted
  atRoot := by
    obtain ⟨e, he, hgenesis⟩ := h.atRoot
    obtain ⟨e', he', hcore⟩ := hshape.getBlock he
    have hheader : e'.header = e.header := congrArg (fun c => c.2.2.1) hcore
    exact ⟨e', he', hheader.trans hgenesis⟩
  listed k e' he' hk := by
    obtain ⟨e, he, hcore⟩ := hshape.symm.getBlock he'
    obtain ⟨block, hblock, hhash, hheader⟩ := h.listed k e he hk
    have hsame : e.header = e'.header := congrArg (fun c => c.2.2.1) hcore
    exact ⟨block, hblock, hhash, hsame.symm.trans hheader⟩

lemma Charted.mono {genesis : BlockHeader} {blocks' : List Block} (h : Charted H root genesis blocks b)
    (hsub : blocks ⊆ blocks') : Charted H root genesis blocks' b :=
  ⟨h.rooted, h.atRoot, fun k e he hk => (h.listed k e he hk).imp fun _ hx => ⟨hsub hx.1, hx.2⟩⟩

/-- A tip has one chain below it, where hashes tell the blocks apart. -/
lemma Linked.blocks_unique {chain' : List Connected} (h : Linked H root chain tip)
    (h' : Linked H root chain' tip)
    (hnamed : ∀ x ∈ chain, ∀ y ∈ chain', x.block.header.hashHex H = y.block.header.hashHex H →
      x.block = y.block)
    (hroot : ∀ x ∈ chain, x.block.header.hashHex H ≠ root)
    (hroot' : ∀ y ∈ chain', y.block.header.hashHex H ≠ root) :
    chain.map Connected.block = chain'.map Connected.block := by
  induction h generalizing chain' with
  | root =>
    cases chain' with
    | nil => rfl
    | cons c' past' =>
      cases h'
      exact absurd rfl (hroot' c' (List.mem_cons_self ..))
  | @block c past below ih =>
    cases chain' with
    | nil =>
      generalize hk : c.block.header.hashHex H = k at h'
      cases h'
      exact absurd hk (hroot c (List.mem_cons_self ..))
    | cons c' past' =>
      generalize hk : c.block.header.hashHex H = k at h'
      cases h' with
      | block below' =>
        have hsame := hnamed c (List.mem_cons_self ..) c' (List.mem_cons_self ..) hk
        rw [← hsame] at below'
        rw [List.map_cons, List.map_cons, hsame, ih below'
          (fun x hx y hy => hnamed x (List.mem_cons_of_mem _ hx) y (List.mem_cons_of_mem _ hy))
          (fun x hx => hroot x (List.mem_cons_of_mem _ hx))
          fun y hy => hroot' y (List.mem_cons_of_mem _ hy)]

namespace Stocked

lemma ofShape (h : Stocked H root base blocks b) (hshape : SameShape b b') :
    Stocked H root base blocks b' where
  tree := hshape.treeShaped h.tree
  root := by rw [hshape.getHeight, h.root]
  entry block hblock := by
    obtain ⟨e, he, hheader⟩ := h.entry block hblock
    obtain ⟨e', he', hcore⟩ := hshape.getBlock he
    have hheader' : e'.header = e.header := congrArg (fun c => c.2.2.1) hcore
    exact ⟨e', he', hheader'.trans hheader⟩
  named := h.named
  distinct := h.distinct
  owned := h.owned
  unused := h.unused

lemma height (h : Stocked H root base blocks b) (hlinked : Linked H root chain tip)
    (hlisted : ∀ c ∈ chain, c.block ∈ blocks) : b.getHeight tip = some chain.length := by
  induction hlinked with
  | root => exact h.root
  | @block c past below ih =>
    have hbelow := ih fun x hx => hlisted x (List.mem_cons_of_mem _ hx)
    obtain ⟨p, hp, hheight⟩ := Option.map_eq_some_iff.1 hbelow
    obtain ⟨e, he, hheader⟩ := h.entry c.block (hlisted c (List.mem_cons_self ..))
    have hstep := h.tree.parent _ e p he (by rw [hheader]; exact hp)
    rw [getHeight, he, Option.map_some, hstep, hheight, List.length_cons]

/-- The blocks of a chain are above the root and not above the tip. -/
lemma below_height (h : Stocked H root base blocks b) (hlinked : Linked H root chain tip)
    (hlisted : ∀ c ∈ chain, c.block ∈ blocks) :
    ∀ c ∈ chain, ∃ n, b.getHeight (c.block.header.hashHex H) = some n ∧ 0 < n ∧ n ≤ chain.length := by
  induction hlinked with
  | root =>
    intro c hc
    cases hc
  | @block c past below ih =>
    intro x hx
    rcases List.mem_cons.1 hx with rfl | hx
    · exact ⟨_, h.height (.block below) hlisted, by simp, le_rfl⟩
    · obtain ⟨n, hn, hpos, hle⟩ := ih (fun y hy => hlisted y (List.mem_cons_of_mem _ hy)) x hx
      exact ⟨n, hn, hpos, by rw [List.length_cons]; omega⟩

lemma ne_root (h : Stocked H root base blocks b) (hbuilt : Built H root network accepts base blocks chain tip) :
    ∀ x ∈ chain, x.block.header.hashHex H ≠ root := by
  intro x hx heq
  obtain ⟨n, hn, hpos, -⟩ := h.below_height hbuilt.linked hbuilt.listed x hx
  rw [heq, h.root, Option.some.injEq] at hn
  omega

lemma ne_below (h : Stocked H root base blocks b)
    (hbuilt : Built H root network accepts base blocks (c :: past) tip) :
    ∀ x ∈ past, x.block.header.hashHex H ≠ c.block.header.hashHex H := by
  intro x hx heq
  obtain ⟨rfl, hbelow⟩ := hbuilt.below
  obtain ⟨n, hn, -, hle⟩ := h.below_height hbelow.linked hbelow.listed x hx
  have htop := h.height hbuilt.linked hbuilt.listed
  rw [heq, htop, Option.some.injEq, List.length_cons] at hn
  omega

/-- Each block of a chain has outputs of its own. -/
lemma separate (h : Stocked H root base blocks b)
    (hbuilt : Built H root network accepts base blocks chain tip) :
    Separate base (updates H chain) := by
  refine ⟨?_, ?_⟩
  · intro u hu k hk
    obtain ⟨c, hc, -, houts⟩ := mem_updates hu
    obtain ⟨tx, htx, hkey⟩ := houts k hk
    have hunused := h.unused c.block (hbuilt.listed c hc) tx htx k.2
    rw [← hkey] at hunused
    exact hunused
  · induction chain generalizing tip with
    | nil => exact .nil
    | cons c past ih =>
      obtain ⟨-, hbelow⟩ := hbuilt.below
      refine .cons ?_ (ih hbelow)
      intro v hv k hk hk'
      obtain ⟨x, hx, -, houts⟩ := mem_updates hv
      obtain ⟨ty, hty, hkey'⟩ := houts k hk'
      obtain ⟨step, hstep, hout⟩ := List.mem_flatMap.1 hk
      obtain ⟨tx, htx, rfl⟩ := List.mem_map.1 hstep
      have hkey : k.1 = tx.txid H := (mem_outsFrom.1 hout).1
      have hsame : c.block = x.block := h.owned _ (hbuilt.listed c (List.mem_cons_self ..)) _
        (hbelow.listed x hx) tx htx ty hty (hkey.symm.trans hkey')
      exact h.ne_below hbuilt x hx (by rw [hsame])

/-- The outputs of the blocks of a chain are new where they are put. -/
lemma fresh (h : Stocked H root base blocks b) (hbuilt : Built H root network accepts base blocks chain tip) :
    Fresh base (updates H chain) :=
  (h.separate hbuilt).fresh

end Stocked

namespace ReorgManager
variable {calls : ReorgCallbacks} {e fork : BlockIndexEntry} {d d' : Tables × BlockIndex}
variable {read : List Block}

/-- Apart from the root, the blocks that are read are from the list, and they are those that were
asked for. -/
def ReadsListed (H : Hashlib) (root : Bytes) (blocks : List Block) (b₀ : BlockIndex)
    (get : Bytes → Tables × BlockIndex → Except PyError (Option Block)) : Prop :=
  ∀ k d block, SameShape b₀ d.2 → k ≠ root → get k d = .ok (some block) →
    block ∈ blocks ∧ block.header.hashHex H = k

lemma disconnectStep_reflects (hstock : Stocked H root base blocks b)
    (hreads : ReadsListed H root blocks b calls.getBlock)
    (hbuilt : Built H root network accepts base blocks (c :: past) e.blockHash) (hroot : e.blockHash ≠ root)
    (hshape : SameShape b d.2) (hledger : Reflects H base (c :: past) d.1) {block : Block}
    (h : inside (disconnectStep H calls e) d = .ok block d') :
    Reflects H base past d'.1 ∧ SameShape b d'.2 := by
  have hends := @sameShape_keeps_disconnect H calls d b e hshape
  rw [h] at hends
  refine ⟨?_, hends⟩
  obtain ⟨htip, -⟩ := hbuilt.below
  have hlisted := hbuilt.listed c (List.mem_cons_self ..)
  rw [inside_disconnectStep] at h
  cases hget : calls.getBlock e.blockHash d with
  | error err => simp [hget] at h
  | ok found =>
    cases found with
    | none => simp [hget] at h
    | some found =>
      obtain ⟨hfound, hhash⟩ := hreads _ _ found hshape hroot hget
      obtain rfl : found = c.block := hstock.named _ hfound _ hlisted (hhash.trans htip)
      have hheight : d.2.getHeight (c.block.header.hashHex H) ≠ none := by
        rw [hshape.getHeight, ← htip, hstock.height hbuilt.linked hbuilt.listed]
        simp
      obtain ⟨d₁, hd₁, hpast⟩ := hledger.disconnect (hstock.fresh hbuilt)
        (hstock.distinct _ hlisted) (hstock.ne_below hbuilt) hheight
      simp only [hget, hd₁] at h
      cases h
      obtain ⟨hutxo, hundo, -⟩ := markMain_utxo e.blockHash false d₁
      exact hpast.congr hutxo hundo

/-- The first loop takes the old branch off the chain. -/
lemma disconnects (hstock : Stocked H root base blocks b)
    (hreads : ReadsListed H root blocks b calls.getBlock) {path : List BlockIndexEntry}
    (hpath : b.BranchAbove fork e path) (he : b.Indexed e)
    (hbuilt : Built H root network accepts base blocks chain e.blockHash) (hshape : SameShape b d.2)
    (hledger : Reflects H base chain d.1)
    (h : inside (runSteps (disconnectStep H calls) path) d = .ok read d') :
    ∃ below, Built H root network accepts base blocks below fork.blockHash ∧ Reflects H base below d'.1 ∧
      SameShape b d'.2 := by
  induction hpath generalizing chain d read with
  | fork =>
    cases h
    exact ⟨chain, hbuilt, hledger, hshape⟩
  | @child e p path hp above ih =>
    obtain ⟨hindexed, hstep⟩ := hstock.tree.parent_height he hp
    have hheight := hstock.height hbuilt.linked hbuilt.listed
    have hroot : e.blockHash ≠ root := by
      intro heq
      have hzero := hstock.root
      rw [← heq, he.getHeight, Option.some.injEq] at hzero
      omega
    cases chain with
    | nil =>
      rw [he.getHeight, List.length_nil, Option.some.injEq] at hheight
      omega
    | cons c past =>
      obtain ⟨htip, hbelow⟩ := hbuilt.below
      obtain ⟨entry, hentry, hheader⟩ :=
        hstock.entry c.block (hbuilt.listed c (List.mem_cons_self ..))
      have hsame : entry = e := by
        have hget : b.getBlock e.blockHash = some e := he
        rw [htip, hentry] at hget
        exact Option.some.inj hget
      have hparent : c.block.header.prevBlockHash = p.blockHash := by
        rw [hstock.tree.key _ p hp, ← hheader, hsame]
      rw [inside_runSteps_cons (disconnectStep_client H calls)] at h
      cases hfirst : inside (disconnectStep H calls e) d with
      | error err d₁ => simp [hfirst] at h
      | ok block d₁ =>
        simp only [hfirst] at h
        obtain ⟨hledger₁, hshape₁⟩ :=
          disconnectStep_reflects hstock hreads hbuilt hroot hshape hledger hfirst
        cases hrest : inside (runSteps (disconnectStep H calls) path) d₁ with
        | error err d₂ => simp [hrest] at h
        | ok rest d₂ =>
          simp only [hrest] at h
          cases h
          rw [hparent] at hbelow
          exact ih hindexed hbelow hshape₁ hledger₁ hrest

/-- A block that passes the check of the manager is accepted on the map that it meets. -/
def ChecksFor (accepts : Store Outpoint UtxoRow → ℕ → Block → Prop) (b₀ : BlockIndex)
    (calls : ReorgCallbacks) : Prop :=
  ∀ block height d, SameShape b₀ d.2 → calls.check block height d = .ok true →
    accepts d.1.utxo.get? height block

lemma connectStep_reflects (hstock : Stocked H root base blocks b)
    (hreads : ReadsListed H root blocks b calls.getBlock) (hchecks : ChecksFor accepts b calls)
    (hbuilt : Built H root network accepts base blocks chain e.header.prevBlockHash) (he : b.Indexed e)
    (hshape : SameShape b d.2) (hledger : Reflects H base chain d.1) {block : Block}
    (h : inside (connectStep H calls e) d = .ok block d') :
    ∃ c, Built H root network accepts base blocks (c :: chain) e.blockHash ∧ Reflects H base (c :: chain) d'.1 ∧
      SameShape b d'.2 := by
  have hends := @sameShape_keeps_connect H calls d b e hshape
  rw [h] at hends
  have hbelow := hstock.height hbuilt.linked hbuilt.listed
  obtain ⟨p, hp, hheight⟩ := Option.map_eq_some_iff.1 hbelow
  have hroot : e.blockHash ≠ root := by
    intro heq
    have hzero := hstock.root
    rw [← heq, he.getHeight, Option.some.injEq, hstock.tree.parent _ e p he hp] at hzero
    omega
  rw [inside_connectStep] at h
  cases hget : calls.getBlock e.blockHash d with
  | error err => simp [hget] at h
  | ok found =>
    cases found with
    | none => simp [hget] at h
    | some found =>
      obtain ⟨hfound, hhash⟩ := hreads _ _ found hshape hroot hget
      obtain ⟨entry, hentry, hheader⟩ := hstock.entry found hfound
      have hsame : entry = e := by
        have hself : b.getBlock e.blockHash = some e := he
        rw [← hhash, hentry] at hself
        exact Option.some.inj hself
      have hentryHeight : e.height = chain.length + 1 := by
        rw [hstock.tree.parent _ e p he hp, hheight]
      have hindex : d.2.getHeight (found.header.hashHex H) = some (chain.length + 1) := by
        rw [hshape.getHeight, hhash, he.getHeight, hentryHeight]
      simp only [hget] at h
      cases hcheck : calls.check found e.height d with
      | error err => simp [hcheck] at h
      | ok ok =>
        cases ok with
        | false => simp [hcheck] at h
        | true =>
          simp only [hcheck] at h
          cases hconn : inside (connectBlock H found) d with
          | error err d₁ => simp [hconn] at h
          | ok ok d₁ =>
            cases ok with
            | false => simp [hconn] at h
            | true =>
              simp only [hconn] at h
              have haccepts := hchecks found e.height d hshape hcheck
              rw [hentryHeight] at haccepts
              have hbuilt' : Built H root network accepts base blocks (⟨.mainnet, found⟩ :: chain)
                  e.blockHash := by
                rw [← hhash]
                refine Built.push (c := ⟨.mainnet, found⟩) ?_ hfound (.inr rfl) hledger.store haccepts
                rw [← hheader, hsame]
                exact hbuilt
              have hnext := hledger.connect (hstock.ne_below hbuilt') hindex hconn
              cases h
              obtain ⟨hutxo, hundo, -⟩ := markMain_utxo e.blockHash true d₁
              exact ⟨_, hbuilt', hnext.congr hutxo hundo, hends⟩

/-- The second loop puts the new branch on the chain. -/
lemma connects (hstock : Stocked H root base blocks b)
    (hreads : ReadsListed H root blocks b calls.getBlock) (hchecks : ChecksFor accepts b calls)
    {path : List BlockIndexEntry} {k : Bytes}
    (hpath : checkConnectPath k path = .ok ()) (hindexed : ∀ x ∈ path, b.Indexed x)
    (hbuilt : Built H root network accepts base blocks chain k) (hshape : SameShape b d.2)
    (hledger : Reflects H base chain d.1)
    (h : inside (runSteps (connectStep H calls) path) d = .ok read d') :
    ∃ above, Built H root network accepts base blocks above
        (((path.getLast?).map BlockIndexEntry.blockHash).getD k) ∧
      Reflects H base above d'.1 ∧ SameShape b d'.2 := by
  induction path generalizing chain k d read with
  | nil =>
    cases h
    exact ⟨chain, hbuilt, hledger, hshape⟩
  | cons x path ih =>
    rw [checkConnectPath] at hpath
    split_ifs at hpath with hparent
    obtain rfl : x.header.prevBlockHash = k := by simpa using hparent
    rw [inside_runSteps_cons (connectStep_client H calls)] at h
    cases hfirst : inside (connectStep H calls x) d with
    | error err d₁ => simp [hfirst] at h
    | ok block d₁ =>
      simp only [hfirst] at h
      obtain ⟨c, hbuilt₁, hledger₁, hshape₁⟩ := connectStep_reflects hstock hreads hchecks hbuilt
        (hindexed x (List.mem_cons_self ..)) hshape hledger hfirst
      cases hrest : inside (runSteps (connectStep H calls) path) d₁ with
      | error err d₂ => simp [hrest] at h
      | ok rest d₂ =>
        simp only [hrest] at h
        cases h
        obtain ⟨above, hbuilt₂, hend⟩ := ih hpath (fun y hy => hindexed y (List.mem_cons_of_mem _ hy))
          hbuilt₁ hshape₁ hledger₁ hrest
        refine ⟨above, ?_, hend⟩
        cases path with
        | nil => simpa using hbuilt₂
        | cons y path => simpa [List.getLast?_cons] using hbuilt₂

/-- A body that returned has run both loops; what follows them leaves the UTXO set. -/
lemma reorganizeBody_steps {disconnectEntries connectEntries : List BlockIndexEntry} {k : Bytes}
    {r : List Block × List Block}
    (h : inside (reorganizeBody H calls disconnectEntries connectEntries k) d = .ok r d') :
    ∃ disconnected connected d₁ d₂,
      inside (runSteps (disconnectStep H calls) disconnectEntries) d = .ok disconnected d₁ ∧
      inside (runSteps (connectStep H calls) connectEntries) d₁ = .ok connected d₂ ∧
      d'.1.utxo = d₂.1.utxo ∧ d'.1.blockUndo = d₂.1.blockUndo := by
  have hrest (disconnected connected : List Block) : Client (do
      liftExcept (assertPostReorgInvariants (← BlockIndex.read id) disconnectEntries connectEntries)
      BlockIndex.setBestChainTip k
      return (disconnected, connected) : ChainDb (List Block × List Block)) :=
    .bind (read_client _) fun _ => .bind (liftExcept_client _) fun _ =>
      .bind (setBestChainTip_client _) fun _ => .ret _
  rw [reorganizeBody, inside_bind (runSteps_client (disconnectStep_client H calls) _) fun _ =>
    .bind (runSteps_client (connectStep_client H calls) _) fun _ => hrest _ _] at h
  cases hd : inside (runSteps (disconnectStep H calls) disconnectEntries) d with
  | error e d₁ => simp [hd] at h
  | ok disconnected d₁ =>
    simp only [hd] at h
    rw [inside_bind (runSteps_client (connectStep_client H calls) _) fun _ => hrest _ _] at h
    cases hc : inside (runSteps (connectStep H calls) connectEntries) d₁ with
    | error e d₂ => simp [hc] at h
    | ok connected d₂ =>
      simp only [hc] at h
      have hfinish := @finishReorganize_inside disconnectEntries connectEntries k disconnected
          connected d₂
      cases hassert : assertPostReorgInvariants d₂.2 disconnectEntries connectEntries with
      | error e =>
        simp only [hassert] at hfinish
        rw [hfinish] at h
        cases h
      | ok u =>
        simp only [hassert] at hfinish
        obtain ⟨d₃, h₃, -, hutxo, hundo⟩ := hfinish
        rw [h₃] at h
        cases h
        exact ⟨disconnected, connected, d₁, d₂, rfl, hc, hutxo, hundo⟩

/-- A completed reorganisation has committed its body. -/
lemma reorganize_inside {s s' : Session Tables BlockIndex} {maxReorgDepth : ℕ}
    {newBest oldBest : BlockIndexEntry} {xs ys : List Block}
    (h : reorganize H calls maxReorgDepth newBest oldBest s = .ok (true, xs, ys) s') :
    ∃ disconnectEntries connectEntries,
      plan maxReorgDepth newBest oldBest s.memory = some (disconnectEntries, connectEntries) ∧
        inside (reorganizeBody H calls disconnectEntries connectEntries newBest.blockHash) s.data =
          .ok (xs, ys) s'.data := by
  obtain ⟨disconnectEntries, connectEntries, hplan, -⟩ := reorganize_body h
  refine ⟨disconnectEntries, connectEntries, hplan, ?_⟩
  obtain ⟨fork, hfork, rfl, rfl⟩ := plan_eq_some hplan
  unfold plan at hplan
  simp only [reorganize, Db.bind_apply, read_apply, id, hfork] at h hplan
  split_ifs at hplan with hdepth
  cases hpaths : validateReorgPaths fork (s.memory.pathAbove fork oldBest)
      (s.memory.pathAbove fork newBest).reverse with
  | error err => simp [hpaths] at hplan
  | ok u =>
    simp only [hdepth, if_false, hpaths, Db.tryCatch_apply, Db.bind_apply] at h
    have hclient := @reorganizeBody_client H calls (s.memory.pathAbove fork oldBest)
      (s.memory.pathAbove fork newBest).reverse newBest.blockHash
    cases htx : transaction (reorganizeBody H calls (s.memory.pathAbove fork oldBest)
        (s.memory.pathAbove fork newBest).reverse newBest.blockHash) s with
    | error e t =>
      obtain ⟨t', ht', -⟩ := rollBack_apply
        (s.memory.snapshotStatuses ((s.memory.pathAbove fork oldBest ++
          (s.memory.pathAbove fork newBest).reverse).map (·.blockHash))) oldBest.blockHash t
      simp only [htx, ht'] at h
      cases h
    | ok r t =>
      simp only [htx] at h
      cases h
      exact (transaction_ok_iff hclient).2 ⟨s', htx, rfl⟩

/-- A completed reorganisation leaves the ledger of the branch of the new tip. -/
lemma reorganize_reflects {s s' : Session Tables BlockIndex} {maxReorgDepth : ℕ}
    {newBest oldBest : BlockIndexEntry} {xs ys : List Block}
    (hstock : Stocked H root base blocks s.memory)
    (hreads : ReadsListed H root blocks s.memory calls.getBlock)
    (hchecks : ChecksFor accepts s.memory calls)
    (hnew : s.memory.Indexed newBest) (hold : s.memory.Indexed oldBest)
    (hbuilt : Built H root network accepts base blocks chain oldBest.blockHash)
    (hledger : Reflects H base chain s.conn.current)
    (h : reorganize H calls maxReorgDepth newBest oldBest s = .ok (true, xs, ys) s') :
    ∃ above, Built H root network accepts base blocks above newBest.blockHash ∧
      Reflects H base above s'.conn.current := by
  have htree := hstock.tree
  obtain ⟨disconnectEntries, connectEntries, hplan, hdata⟩ := reorganize_inside h
  obtain ⟨fork, hfork, rfl, rfl⟩ := plan_eq_some hplan
  obtain ⟨hindexed, hleft, hright⟩ := findCommonAncestor_descends htree hnew hold hfork
  have hbranch := branchAbove_pathAbove htree hindexed hold hright
  obtain ⟨hpath, hlast⟩ := (branchAbove_pathAbove htree hindexed hnew hleft).checkConnectPath htree hnew
  obtain ⟨disconnected, connected, d₁, d₂, hd, hc, hutxo, hundo⟩ := reorganizeBody_steps hdata
  obtain ⟨below, hbelow, hledger₁, hshape₁⟩ :=
    disconnects hstock hreads hbranch hold hbuilt (.refl _) hledger hd
  obtain ⟨above, habove, hledger₂, -⟩ := connects hstock hreads hchecks hpath
    (fun x hx => (mem_pathAbove htree hnew (List.mem_reverse.1 hx)).1) hbelow hshape₁ hledger₁ hc
  rw [hlast] at habove
  exact ⟨above, habove, hledger₂.congr hutxo hundo⟩

end ReorgManager
end BerzCoin
