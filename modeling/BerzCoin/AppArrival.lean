import BerzCoin.AppLedgerRuns
import BerzCoin.P2pOrphanageChain

/-! The order in which the blocks of a chain arrive. The orphanage holds what comes too early, and
nothing but the orphanage remembers it. -/
namespace BerzCoin
open Database BlockIndex

namespace Node
variable {α β : Type}

/-- The node with other orphans. -/
def withOrphans (o : Orphanage) (node : Node) : Node := { node with orphanage := o }

/-- A result with other orphans in the state. -/
def resultWith (o : Orphanage) : EStateM.Result PyError Node α → EStateM.Result PyError Node α
  | .ok a node => .ok a (withOrphans o node)
  | .error e node => .error e (withOrphans o node)

/-- An action that does not look at the orphans and leaves them as they are. -/
def Blind (x : NodeM α) : Prop := ∀ o node, x (withOrphans o node) = resultWith o (x node)

namespace Blind
variable {x : NodeM α} {f : α → NodeM β}

lemma ret (a : α) : Blind (pure a : NodeM α) := fun _ _ => rfl

lemma bind (hx : Blind x) (hf : ∀ a, Blind (f a)) : Blind (x >>= f) := by
  intro o node
  simp only [bind_apply, hx o node]
  cases x node with
  | ok a node' => exact hf a o node'
  | error e node' => rfl

/-- What is read of the node is not its orphans. -/
lemma look {f : Node → NodeM β} (hsame : ∀ o node, f (withOrphans o node) = f node)
    (hf : ∀ node, Blind (f node)) : Blind (get >>= f) := by
  intro o node
  simp only [bind_apply, get_apply, hsame o node]
  exact hf node o node

lemma chain (x : ChainDb α) : Blind (onChain x) := by
  intro o node
  simp only [onChain, withOrphans]
  cases x node.session <;> rfl

lemma files (x : FileDb α) : Blind (onFiles x) := by
  intro o node
  simp only [onFiles, withOrphans]
  cases x ⟨node.session.conn, node.files⟩ <;> rfl

variable (cfg : NodeConfig) (validate : StatefulValidation)

lemma setBestBlock (blockHash : Bytes) (height chainwork : ℕ) :
    Blind (Node.setBestBlock blockHash height chainwork) :=
  .bind (fun _ _ => rfl) fun _ => .chain _

lemma connectAsNewTip (block : Block) (height chainworkTotal : ℕ) :
    Blind (Node.connectAsNewTip cfg block height chainworkTotal) := by
  refine .bind (.chain _) fun ok => ?_
  split
  · exact .ret _
  · exact .bind (.setBestBlock _ _ _) fun _ => .ret _

lemma tryReorganize (bestHash : Option Bytes) (blockHash : Bytes) :
    Blind (Node.tryReorganize cfg validate bestHash blockHash) := by
  refine .bind (.chain _) fun b => ?_
  split
  · refine .look (fun _ _ => rfl) fun node => .bind (.chain _) fun ok => ?_
    split
    · exact .ret _
    · refine .bind (.chain _) fun b' => .bind (.chain _) fun r => ?_
      obtain ⟨ok, xs, ys⟩ := r
      simp only
      split
      · exact .ret _
      · exact .bind (.setBestBlock _ _ _) fun _ => .ret _
  · exact .ret _

lemma settle (bestHash : Option Bytes) (extendsTip : Bool) (block : Block)
    (height chainworkTotal : ℕ) :
    Blind (Node.settle cfg validate bestHash extendsTip block height chainworkTotal) := by
  unfold Node.settle
  split
  · refine .bind (.connectAsNewTip _ _ _ _) fun ok => ?_
    split <;> exact .ret _
  · refine .look (fun _ _ => rfl) fun node => ?_
    split
    · exact .ret _
    · exact .tryReorganize _ _ _ _

lemma checkBlock (clock : ℚ) (extendsTip : Bool) (block : Block) (height : ℕ) :
    Blind (Node.checkBlock cfg validate clock extendsTip block height) := by
  intro o node
  rw [checkBlock_apply, checkBlock_apply]
  simp only [withOrphans]
  cases refusal cfg validate clock extendsTip block height node.session.data <;> rfl

/-- Taking up a block with a known parent has nothing to do with the orphans. -/
lemma acceptChild (clock : ℚ) (block : Block) (parent : BlockIndexEntry) :
    Blind (Node.acceptChild cfg validate clock block parent) := by
  rw [acceptChild_eq]
  refine .bind (.files _) fun _ => .look (fun _ _ => rfl) fun node => ?_
  refine .bind (.checkBlock _ _ _ _ _ _) fun reason => ?_
  cases reason with
  | some reason => exact .ret _
  | none =>
    exact .bind (.bind (.files _) fun _ => .bind (.chain _) fun _ => .chain _)
      fun _ => .settle _ _ _ _ _ _ _

end Blind

/-! The index only grows. -/
section index
variable {cfg : NodeConfig} {validate : StatefulValidation} {clock : ℚ} {node node' : Node}
  {block : Block} {parent : BlockIndexEntry}

lemma ofShape_indexed (k : Bytes) : OfShape fun b => b.getBlock k ≠ none := by
  intro b b' hshape h
  obtain ⟨e, he⟩ := Option.ne_none_iff_exists'.1 h
  obtain ⟨e', he', -⟩ := hshape.getBlock he
  rw [he']
  simp

/-- A block that is adopted is in the index, with all that was there. -/
lemma acceptChild_indexed
    (hparent : node.session.memory.getBlock block.header.prevBlockHash = some parent)
    (haccept : acceptChild cfg validate clock block parent node = .ok ⟨true, none⟩ node') {k : Bytes}
    (hk : k = block.header.hashHex cfg.crypto.toHashlib ∨ node.session.memory.getBlock k ≠ none) :
    node'.session.memory.getBlock k ≠ none := by
  obtain ⟨-, files, -, -, happly⟩ := @acceptChild_apply cfg clock block parent node
  rw [happly] at haccept
  cases hrefusal : refusal cfg validate clock
      (decide (node.bestHash = some block.header.prevBlockHash)) block (parent.height + 1)
      node.session.data with
  | error e => simp [hrefusal] at haccept
  | ok reason =>
    cases reason with
    | some reason => simp [hrefusal] at haccept
    | none =>
      simp only [hrefusal, bind_apply] at haccept
      obtain ⟨node₁, -, -, ⟨e, hstore, -⟩ | ⟨hstore, hmem⟩⟩ := @storeBlock_cases cfg clock block
        (parent.height + 1) (parent.chainwork + ChainWork.calculateBlockWork cfg.params block.header.bits)
        { node with files }
      · simp [hstore] at haccept
      · simp only [hstore] at haccept
        have hstored : node₁.session.memory.getBlock k ≠ none := by
          rw [hmem]
          by_cases hself : k = block.header.hashHex cfg.crypto.toHashlib
          · obtain ⟨entry, hentry, -⟩ := @withBlock_self node.session.memory
              (block.header.hashHex cfg.crypto.toHashlib) _ (parent.height + 1) (parent.chainwork +
              ChainWork.calculateBlockWork cfg.params block.header.bits) _ hparent
            rw [hself, hentry]
            simp
          · rw [withBlock_getBlock _ _ _ _ _ _ hself]
            exact hk.resolve_left hself
        have hkeep : (final (Node.settle cfg validate node.bestHash
            (decide (node.bestHash = some block.header.prevBlockHash)) block (parent.height + 1)
            (parent.chainwork + ChainWork.calculateBlockWork cfg.params block.header.bits))
            node₁).session.memory.getBlock k ≠ none :=
          (ofShape_indexed k).settle _ _ _ _ _ node₁ hstored
        rw [final, haccept] at hkeep
        exact hkeep

end index

/-! A chain that is adopted in order. -/

/-- The blocks of a list are new one after the other, and each of them extends or moves the active
chain. -/
inductive Adopts (cfg : NodeConfig) (clock : ℚ) : Node → List Block → Node → Prop
  | nil (node : Node) : Adopts cfg clock node [] node
  | cons {node node₁ node' : Node} {block : Block} {blocks : List Block} {parent : BlockIndexEntry}
      (hparent : node.session.memory.getBlock block.header.prevBlockHash = some parent)
      (hnew : node.session.memory.getBlock (block.header.hashHex cfg.crypto.toHashlib) = none)
      (haccept : acceptChild cfg (validateBlockStateful cfg clock) clock block parent node =
        .ok ⟨true, none⟩ node₁)
      (hrest : Adopts cfg clock node₁ blocks node') : Adopts cfg clock node (block :: blocks) node'

section adopts
variable {cfg : NodeConfig} {clock : ℚ} {node node' : Node} {blocks : List Block}

/-- No block of the list is known before. -/
lemma Adopts.new (h : Adopts cfg clock node blocks node') :
    ∀ block ∈ blocks, node.session.memory.getBlock (block.header.hashHex cfg.crypto.toHashlib) = none := by
  induction h with
  | nil => simp
  | cons hparent hnew haccept _ ih =>
    intro block hblock
    rcases List.mem_cons.1 hblock with rfl | hblock
    · exact hnew
    · by_contra hknown
      exact acceptChild_indexed hparent haccept (.inr hknown) (ih block hblock)

lemma Adopts.nodup (h : Adopts cfg clock node blocks node') :
    (blocks.map fun block => block.header.hashHex cfg.crypto.toHashlib).Nodup := by
  induction h with
  | nil => exact List.nodup_nil
  | cons hparent hnew haccept hrest ih =>
    refine List.nodup_cons.2 ⟨?_, ih⟩
    intro hmem
    obtain ⟨block, hblock, heq⟩ := List.mem_map.1 hmem
    exact acceptChild_indexed hparent haccept (.inl heq) (hrest.new block hblock)

end adopts

/-! One block of the chain comes. -/
section arrival
variable {cfg : NodeConfig} {clock : ℚ} {core last : Node} {a block : Block} {rest left : List Block}
  {o : Orphanage} {depth rounds : ℕ}

open Orphanage

/-- The first block that is missing is adopted. -/
lemma acceptBlock_first (hadopts : Adopts cfg clock core (a :: rest) last)
    (hwaits : Waits cfg.crypto.toHashlib clock left o) (sourcePeer : Option String) :
    ∃ core₁, acceptBlock cfg (validateBlockStateful cfg clock) clock a sourcePeer (withOrphans o core) =
        .ok ⟨true, none⟩ (withOrphans o core₁) ∧
      Adopts cfg clock core₁ rest last ∧
      ∀ k, k = a.header.hashHex cfg.crypto.toHashlib ∨ core.session.memory.getBlock k ≠ none →
        core₁.session.memory.getBlock k ≠ none := by
  cases hadopts with
  | @cons _ core₁ _ _ _ parent hparent hnew haccept hrest =>
    refine ⟨core₁, ?_, hrest, fun k hk => acceptChild_indexed hparent haccept hk⟩
    simp only [acceptBlock, bind_apply, read_apply, id, withOrphans, hnew, Option.isSome_none,
      Bool.false_eq_true, if_false, modify_apply, hparent, hwaits.cleanupExpired]
    have hblind := Blind.acceptChild cfg (validateBlockStateful cfg clock) clock a parent o core
    rw [haccept] at hblind
    exact hblind

/-- A block that was adopted before changes nothing. -/
lemma acceptBlock_known
    (hknown : core.session.memory.getBlock (block.header.hashHex cfg.crypto.toHashlib) ≠ none)
    (validate : StatefulValidation) (sourcePeer : Option String) :
    acceptBlock cfg validate clock block sourcePeer (withOrphans o core) =
      .ok ⟨true, some .known⟩ (withOrphans o core) := by
  have hsome : (core.session.memory.getBlock (block.header.hashHex cfg.crypto.toHashlib)).isSome := by
    simpa [Option.isSome_iff_ne_none] using hknown
  simp only [acceptBlock, bind_apply, read_apply, id, withOrphans, hsome, if_true, pure_apply]

/-- A block that is not the first one missing waits for its parent. -/
lemma acceptBlock_early (hadopts : Adopts cfg clock core left last)
    (hlinked : Successive cfg.crypto.toHashlib left) (hblock : block ∈ left.tail)
    (hwaits : Waits cfg.crypto.toHashlib clock left o) (validate : StatefulValidation)
    (sourcePeer : Option String) :
    acceptBlock cfg validate clock block sourcePeer (withOrphans o core) =
      .ok ⟨false, some .orphan⟩
        (withOrphans (o.addOrphan cfg.crypto.toHashlib clock block sourcePeer) core) := by
  obtain ⟨c, hc, hprev⟩ := hlinked.parent hblock
  have hnew := hadopts.new block (List.mem_of_mem_tail hblock)
  have hparent := hadopts.new c hc
  rw [← hprev] at hparent
  simp only [acceptBlock, bind_apply, read_apply, id, withOrphans, hnew, Option.isSome_none,
    Bool.false_eq_true, if_false, modify_apply, hparent, pure_apply, hwaits.cleanupExpired]

/-- Where the children of a block have come to nothing, the loop over the orphans ends. -/
lemma processOrphanChildren_nil {onBlock : Block → NodeM BlockReply} {k : Bytes}
    (h : o.getChildren cfg.setOrder k = []) :
    processOrphanChildren cfg clock onBlock rounds k (withOrphans o core) =
      .ok () (withOrphans o core) := by
  cases rounds with
  | zero => rfl
  | succ rounds =>
    have hchildren : (withOrphans o core).orphanage.getChildren cfg.setOrder k = [] := h
    simp only [processOrphanChildren, bind_apply, get_apply, hchildren, pure_apply]

/-- The one child of a block is adopted, with all that waited for it. -/
lemma processOrphanChildren_one {onBlock : Block → NodeM BlockReply} {k : Bytes} {b : Block}
    {o' : Orphanage} {core' : Node} (hchildren : o.getChildren cfg.setOrder k = [b])
    (hcall : onBlock b (withOrphans (o.removeOrphan (b.header.hashHex cfg.crypto.toHashlib)) core) =
      .ok ⟨true, none⟩ (withOrphans o' core'))
    (hnone : o'.getChildren cfg.setOrder (b.header.hashHex cfg.crypto.toHashlib) = []) :
    processOrphanChildren cfg clock onBlock (rounds + 1) k (withOrphans o core) =
      .ok () (withOrphans o' core') := by
  have hfirst : (withOrphans o core).orphanage.getChildren cfg.setOrder k = [b] := hchildren
  simp only [withOrphans] at hcall hfirst
  simp only [processOrphanChildren, bind_apply, get_apply, withOrphans, hfirst, processChildren,
    modify_apply, hcall, if_true, pure_apply]
  exact processOrphanChildren_nil hnone

/-- What a call of `on_block` on the first missing block leaves: a later part of the chain is
missing, and what had come of it waits as before. -/
structure Reaches (cfg : NodeConfig) (clock : ℚ) (rest : List Block) (o : Orphanage) (core last : Node)
    (left : List Block) (o' : Orphanage) (core' : Node) : Prop where
  suffix : left <:+ rest
  adopts : Adopts cfg clock core' left last
  waits : Waits cfg.crypto.toHashlib clock left o'
  kept : ∀ b ∈ left, o.orphans.contains (b.header.hashHex cfg.crypto.toHashlib) = true →
    o'.orphans.contains (b.header.hashHex cfg.crypto.toHashlib) = true
  known : ∀ k, core.session.memory.getBlock k ≠ none → core'.session.memory.getBlock k ≠ none
  adopted : ∀ b ∈ rest, b ∈ left ∨
    core'.session.memory.getBlock (b.header.hashHex cfg.crypto.toHashlib) ≠ none

/-- The first missing block was adopted, and the second one has not come. -/
lemma reaches_stop {core₁ : Node} (hrest : Adopts cfg clock core₁ rest last)
    (hwaits : Waits cfg.crypto.toHashlib clock (a :: rest) o)
    (hknown : ∀ k, core.session.memory.getBlock k ≠ none → core₁.session.memory.getBlock k ≠ none)
    (hnext : ∀ b, rest.head? = some b →
      o.orphans.contains (b.header.hashHex cfg.crypto.toHashlib) = false) :
    Reaches cfg clock rest o core last rest o core₁ :=
  ⟨List.suffix_rfl, hrest, hwaits.stop hnext, fun _ _ h => h, hknown, fun _ hb => .inl hb⟩

lemma onBlockWithin_first (hadopts : Adopts cfg clock core (a :: rest) last)
    (hlinked : Successive cfg.crypto.toHashlib (a :: rest))
    (hwaits : Waits cfg.crypto.toHashlib clock (a :: rest) o) (hdepth : o.orphans.rows.length ≤ depth)
    (sourcePeer : Option String) :
    ∃ left o' core', onBlockWithin cfg (validateBlockStateful cfg clock) clock depth a sourcePeer
        (withOrphans o core) = .ok ⟨true, none⟩ (withOrphans o' core') ∧
      Reaches cfg clock rest o core last left o' core' ∧
      core'.session.memory.getBlock (a.header.hashHex cfg.crypto.toHashlib) ≠ none := by
  have hnodup := hadopts.nodup
  have hlinked' : Successive cfg.crypto.toHashlib rest := hlinked.tail
  induction depth generalizing core a rest o sourcePeer with
  | zero =>
    obtain ⟨core₁, haccept, hrest, hknown⟩ := acceptBlock_first hadopts hwaits sourcePeer
    have hempty : o.orphans.rows = [] := List.length_eq_zero_iff.1 (Nat.le_zero.1 hdepth)
    refine ⟨rest, o, core₁, haccept, reaches_stop hrest hwaits (fun k hk => hknown k (.inr hk)) ?_,
      hknown _ (.inl rfl)⟩
    intro b _
    simp [KeyedRows.contains, KeyedRows.get?, hempty]
  | succ depth ih =>
    obtain ⟨core₁, haccept, hrest, hknown⟩ := acceptBlock_first hadopts hwaits sourcePeer
    by_cases hnext : ∀ b, rest.head? = some b →
      o.orphans.contains (b.header.hashHex cfg.crypto.toHashlib) = false
    · have hstop : Reaches cfg clock rest o core last rest o core₁ :=
        reaches_stop hrest hwaits (fun k hk => hknown k (.inr hk)) hnext
      have hchildren := hstop.waits.getChildren_other hlinked' (List.nodup_cons.1 hnodup).1
        cfg.setOrder
      refine ⟨rest, o, core₁, ?_, hstop, hknown _ (.inl rfl)⟩
      simp only [onBlockWithin, bind_apply, haccept, if_true, get_apply,
        processOrphanChildren_nil hchildren, pure_apply]
    · -- the second block waits, so it is taken up within this call
      push Not at hnext
      obtain ⟨b, hb, hwaiting⟩ := hnext
      rw [ne_eq, Bool.not_eq_false] at hwaiting
      obtain ⟨tail, rfl⟩ := List.head?_eq_some_iff.1 hb
      obtain ⟨x, hx⟩ := Option.isSome_iff_exists.1 hwaiting
      have hchildren := hwaits.getChildren_first hlinked hnodup cfg.setOrder
      rw [if_pos hwaiting] at hchildren
      have hsize : (o.removeOrphan (b.header.hashHex cfg.crypto.toHashlib)).orphans.rows.length ≤
          depth := by
        have hlength := KeyedRows.length_delete hx
        rw [orphans_removeOrphan]
        omega
      obtain ⟨left, o', core', hcall, hreaches, hbknown⟩ := ih hrest hlinked' hwaits.next hsize none
        (List.nodup_cons.1 hnodup).2 hlinked'.tail
      have hnone : o'.getChildren cfg.setOrder (b.header.hashHex cfg.crypto.toHashlib) = [] := by
        refine hreaches.waits.getChildren_other (hlinked'.tail.suffix hreaches.suffix) ?_ _
        intro hmem
        exact (List.nodup_cons.1 (List.nodup_cons.1 hnodup).2).1
          ((hreaches.suffix.map _).mem hmem)
      refine ⟨left, o', core', ?_, ?_, hreaches.known _ (hknown _ (.inl rfl))⟩
      · have hloop := @processOrphanChildren_one cfg clock core₁ o
          (withOrphans o core₁).orphanage.orphans.rows.length
          (fun child => onBlockWithin cfg (validateBlockStateful cfg clock) clock depth child none) _ b
          o' core' hchildren hcall hnone
        simp only [onBlockWithin, bind_apply, haccept, if_true, get_apply, hloop, pure_apply]
      · have hnotin := (List.nodup_cons.1 (List.nodup_cons.1 hnodup).2).1
        refine ⟨hreaches.suffix.trans (List.suffix_cons ..), hreaches.adopts, hreaches.waits, ?_,
          fun k hk => hreaches.known k (hknown k (.inr hk)), ?_⟩
        · intro c hc hthere
          refine hreaches.kept c hc ?_
          have hne : c.header.hashHex cfg.crypto.toHashlib ≠ b.header.hashHex cfg.crypto.toHashlib := by
            intro heq
            exact hnotin (List.mem_map.2 ⟨c, hreaches.suffix.mem hc, heq⟩)
          rw [orphans_removeOrphan, KeyedRows.contains, KeyedRows.get?_delete, if_neg hne]
          exact hthere
        · intro c hc
          rcases List.mem_cons.1 hc with rfl | hc
          · exact .inr hbknown
          · exact hreaches.adopted c hc

/-! All the blocks of the chain come, in some order. -/

/-- The part of a chain that is adopted, and the rest of it with what has come too early. -/
def Arrived (cfg : NodeConfig) (clock : ℚ) (blocks : List Block) (last : Node) (seen : Block → Prop)
    (node : Node) : Prop :=
  ∃ left o core, node = withOrphans o core ∧ left <:+ blocks ∧ Adopts cfg clock core left last ∧
    Waits cfg.crypto.toHashlib clock left o ∧
    (∀ b ∈ blocks, b ∈ left ∨
      core.session.memory.getBlock (b.header.hashHex cfg.crypto.toHashlib) ≠ none) ∧
    ∀ b ∈ left, seen b → o.orphans.contains (b.header.hashHex cfg.crypto.toHashlib) = true

variable {blocks : List Block} {seen : Block → Prop} {node : Node}

lemma Arrived.onBlock (hlinked : Successive cfg.crypto.toHashlib blocks)
    (h : Arrived cfg clock blocks last seen node) (hblock : block ∈ blocks)
    (sourcePeer : Option String) :
    ∃ reply node', Node.onBlock cfg clock block sourcePeer node = .ok reply node' ∧
      Arrived cfg clock blocks last (fun b => seen b ∨ b = block) node' := by
  obtain ⟨left, o, core, rfl, hsuffix, hadopts, hwaits, hknown, hcame⟩ := h
  have hlinked' : Successive cfg.crypto.toHashlib left := hlinked.suffix hsuffix
  simp only [Node.onBlock, bind_apply, get_apply]
  by_cases hleft : block ∈ left
  · cases left with
    | nil => cases hleft
    | cons a rest =>
      rcases List.mem_cons.1 hleft with rfl | hrest
      · obtain ⟨left, o', core', hcall, hreaches, hnow⟩ := onBlockWithin_first hadopts hlinked' hwaits
          (Nat.le_succ _) sourcePeer
        refine ⟨⟨true, none⟩, _, hcall, left, o', core', rfl,
          (hreaches.suffix.trans (List.suffix_cons ..)).trans hsuffix, hreaches.adopts, hreaches.waits,
          ?_, ?_⟩
        · intro b hb
          rcases hknown b hb with hmem | hold
          · rcases List.mem_cons.1 hmem with rfl | hmem
            · exact .inr hnow
            · exact hreaches.adopted b hmem
          · exact .inr (hreaches.known _ hold)
        · intro b hb hseen
          have hbrest := hreaches.suffix.mem hb
          rcases hseen with hseen | rfl
          · exact hreaches.kept b hb (hcame b (List.mem_cons_of_mem _ hbrest) hseen)
          · exact absurd (List.mem_map.2 ⟨b, hbrest, rfl⟩) (List.nodup_cons.1 hadopts.nodup).1
      · have haccept := acceptBlock_early hadopts hlinked' hrest hwaits (validateBlockStateful cfg clock)
          sourcePeer
        obtain ⟨hwaits', hcontains⟩ := hwaits.addOrphan hrest sourcePeer
        refine ⟨⟨false, some .orphan⟩, withOrphans (o.addOrphan cfg.crypto.toHashlib clock block
          sourcePeer) core, ?_, a :: rest, _, core, rfl, hsuffix, hadopts, hwaits', hknown, ?_⟩
        · simp only [onBlockWithin, bind_apply, haccept]
          rfl
        · intro b hb hseen
          rw [hcontains]
          rcases hseen with hseen | rfl
          · exact .inr (hcame b hb hseen)
          · exact .inl rfl
  · have hold := (hknown block hblock).resolve_left hleft
    refine ⟨⟨true, some .known⟩, withOrphans o core, ?_, left, o, core, rfl, hsuffix, hadopts, hwaits,
      hknown, ?_⟩
    · simp only [onBlockWithin, bind_apply, acceptBlock_known hold]
      rfl
    · intro b hb hseen
      rcases hseen with hseen | rfl
      · exact hcame b hb hseen
      · exact absurd hb hleft

lemma Arrived.deliver (hlinked : Successive cfg.crypto.toHashlib blocks)
    (h : Arrived cfg clock blocks last seen node) {deliveries : List Delivery}
    (hdeliveries : ∀ d ∈ deliveries, d.clock = clock ∧ d.block ∈ blocks) :
    Arrived cfg clock blocks last (fun b => seen b ∨ ∃ d ∈ deliveries, d.block = b)
      (received cfg deliveries node) := by
  induction deliveries generalizing node seen with
  | nil =>
    simp only [List.not_mem_nil, false_and, exists_false, or_false]
    exact h
  | cons d ds ih =>
    obtain ⟨hclock, hblock⟩ := hdeliveries d (List.mem_cons_self ..)
    obtain ⟨reply, node', hcall, hnext⟩ := h.onBlock hlinked hblock d.sourcePeer
    have hrest := ih hnext fun x hx => hdeliveries x (List.mem_cons_of_mem _ hx)
    rw [← hclock] at hcall
    have hreceived : received cfg (d :: ds) node = received cfg ds node' := by
      rw [received, Node.deliver, hcall, received]
    rw [hreceived]
    obtain ⟨left, o, core, hnode, hsuffix, hadopts, hwaits, hknown, hcame⟩ := hrest
    refine ⟨left, o, core, hnode, hsuffix, hadopts, hwaits, hknown, ?_⟩
    intro b hb hseen
    refine hcame b hb ?_
    rcases hseen with hseen | ⟨x, hx, rfl⟩
    · exact .inl (.inl hseen)
    · rcases List.mem_cons.1 hx with rfl | hx
      · exact .inl (.inr rfl)
      · exact .inr ⟨x, hx, rfl⟩

/-- Where every block has come, none waits. -/
lemma Arrived.all (h : Arrived cfg clock blocks last seen node) (hseen : ∀ b ∈ blocks, seen b) :
    ∃ o, o.orphans.rows = [] ∧ node = withOrphans o last := by
  obtain ⟨left, o, core, rfl, hsuffix, hadopts, hwaits, -, hcame⟩ := h
  cases left with
  | nil =>
    cases hadopts
    refine ⟨o, ?_, rfl⟩
    rw [List.eq_nil_iff_forall_not_mem]
    intro r hr
    have hmem := (hwaits.early r.1 r.2 (KeyedRows.get?_of_mem_rows hr)).1
    cases hmem
  | cons a rest =>
    have ha := hcame a (List.mem_cons_self ..) (hseen a (hsuffix.mem (List.mem_cons_self ..)))
    obtain ⟨x, hx⟩ := Option.isSome_iff_exists.1 ha
    obtain ⟨hmem, hhash, -⟩ := hwaits.early _ x hx
    exact absurd (List.mem_map.2 ⟨x.block, hmem, hhash⟩) (List.nodup_cons.1 hadopts.nodup).1

/-- A block that is answered so while no orphan waits has a known parent, and was adopted. -/
lemma onBlock_adopts {reply : BlockReply} {node' : Node}
    (hwaits : Waits cfg.crypto.toHashlib clock [] o) (sourcePeer : Option String)
    (hreply : reply = ⟨true, none⟩)
    (hcall : Node.onBlock cfg clock block sourcePeer (withOrphans o core) = .ok reply node') :
    ∃ core₁, node' = withOrphans o core₁ ∧
      ∀ left last, Adopts cfg clock core₁ left last → Adopts cfg clock core (block :: left) last := by
  subst hreply
  have hnone : o.getChildren cfg.setOrder (block.header.hashHex cfg.crypto.toHashlib) = [] :=
    hwaits.getChildren_other .nil (by simp) cfg.setOrder
  simp only [Node.onBlock, bind_apply, get_apply, onBlockWithin] at hcall
  cases hnew : core.session.memory.getBlock (block.header.hashHex cfg.crypto.toHashlib) with
  | some entry =>
    rw [acceptBlock_known (by rw [hnew]; simp)] at hcall
    cases hcall
  | none =>
    cases hparent : core.session.memory.getBlock block.header.prevBlockHash with
    | none =>
      simp only [acceptBlock, bind_apply, read_apply, id, withOrphans, hnew, Option.isSome_none,
        Bool.false_eq_true, if_false, modify_apply, hparent, pure_apply] at hcall
      cases hcall
    | some parent =>
      have hblind := Blind.acceptChild cfg (validateBlockStateful cfg clock) clock block parent o core
      simp only [withOrphans] at hblind
      simp only [acceptBlock, bind_apply, read_apply, id, withOrphans, hnew, Option.isSome_none,
        Bool.false_eq_true, if_false, modify_apply, hparent, hwaits.cleanupExpired, hblind] at hcall
      cases haccept : acceptChild cfg (validateBlockStateful cfg clock) clock block parent core with
      | error e core₁ =>
        rw [haccept] at hcall
        cases hcall
      | ok reply core₁ =>
        rw [haccept] at hcall
        simp only [resultWith] at hcall
        by_cases hadopted : reply = ⟨true, none⟩
        · subst hadopted
          simp only [if_true, bind_apply, get_apply, processOrphanChildren_nil hnone, pure_apply] at hcall
          cases hcall
          exact ⟨core₁, rfl, fun _ _ hrest => .cons hparent hnew haccept hrest⟩
        · rw [if_neg hadopted] at hcall
          cases hcall
          exact absurd rfl hadopted

/-- A list of blocks that is adopted in order. -/
lemma adopts_received (hwaits : Waits cfg.crypto.toHashlib clock [] o)
    (hinorder : ∀ reply ∈ (Node.deliver (fun d => Node.onBlock cfg d.clock d.block d.sourcePeer)
      (blocks.map fun b => ⟨clock, b, none⟩) (withOrphans o core)).1, reply = .ok ⟨true, none⟩) :
    ∃ last, received cfg (blocks.map fun b => ⟨clock, b, none⟩) (withOrphans o core) =
      withOrphans o last ∧ Adopts cfg clock core blocks last := by
  induction blocks generalizing core with
  | nil => exact ⟨core, rfl, .nil core⟩
  | cons b rest ih =>
    simp only [received, List.map_cons, Node.deliver] at hinorder ih ⊢
    cases hcall : Node.onBlock cfg clock b none (withOrphans o core) with
    | error e node' => simp [hcall] at hinorder
    | ok reply node' =>
      simp only [hcall, List.mem_cons, forall_eq_or_imp] at hinorder ⊢
      have hreply : reply = ⟨true, none⟩ := by
        have hfirst := hinorder.1
        injection hfirst
      obtain ⟨core₁, rfl, hadopts⟩ := onBlock_adopts hwaits none hreply hcall
      obtain ⟨last, hlast, hrest⟩ := ih hinorder.2
      exact ⟨last, hlast, hadopts rest last hrest⟩

end arrival

/-- Where `on_block` adopts the blocks of a chain when they come in order, it ends in the same state
whatever the order in which they come and however often each of them comes: with the same database,
index, files and best tip, and with no orphan. -/
theorem received_any_order (cfg : NodeConfig) (clock : ℚ) (start : Node) (blocks : List Block)
    (deliveries : List Delivery) (hmaps : start.orphanage.Consistent)
    (hempty : start.orphanage.orphans.rows = []) (hage : 0 ≤ start.orphanage.maxAge)
    (hroom : blocks.length ≤ start.orphanage.maxOrphans)
    (hroomForPeer : blocks.length ≤ start.orphanage.maxOrphansPerPeer)
    (hlinked : Orphanage.Successive cfg.crypto.toHashlib blocks)
    (hinorder : ∀ reply ∈ (deliver (fun d => onBlock cfg d.clock d.block d.sourcePeer)
      (blocks.map fun b => ⟨clock, b, none⟩) start).1, reply = .ok ⟨true, none⟩)
    (hdeliveries : ∀ d ∈ deliveries, d.clock = clock ∧ d.block ∈ blocks)
    (hall : ∀ b ∈ blocks, ∃ d ∈ deliveries, d.block = b) :
    ∃ o, o.orphans.rows = [] ∧ received cfg deliveries start =
      withOrphans o (received cfg (blocks.map fun b => ⟨clock, b, none⟩) start) := by
  have hwaits {left : List Block} (hroom : left.length ≤ start.orphanage.maxOrphans)
      (hpeer : left.length ≤ start.orphanage.maxOrphansPerPeer) :
      Orphanage.Waits cfg.crypto.toHashlib clock left start.orphanage := by
    refine ⟨hmaps, hroom, hpeer, hage, ?_⟩
    intro k x hx
    simp [KeyedRows.get?, hempty] at hx
  obtain ⟨last, hlast, hadopts⟩ : ∃ last, received cfg (blocks.map fun b => ⟨clock, b, none⟩) start =
      withOrphans start.orphanage last ∧ Adopts cfg clock start blocks last :=
    adopts_received (hwaits (Nat.zero_le _) (Nat.zero_le _)) hinorder
  have hbefore : Arrived cfg clock blocks last (fun _ => False) start :=
    ⟨blocks, start.orphanage, start, rfl, List.suffix_rfl, hadopts, hwaits hroom hroomForPeer,
      fun b hb => .inl hb, fun _ _ h => h.elim⟩
  obtain ⟨o, hnone, hreceived⟩ := (hbefore.deliver hlinked hdeliveries).all
    fun b hb => .inr (hall b hb)
  refine ⟨o, hnone, ?_⟩
  have hinorder' : received cfg (blocks.map fun b => ⟨clock, b, none⟩) start =
      withOrphans start.orphanage last := hlast
  rw [hreceived, hinorder']
  rfl

open ReorgExample in
/-- A block that comes before its parent, and again after it. -/
theorem received_any_order_twice :
    ∃ o, o.orphans.rows = [] ∧
      received config [⟨2000, blockB2, some "peer"⟩, ⟨2000, blockB, none⟩, ⟨2000, blockB2, none⟩] start =
        withOrphans o (received config ([blockB, blockB2].map fun b => ⟨2000, b, none⟩) start) :=
  received_any_order config 2000 start [blockB, blockB2] _ (OrphanageOp.consistent_empty _ _ _) rfl
    (by decide +kernel) (by decide) (by decide)
    (List.isChain_cons_cons.2 ⟨by decide +kernel, List.isChain_singleton _⟩) (by decide +kernel)
    (by simp) (by simp)

end Node
end BerzCoin
