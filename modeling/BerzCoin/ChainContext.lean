import BerzCoin.ChainLedgerReorg
import BerzCoin.MiningBits
import BerzCoin.WindowMedian

/-! The rules on a header in terms of the chain that it extends: they are stated over the headers of
the chain alone, and the validator keeps to them where the height index shows the chain. -/
namespace BerzCoin
open BlockIndex Database
open Script (Crypto)
open WindowMedian (median lastOf)

/-- The median time past on top of a chain, whose headers are given lowest first. -/
def medianTimeOf (params : ConsensusParams) (headers : List BlockHeader) : ℕ :=
  median 0 (lastOf (max 1 params.limits.medianTimePastWindow)
    (headers.map fun header => header.timestamp.toNat))

/-- A header that may stand on top of a chain. -/
structure FitsOn (C : Crypto) (params : ConsensusParams) (headers : List BlockHeader)
    (header : BlockHeader) : Prop where
  work : ProofOfWork.validate params C.toHashlib header = true
  bits : ∃ parent, headers.getLast? = some parent ∧
    header.bits.toNat = nextBits params headers parent
  time : medianTimeOf params headers < header.timestamp.toNat

/-- The median time past on top of a block that fits is no less than the one below it. -/
lemma FitsOn.median_le {C : Crypto} {params : ConsensusParams} {headers : List BlockHeader}
    {header : BlockHeader} (h : FitsOn C params headers header) :
    medianTimeOf params headers ≤ medianTimeOf params (headers ++ [header]) := by
  have htime := h.time
  unfold medianTimeOf at htime ⊢
  rw [List.map_append]
  exact WindowMedian.median_le_push (by omega) htime

namespace BlockValidator
variable {C : Crypto} {params : ConsensusParams} {getUtxo : Outpoint → Option UtxoRow}
variable {b : BlockIndex} {headers : List BlockHeader} {now : ℕ} {block : Block}

/-- The height index has the headers of the chain. -/
def ShowsHeaders (b : BlockIndex) (headers : List BlockHeader) : Prop :=
  ∀ k < headers.length, (b.getBlockByHeight k).map BlockIndexEntry.header = headers[k]?

lemma medianTimePast_of_shown (h : ShowsHeaders b headers) :
    medianTimePast params b headers.length = medianTimeOf params headers := by
  have htimes : pastTimes params b headers.length =
      lastOf (max 1 params.limits.medianTimePastWindow)
        (headers.map fun header => header.timestamp.toNat) := by
    have hget : ∀ k < (headers.map fun header => header.timestamp.toNat).length,
        ((b.getBlockByHeight k).map fun entry => entry.header.timestamp.toNat) =
          (headers.map fun header => header.timestamp.toNat)[k]? := by
      intro k hk
      rw [List.length_map] at hk
      rw [List.getElem?_map, ← h k hk, Option.map_map]
      rfl
    have hlength : (headers.map fun header => header.timestamp.toNat).length = headers.length :=
      List.length_map _
    rw [lastOf, hlength]
    unfold pastTimes
    rw [filterMap_window hget (by omega), List.take_of_length_le]
    rw [List.length_drop, hlength]
  rw [medianTimePast, htimes, medianTimeOf, median]
  simp only [List.length_insertionSort]

/-- A block that is accepted at the end of a chain fits on it. -/
lemma fitsOn_of_validated (hshown : ShowsHeaders b headers) {p : BlockIndexEntry}
    (hprev : b.getBlock block.header.prevBlockHash = some p)
    (hparent : headers.getLast? = some p.header)
    (h : validateBlock C params getUtxo b now block headers.length = .ok true) :
    FitsOn C params headers block.header := by
  obtain ⟨hheader, -, -, htime⟩ := validateBlock_rules h
  have hbits : expectedBitsForHeight params b headers.length p =
      some (nextBits params headers p.header) := expectedBitsForHeight_eq hparent hshown rfl
  have hne : headers.length ≠ 0 := by
    cases headers with
    | nil => cases hparent
    | cons first rest => exact Nat.succ_ne_zero _
  unfold validateHeader at hheader
  simp only [if_neg hne, hprev, hbits] at hheader
  split_ifs at hheader with hversion hwork hmax
  rw [validateTimestamps, medianTimePast_of_shown hshown] at htime
  split_ifs at htime with hmedian
  exact ⟨by simpa using hwork, ⟨p.header, hparent, by simpa using hheader⟩, Nat.not_le.1 hmedian⟩

end BlockValidator

/-- The headers of a chain above a first one, lowest first. -/
def headersOf (genesis : BlockHeader) (chain : List Connected) : List BlockHeader :=
  genesis :: (chain.map fun c => c.block.header).reverse

lemma length_headersOf (genesis : BlockHeader) (chain : List Connected) :
    (headersOf genesis chain).length = chain.length + 1 := by
  rw [headersOf, List.length_cons, List.length_reverse, List.length_map]

lemma headersOf_cons (genesis : BlockHeader) (c : Connected) (past : List Connected) :
    headersOf genesis (c :: past) = headersOf genesis past ++ [c.block.header] := by
  rw [headersOf, List.map_cons, List.reverse_cons, headersOf, List.cons_append]

/-- A chain whose blocks fit has median times that never decrease. -/
lemma medianTimeOf_mono {C : Crypto} {params : ConsensusParams} {genesis : BlockHeader}
    {past chain : List Connected}
    (h : ∀ c below, (c :: below) <:+ chain → FitsOn C params (headersOf genesis below) c.block.header)
    (hpast : past <:+ chain) :
    medianTimeOf params (headersOf genesis past) ≤ medianTimeOf params (headersOf genesis chain) := by
  induction chain with
  | nil =>
    obtain rfl := List.suffix_nil.1 hpast
    exact le_rfl
  | cons c chain ih =>
    rcases List.suffix_cons_iff.1 hpast with rfl | hpast
    · exact le_rfl
    · have hlast := (h c chain List.suffix_rfl).median_le
      rw [← headersOf_cons] at hlast
      exact (ih (fun x below hx => h x below (hx.trans (List.suffix_cons ..))) hpast).trans hlast

/-! A chain in an index. -/
section charted
variable {H : Hashlib} {root tip : Bytes} {genesis : BlockHeader} {blocks : List Block}
variable {b : BlockIndex} {chain : List Connected} {block : Block}

/-- The entry of a listed block has its header. -/
lemma Charted.header (h : Charted H root genesis blocks b)
    (hnamed : ∀ x ∈ blocks, ∀ y ∈ blocks, x.header.hashHex H = y.header.hashHex H → x = y)
    (hblock : block ∈ blocks) (hroot : block.header.hashHex H ≠ root) {e : BlockIndexEntry}
    (he : b.getBlock (block.header.hashHex H) = some e) : e.header = block.header := by
  obtain ⟨other, hother, hhash, hheader⟩ := h.listed _ e he hroot
  rw [hheader, hnamed other hother block hblock hhash]

lemma Charted.parentHashOf (h : Charted H root genesis blocks b)
    (hnamed : ∀ x ∈ blocks, ∀ y ∈ blocks, x.header.hashHex H = y.header.hashHex H → x = y)
    (hblock : block ∈ blocks) (hroot : block.header.hashHex H ≠ root) :
    b.parentHashOf H block = block.header.prevBlockHash := by
  unfold BlockIndex.parentHashOf
  cases he : b.getBlock (block.header.hashHex H) with
  | none => rfl
  | some e =>
    simp only
    rw [h.header hnamed hblock hroot he]

/-- The ancestors of the tip of a chain are the blocks of the chain, each at its height. -/
lemma Linked.ancestors (h : Linked H root chain tip) (hcharted : Charted H root genesis blocks b)
    (hnamed : ∀ x ∈ blocks, ∀ y ∈ blocks, x.header.hashHex H = y.header.hashHex H → x = y)
    (hlisted : ∀ c ∈ chain, c.block ∈ blocks) (hroot : ∀ c ∈ chain, c.block.header.hashHex H ≠ root)
    {e : BlockIndexEntry} (he : b.getBlock tip = some e) :
    e.height = chain.length ∧ ∀ x y, b.getBlock x = some y → b.Descends tip x →
      (headersOf genesis chain)[y.height]? = some y.header := by
  obtain ⟨aboveRoot, hrooted⟩ := hcharted.rooted
  induction h generalizing e with
  | root =>
    obtain ⟨e', he', hzero, -⟩ := hrooted.entry
    obtain ⟨e'', he'', hgenesis⟩ := hcharted.atRoot
    rw [he] at he' he''
    cases he'
    cases he''
    refine ⟨hzero, fun x y hy hdesc => ?_⟩
    have hheight : b.getHeight root = some 0 := by simp [getHeight, he, hzero]
    obtain ⟨hle, heq⟩ := descends_height hrooted.tree hdesc hy hheight
    rw [heq (by omega), he] at hy
    cases hy
    rw [hzero, ← hgenesis]
    rfl
  | @block c past below ih =>
    have hblock := hlisted c (List.mem_cons_self ..)
    have hne := hroot c (List.mem_cons_self ..)
    have hheader := hcharted.header hnamed hblock hne he
    obtain ⟨p, hp⟩ := Option.ne_none_iff_exists'.1 (hrooted.parent _ e he hne)
    have hstep := hrooted.tree.parent _ e p he hp
    rw [hheader] at hp
    obtain ⟨hheight, hbelow⟩ := ih (fun x hx => hlisted x (List.mem_cons_of_mem _ hx))
      (fun x hx => hroot x (List.mem_cons_of_mem _ hx)) hp
    refine ⟨by rw [hstep, hheight, List.length_cons], fun x y hy hdesc => ?_⟩
    rw [headersOf_cons]
    rcases Relation.ReflTransGen.cases_head hdesc with rfl | ⟨q, hq, hdesc⟩
    · rw [he] at hy
      cases hy
      rw [hstep, hheight, ← length_headersOf genesis past, List.getElem?_concat_length, hheader]
    · rw [ParentHash, he, Option.map_some, hheader, Option.some.injEq] at hq
      subst hq
      have hget := hbelow x y hy hdesc
      rw [List.getElem?_append_left (List.getElem?_eq_some_iff.1 hget).1, hget]

/-- An index that shows the ancestors of the tip of a chain shows the headers of the chain. -/
lemma Linked.showsHeaders (h : Linked H root chain tip) (hcharted : Charted H root genesis blocks b)
    (hnamed : ∀ x ∈ blocks, ∀ y ∈ blocks, x.header.hashHex H = y.header.hashHex H → x = y)
    (hlisted : ∀ c ∈ chain, c.block ∈ blocks) (hroot : ∀ c ∈ chain, c.block.header.hashHex H ≠ root)
    (hshows : b.Shows tip (chain.length + 1)) :
    BlockValidator.ShowsHeaders b (headersOf genesis chain) ∧
      ∃ p, b.getBlock tip = some p ∧ (headersOf genesis chain).getLast? = some p.header := by
  obtain ⟨aboveRoot, hrooted⟩ := hcharted.rooted
  -- what the height index has at the top height descends from the tip, so the tip has an entry
  have htip : b.getBlock tip ≠ none := by
    obtain ⟨e, he, -, hdesc⟩ := hshows chain.length (Nat.lt_succ_self _)
    obtain ⟨x, -, hx⟩ := Option.bind_eq_some_iff.1 he
    rw [hrooted.tree.key x e hx] at hdesc
    intro hnone
    rcases Relation.ReflTransGen.cases_head hdesc with rfl | ⟨q, hq, -⟩
    · rw [hnone] at hx
      cases hx
    · rw [ParentHash, hnone] at hq
      cases hq
  obtain ⟨p, hp⟩ := Option.ne_none_iff_exists'.1 htip
  obtain ⟨hheight, hancestors⟩ := h.ancestors hcharted hnamed hlisted hroot hp
  refine ⟨fun k hk => ?_, p, hp, ?_⟩
  · rw [length_headersOf] at hk
    obtain ⟨e, he, rfl, hdesc⟩ := hshows k hk
    obtain ⟨x, -, hx⟩ := Option.bind_eq_some_iff.1 he
    rw [hrooted.tree.key x e hx] at hdesc
    rw [he, Option.map_some, hancestors x e hx hdesc]
  · have hget := hancestors tip p hp .refl
    rw [List.getLast?_eq_getElem?, length_headersOf, Nat.add_sub_cancel, ← hheight, hget]

end charted
end BerzCoin
