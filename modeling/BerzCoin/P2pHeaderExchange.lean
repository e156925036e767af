import BerzCoin.CoreReaders
import BerzCoin.P2pSync
import BerzCoin.ProtocolMessagesCodec

/-! The exchange of a locator for headers between two nodes. -/
namespace BerzCoin
open Serializer

namespace HeadersMessage

/-- One element of `headers` as it is read. -/
def readHeader : Reader Bytes := do
  let header ← readBytes 80
  let _txCount ← readVarint
  pure header

lemma readHeader_ok {data : Bytes} {offset offset' : ℕ} {header : Bytes}
    (h : readHeader data offset = .ok (header, offset')) :
    offset + 81 ≤ offset' ∧ offset + 81 ≤ data.length := by
  obtain ⟨bytes, offset₁, h₁, h⟩ := Reader.bind_ok.1 h
  obtain ⟨count, offset₂, h₂, h⟩ := Reader.bind_ok.1 h
  obtain ⟨rfl, rfl⟩ := Reader.pure_ok.1 h
  obtain ⟨_, _, hoffset, _⟩ := readBytes_ok h₁
  unfold readVarint at h₂
  cases hfirst : data[offset₁]? with
  | none => simp [hfirst] at h₂
  | some first =>
    have hlt := (List.getElem?_eq_some_iff.1 hfirst).1
    have hforward : offset₁ + 1 ≤ offset' := by
      simp only [hfirst] at h₂
      unfold readVarintTail at h₂
      split_ifs at h₂ <;> cases h₂ <;> omega
    omega

lemma readHeaders_ok {n : ℕ} {data : Bytes} {offset offset' : ℕ} {headers : List Bytes}
    (h : readMany readHeader n data offset = .ok (headers, offset')) (hn : n ≠ 0) :
    offset + 81 * n ≤ data.length := by
  induction n generalizing offset headers with
  | zero => exact absurd rfl hn
  | succ n ih =>
    obtain ⟨header, offset₁, h₁, h⟩ := Reader.bind_ok.1 h
    obtain ⟨rest, offset₂, h₂, h⟩ := Reader.bind_ok.1 h
    obtain ⟨rfl, rfl⟩ := Reader.pure_ok.1 h
    obtain ⟨hforward, hlength⟩ := readHeader_ok h₁
    by_cases hlast : n = 0
    · omega
    · have hrest := ih h₂ hlast
      omega

lemma length_flatMap_id {headers : List Bytes} (hsize : ∀ header ∈ headers, header.length = 80) :
    (headers.flatMap id).length = 80 * headers.length := by
  induction headers with
  | nil => rfl
  | cons header rest ih =>
    have hfirst := hsize header (by simp)
    have hrest := ih fun h hmem => hsize h (by simp [hmem])
    simp only [List.flatMap_cons, List.length_append, List.length_cons, id_eq, hfirst, hrest]
    omega

/-- Headers of 80 bytes, encoded by `serialize`, are never read back: each lacks its count. -/
lemma deserialize_serialize_ne_ok {headers : List Bytes} (hne : headers ≠ [])
    (hcount : headers.length < 2 ^ 64) (hsize : ∀ header ∈ headers, header.length = 80)
    (result : HeadersMessage × ℕ) : deserialize (serialize ⟨headers⟩) 0 ≠ .ok result := by
  intro hread
  obtain ⟨message, offset'⟩ := result
  obtain ⟨read, offset₁, h₁, _⟩ := Reader.bind_ok.1 hread
  obtain ⟨n, offset₂, h₂, h₃⟩ := Reader.bind_ok.1 h₁
  have hvarint := readVarint_decodes hcount [] (headers.flatMap id)
  rw [List.nil_append] at hvarint
  cases h₂.symm.trans hvarint
  have hlength := readHeaders_ok h₃ (by simpa using hne)
  rw [serialize, writeList, List.length_append, length_flatMap_id hsize] at hlength
  have hpos := List.length_pos_iff.2 hne
  simp only [List.length_nil] at hlength
  omega

lemma deserialize_serialize_nil : deserialize (serialize ⟨[]⟩) 0 = .ok (⟨[]⟩, 1) := by
  decide

end HeadersMessage
/-- The 32-byte fields of a header have their width. -/
def BlockHeader.Sized (header : BlockHeader) : Prop :=
  header.prevBlockHash.length = 32 ∧ header.merkleRoot.length = 32

lemma BlockHeader.Sized.length_serialize {header : BlockHeader} (h : header.Sized) :
    header.serialize.length = 80 := by
  simp [BlockHeader.serialize, writeUint32, h.1, h.2]

namespace CachedHeaders

/-- Stored and cached headers have fields of their width. -/
structure Sized (chain : CachedHeaders) : Prop where
  rows : ∀ row ∈ chain.rows.rows.map Prod.snd, row.header.Sized
  cached : ∀ height header, chain.headerCache.get? height = some header → header.Sized

variable {chain : CachedHeaders}

lemma Sized.putHeader (h : chain.Sized) {header : BlockHeader} (hheader : header.Sized) (height : ℕ)
    (heights : KeyedRows Bytes ℕ) :
    Sized { chain with headerCache := chain.headerCache.put height header, heightCache := heights } := by
  refine ⟨h.rows, ?_⟩
  intro other found hfound
  rw [KeyedRows.get?_put] at hfound
  split_ifs at hfound with heq
  · cases hfound
    exact hheader
  · exact h.cached other found hfound

lemma Sized.getHeader (h : chain.Sized) (height : ℕ) :
    (chain.getHeader height).2.Sized ∧
      ∀ header, (chain.getHeader height).1 = some header → header.Sized := by
  unfold CachedHeaders.getHeader
  split
  · rename_i cached hcached
    exact ⟨h, fun header heq => h.cached height header (hcached.trans heq)⟩
  · split
    · exact ⟨h, fun header heq => by cases heq⟩
    · rename_i row hrow
      have hsized : row.header.Sized := h.rows row (List.mem_filter.1 (mostWork_mem hrow)).1
      refine ⟨h.putHeader hsized height chain.heightCache, ?_⟩
      intro header heq
      cases heq
      exact hsized

lemma Sized.getHeaderByHash (h : chain.Sized) (blockHash : Bytes) :
    (chain.getHeaderByHash blockHash).2.Sized ∧
      ∀ header, (chain.getHeaderByHash blockHash).1 = some header → header.Sized := by
  unfold CachedHeaders.getHeaderByHash
  split
  · exact h.getHeader _
  · split
    · exact ⟨h, fun header heq => by cases heq⟩
    · rename_i row hrow
      have hsized : row.header.Sized := h.rows row (mem_rows_of_get? hrow)
      refine ⟨h.putHeader hsized row.height _, ?_⟩
      intro header heq
      cases heq
      exact hsized

lemma Sized.getHeight (h : chain.Sized) (blockHash : Bytes) :
    (chain.getHeight blockHash).2.Sized := by
  unfold CachedHeaders.getHeight
  split
  · exact h
  · split
    · exact h
    · exact ⟨h.rows, h.cached⟩

end CachedHeaders

namespace SyncChain
variable (H : Hashlib)

/-- The node has the headers as its main chain, with all bodies, and finds each of them. -/
structure HasMain (chain : SyncChain) (main : List BlockHeader) : Prop where
  bestHeight : chain.bestHeight = main.length - 1
  block : ∀ height header, main[height]? = some header → ∃ entry block row,
    chain.blockIndex.getBlockByHeight height = some entry ∧
      entry.blockHash = header.hashHex H ∧ chain.readBlockByHash entry.blockHash = some block ∧
      block.header = header ∧ chain.headerChain.rows.get? entry.blockHash = some row
  heightsFound : chain.headerChain.HeightsFound
  sized : chain.headerChain.Sized

variable {H} {chain : SyncChain} {main : List BlockHeader}

lemma HasMain.withHeaderChain (h : HasMain H chain main) {headers : CachedHeaders}
    (hrows : headers.rows = chain.headerChain.rows) (hfound : headers.HeightsFound)
    (hsized : headers.Sized) : HasMain H { chain with headerChain := headers } main := by
  refine ⟨h.bestHeight, ?_, hfound, hsized⟩
  intro height header hheader
  obtain ⟨entry, block, row, hentry, hhash, hread, hblock, hrow⟩ := h.block height header hheader
  refine ⟨entry, block, row, hentry, hhash, hread, hblock, ?_⟩
  simp only [hrows, hrow]

lemma HasMain.getHeight (h : HasMain H chain main) (blockHash : Bytes) :
    HasMain H (chain.getHeight blockHash).2 main :=
  h.withHeaderChain (CachedHeaders.getHeight_rows blockHash) (h.heightsFound.getHeight blockHash)
    (h.sized.getHeight blockHash)

/-- A header is found at each height of the main chain. -/
lemma HasMain.getHeader (h : HasMain H chain main) {height : ℕ} (hlt : height < main.length) :
    HasMain H (chain.getHeader height).2 main ∧
      ∃ header, (chain.getHeader height).1 = some header ∧ header.Sized := by
  obtain ⟨entry, block, row, hentry, _, _, _, hrow⟩ :=
    h.block height _ (List.getElem?_eq_getElem hlt)
  unfold SyncChain.getHeader withHeaders
  rw [hentry]
  refine ⟨h.withHeaderChain (CachedHeaders.getHeaderByHash_rows _)
    (h.heightsFound.getHeaderByHash _) (h.sized.getHeaderByHash _).1, ?_⟩
  obtain ⟨header, hheader⟩ :=
    Option.ne_none_iff_exists'.1 (CachedHeaders.getHeaderByHash_ne_none h.heightsFound hrow)
  exact ⟨header, hheader, (h.sized.getHeaderByHash _).2 header hheader⟩

end SyncChain
namespace BlockSync
open SyncChain
variable {H : Hashlib} {main : List BlockHeader}

/-- The server starts after the first hash of the locator that it knows, and at 0 without one. -/
lemma startHeight_spec {chain : SyncChain} (h : HasMain H chain main) (locator : List Bytes) :
    (startHeight chain locator).1 =
        ((locator.findSome? chain.headerChain.heightOf).map (· + 1)).getD 0 ∧
      HasMain H (startHeight chain locator).2 main := by
  induction locator generalizing chain with
  | nil => exact ⟨rfl, h⟩
  | cons locatorHash rest ih =>
    have hvalue : (chain.getHeight locatorHash).1 = chain.headerChain.heightOf locatorHash :=
      CachedHeaders.getHeight_fst locatorHash
    have hnext := h.getHeight locatorHash
    have hsame : (chain.getHeight locatorHash).2.headerChain.heightOf =
        chain.headerChain.heightOf := by
      funext other
      exact CachedHeaders.heightOf_getHeight locatorHash other
    rw [startHeight, List.findSome?_cons, ← hvalue]
    generalize chain.getHeight locatorHash = looked at hvalue hnext hsame
    obtain ⟨found, chain'⟩ := looked
    cases found with
    | some height => exact ⟨rfl, hnext⟩
    | none =>
      obtain ⟨hrest, hmain⟩ := ih hnext
      rw [hsame] at hrest
      exact ⟨hrest, hmain⟩

lemma collectHeaders_spec {chain : SyncChain} (h : HasMain H chain main) {heights : List ℕ}
    (hheights : ∀ height ∈ heights, height < main.length) :
    (collectHeaders chain heights).1.length = heights.length ∧
      ∀ header ∈ (collectHeaders chain heights).1, header.length = 80 := by
  induction heights generalizing chain with
  | nil => exact ⟨rfl, fun header hmem => by cases hmem⟩
  | cons height rest ih =>
    obtain ⟨hnext, header, hheader, hsized⟩ := h.getHeader (hheights height (by simp))
    rw [collectHeaders]
    generalize chain.getHeader height = looked at hnext hheader
    obtain ⟨found, chain'⟩ := looked
    subst hheader
    obtain ⟨hlength, hsize⟩ := ih hnext fun other hmem => hheights other (by simp [hmem])
    simp only [List.length_cons, hlength, true_and]
    intro encoded hmem
    cases List.mem_cons.1 hmem with
    | inl heq =>
      rw [heq]
      exact hsized.length_serialize
    | inr hrest => exact hsize encoded hrest

/-- How many headers the server answers with. -/
lemma answerGetheaders_spec {chain : SyncChain} (h : HasMain H chain main)
    (req : GetHeadersMessage) :
    (answerGetheaders chain req).1.headers.length =
        min main.length ((startHeight chain req.blockLocatorHashes).1 + 2000) -
          (startHeight chain req.blockLocatorHashes).1 ∧
      ∀ header ∈ (answerGetheaders chain req).1.headers, header.length = 80 := by
  have hmain := (startHeight_spec h req.blockLocatorHashes).2
  unfold answerGetheaders
  generalize startHeight chain req.blockLocatorHashes = started at hmain
  obtain ⟨start, chain'⟩ := started
  have hbest := hmain.bestHeight
  have hstop : (min (chain'.bestHeight + 1) ((start : ℤ) + 2000)).toNat =
      min main.length (start + 2000) := by
    simp only at hbest
    omega
  have hheights : ∀ height ∈ List.range' start (min main.length (start + 2000) - start),
      height < main.length := by
    intro height hmem
    rw [List.mem_range'_1] at hmem
    omega
  obtain ⟨hlength, hsize⟩ := collectHeaders_spec hmain hheights
  simp only [hstop]
  exact ⟨by rw [hlength, List.length_range'], hsize⟩

/-- The heights that the loop of the locator visits, from `height` on with `count` hashes there. -/
def visitedHeights : ℕ → ℤ → ℕ → ℕ → List ℕ
  | 0, _, _, _ => []
  | fuel + 1, height, step, count =>
    if 0 ≤ height ∧ count < 100 then
      let step := if 10 < count + 1 then step * 2 else step
      height.toNat :: visitedHeights fuel (height - step) step (count + 1)
    else []

/-- The heights of the locator of a node with the best height `best`: the loop, then genesis. -/
def locatorHeights (best : ℕ) : List ℕ := visitedHeights (best + 1) best 1 0 ++ [0]

lemma locatorLoop_eq {getBlock : ℕ → Option Block}
    (hblock : ∀ height header, main[height]? = some header →
      ∃ block, getBlock height = some block ∧ block.header = header)
    (fuel : ℕ) (height : ℤ) (step : ℕ) (locator : List Bytes) (hheight : height < main.length) :
    locatorLoop H getBlock fuel height step locator =
      locator ++ (visitedHeights fuel height step locator.length).filterMap
        fun h => main[h]?.map (·.hash H) := by
  induction fuel generalizing height step locator with
  | zero => simp [locatorLoop, visitedHeights]
  | succ fuel ih =>
    rw [locatorLoop, visitedHeights]
    by_cases hgo : 0 ≤ height ∧ locator.length < 100
    · rw [if_pos hgo, if_pos hgo]
      have hlt : height.toNat < main.length := by omega
      obtain ⟨block, hget, hheader⟩ := hblock _ _ (List.getElem?_eq_getElem hlt)
      simp only [hget, List.length_append, List.length_singleton]
      rw [ih _ _ _ (by omega), List.filterMap_cons, List.getElem?_eq_getElem hlt]
      simp only [Option.map_some, List.length_append, List.length_singleton, hheader,
        List.append_assoc, List.singleton_append]
    · rw [if_neg hgo, if_neg hgo]
      simp

lemma length_visitedHeights (fuel : ℕ) (height : ℤ) (step count : ℕ) :
    (visitedHeights fuel height step count).length ≤ 100 - count := by
  induction fuel generalizing height step count with
  | zero => simp [visitedHeights]
  | succ fuel ih =>
    rw [visitedHeights]
    by_cases hgo : 0 ≤ height ∧ count < 100
    · rw [if_pos hgo]
      generalize (if 10 < count + 1 then step * 2 else step) = next
      have hrest := ih (height - next) next (count + 1)
      simp only [List.length_cons]
      omega
    · rw [if_neg hgo]
      exact Nat.zero_le _

/-- The locator lists the hashes of the client's main chain at these heights. -/
lemma buildLocator_eq {chain : SyncChain} (h : HasMain H chain main) (hne : main ≠ []) :
    buildLocator H chain = (locatorHeights (main.length - 1)).filterMap
      fun h => main[h]?.map (·.hash H) := by
  have hpos := List.length_pos_iff.2 hne
  have hblock : ∀ height header, main[height]? = some header →
      ∃ block, chain.getBlockByHeight height = some block ∧ block.header = header := by
    intro height header hheader
    obtain ⟨entry, block, _, hentry, _, hread, hsame, _⟩ := h.block height header hheader
    exact ⟨block, by simp [getBlockByHeight, hentry, hread], hsame⟩
  obtain ⟨genesis, hgenesis, hheader⟩ := hblock 0 _ (List.getElem?_eq_getElem hpos)
  have hbest : chain.bestHeight = ((main.length - 1 : ℕ) : ℤ) := by
    rw [h.bestHeight]
    omega
  unfold buildLocator locatorHeights
  simp only [hgenesis, hbest]
  rw [locatorLoop_eq hblock _ _ _ _ (by omega)]
  rw [show ((main.length - 1 : ℕ) + 1 : ℤ).toNat = main.length - 1 + 1 by omega]
  simp [List.getElem?_eq_getElem hpos, hheader]

lemma length_buildLocator {chain : SyncChain} (h : HasMain H chain main) (hne : main ≠ []) :
    (buildLocator H chain).length < 2 ^ 64 := by
  rw [buildLocator_eq h hne]
  have hvisited := length_visitedHeights (main.length - 1 + 1) ((main.length - 1 : ℕ) : ℤ) 1 0
  have hfilter := List.length_filterMap_le (fun h => main[h]?.map (·.hash H))
    (locatorHeights (main.length - 1))
  rw [locatorHeights, List.length_append, List.length_singleton] at hfilter
  rw [locatorHeights]
  omega

/-- The highest height at which the chain has a block of the locator. -/
def highestCommon (H : Hashlib) (main : List BlockHeader) (locator : List Bytes) : Option ℕ :=
  (List.range main.length).reverse.find? fun h => (main[h]?.map (·.hash H)).any (· ∈ locator)

/-- The headers that follow the highest block of the locator on the chain, at most 2000. -/
def followers (H : Hashlib) (main : List BlockHeader) (locator : List Bytes) : List BlockHeader :=
  match highestCommon H main locator with
  | none => []
  | some h => (main.drop (h + 1)).take 2000

/-- When a block of the chain is in the locator, nothing follows if and only if the tip is. -/
lemma followers_eq_nil_iff {locator : List Bytes}
    (hcommon : ∃ header ∈ main, header.hash H ∈ locator) :
    followers H main locator = [] ↔
      ∃ header, main.getLast? = some header ∧ header.hash H ∈ locator := by
  obtain ⟨first, hfirst, hinLocator⟩ := hcommon
  obtain ⟨k, hk⟩ := List.getElem?_of_mem hfirst
  have hklt := (List.getElem?_eq_some_iff.1 hk).1
  obtain ⟨n, hn⟩ : ∃ n, main.length = n + 1 := ⟨main.length - 1, by omega⟩
  have htip : main.getLast? = main[n]? := by
    rw [List.getLast?_eq_getElem?, hn, Nat.add_sub_cancel]
  have hlast : main[n]? = some main[n] := List.getElem?_eq_getElem (by omega)
  rw [followers, highestCommon, hn, List.range_succ, List.reverse_append, List.reverse_singleton,
    List.singleton_append, List.find?_cons, htip, hlast]
  by_cases hmem : main[n].hash H ∈ locator
  · simp [hmem, ← hn]
  · have hfalse : ((some main[n]).map (·.hash H)).any (· ∈ locator) = false := by simpa using hmem
    simp only [hfalse]
    constructor
    · intro hnil
      cases hfind : (List.range n).reverse.find? fun h =>
          (main[h]?.map (·.hash H)).any (· ∈ locator) with
      | none =>
        rw [List.find?_eq_none] at hfind
        have hkn : k ≠ n := by
          intro heq
          subst heq
          cases hlast.symm.trans hk
          exact hmem hinLocator
        have hnot := hfind k (by simp; omega)
        rw [hk] at hnot
        exact absurd (by simpa using hinLocator) hnot
      | some h =>
        have hlt : h < n := by simpa using List.mem_of_find?_eq_some hfind
        rw [hfind] at hnil
        have hlength := congrArg List.length hnil
        simp only [List.length_take, List.length_drop, List.length_nil] at hlength
        omega
    · intro hexists
      obtain ⟨header, heq, hin⟩ := hexists
      cases heq
      exact absurd hin hmem

/-- The request reaches the server as it was sent, with its count. -/
lemma getheaders_read (hlength : ∀ data, (H.sha256 data).length = 32) {client : SyncChain}
    (h : HasMain H client main) (hne : main ≠ []) :
    ∃ offset, GetHeadersMessage.deserialize
        ({ blockLocatorHashes := buildLocator H client } : GetHeadersMessage).serialize 0 =
      .ok (⟨70015, (buildLocator H client).length, buildLocator H client, zeroHash⟩, offset) := by
  have hinRange : GetHeadersMessage.InRange
      ⟨70015, (buildLocator H client).length, buildLocator H client, zeroHash⟩ := by
    refine ⟨rfl, length_buildLocator h hne, ?_, by simp [zeroHash]⟩
    intro hash hmem
    rw [buildLocator_eq h hne, List.mem_filterMap] at hmem
    obtain ⟨height, _, hheight⟩ := hmem
    obtain ⟨header, _, rfl⟩ := Option.map_eq_some_iff.1 hheight
    exact hlength _
  exact ⟨_, (GetHeadersMessage.deserialize_decodes hinRange).last.whole⟩

/-- The client reads an answer if and only if the answer is empty. -/
lemma exchangeHeaders_eq_ok_iff (hlength : ∀ data, (H.sha256 data).length = 32)
    {client server : SyncChain} {mainC mainS : List BlockHeader} (hclient : HasMain H client mainC)
    (hserver : HasMain H server mainS) (hne : mainC ≠ []) (headers : List Bytes) :
    exchangeHeaders H client server = .ok headers ↔
      headers = [] ∧ mainS.length ≤ (startHeight server (buildLocator H client)).1 := by
  obtain ⟨offset, hread⟩ := getheaders_read hlength hclient hne
  have hanswer := answerGetheaders_spec hserver
    ⟨70015, (buildLocator H client).length, buildLocator H client, zeroHash⟩
  unfold exchangeHeaders
  simp only [hread, bind, Except.bind, pure, Except.pure]
  generalize answerGetheaders server
    ⟨70015, (buildLocator H client).length, buildLocator H client, zeroHash⟩ = answer at hanswer
  obtain ⟨⟨answered⟩, server'⟩ := answer
  obtain ⟨hcount, hsize⟩ := hanswer
  simp only at hcount hsize ⊢
  by_cases hnil : answered = []
  · subst hnil
    rw [HeadersMessage.deserialize_serialize_nil]
    simp only [List.length_nil] at hcount
    simp only [Except.ok.injEq]
    constructor
    · intro heq
      exact ⟨heq.symm, by omega⟩
    · intro h
      exact h.1.symm
  · have hpos := List.length_pos_iff.2 hnil
    have hfail := HeadersMessage.deserialize_serialize_ne_ok hnil (by omega) hsize
    cases hresult : HeadersMessage.deserialize (HeadersMessage.serialize ⟨answered⟩) 0 with
    | ok result => exact absurd hresult (hfail result)
    | error e =>
      constructor
      · intro heq
        cases heq
      · intro h
        omega

lemma findSome?_filterMap {α β γ : Type} (f : α → Option β) (g : β → Option γ) (l : List α) :
    (l.filterMap f).findSome? g = l.findSome? fun a => (f a).bind g := by
  induction l with
  | nil => rfl
  | cons a l ih =>
    cases hfa : f a with
    | none => simp [hfa, ih]
    | some b => simp [List.findSome?_cons, hfa, ih]

/-- The exchange gives the client what it asks for exactly when it asks for nothing: the server's
tip is a block of the locator, and the first hash of the locator that the server finds among its
headers, whose keys are the reversed hashes, stands at its tip or higher. -/
theorem exchangeHeaders_eq_followers_iff (hlength : ∀ data, (H.sha256 data).length = 32)
    {client server : SyncChain} {mainC mainS : List BlockHeader} (hclient : HasMain H client mainC)
    (hserver : HasMain H server mainS) (hne : mainC ≠ []) (hshared : mainC.head? = mainS.head?) :
    exchangeHeaders H client server =
        .ok ((followers H mainS (buildLocator H client)).map BlockHeader.serialize) ↔
      (∃ h ∈ locatorHeights (mainC.length - 1), ∃ header tip, mainC[h]? = some header ∧
        mainS.getLast? = some tip ∧ header.hash H = tip.hash H) ∧
      ∃ known, (locatorHeights (mainC.length - 1)).findSome? (fun h => (mainC[h]?).bind fun header =>
        server.headerChain.heightOf (header.hash H)) = some known ∧ mainS.length ≤ known + 1 := by
  have hlocator := buildLocator_eq hclient hne
  have hmemLocator : ∀ hash, hash ∈ buildLocator H client ↔
      ∃ h ∈ locatorHeights (mainC.length - 1), ∃ header, mainC[h]? = some header ∧
        header.hash H = hash := by
    intro hash
    rw [hlocator, List.mem_filterMap]
    simp only [Option.map_eq_some_iff]
  obtain ⟨genesis, restC, hmainC⟩ := List.exists_cons_of_ne_nil hne
  have hgenesis : mainS.head? = some genesis := by
    rw [← hshared, hmainC, List.head?_cons]
  have hcommon : ∃ header ∈ mainS, header.hash H ∈ buildLocator H client := by
    refine ⟨genesis, List.mem_of_mem_head? hgenesis, ?_⟩
    rw [hmemLocator]
    exact ⟨0, by simp [locatorHeights], genesis, by simp [hmainC], rfl⟩
  have hpos : 0 < mainS.length := List.length_pos_of_mem (List.mem_of_mem_head? hgenesis)
  have hstart := (startHeight_spec hserver (buildLocator H client)).1
  have hfirst : (buildLocator H client).findSome? server.headerChain.heightOf =
      (locatorHeights (mainC.length - 1)).findSome? fun h => (mainC[h]?).bind fun header =>
        server.headerChain.heightOf (header.hash H) := by
    rw [hlocator, findSome?_filterMap]
    congr 1
    funext h
    cases mainC[h]? <;> rfl
  rw [hfirst] at hstart
  rw [exchangeHeaders_eq_ok_iff hlength hclient hserver hne, List.map_eq_nil_iff,
    followers_eq_nil_iff hcommon, hstart]
  apply and_congr
  · simp only [hmemLocator]
    grind
  · generalize (locatorHeights (mainC.length - 1)).findSome? (fun h => (mainC[h]?).bind fun header =>
      server.headerChain.heightOf (header.hash H)) = found
    cases found with
    | none => simpa using List.ne_nil_of_length_pos hpos
    | some known => simp

end BlockSync
/-! A client with the genesis block, and a server with one more block. -/
namespace HeaderExample

lemma length_sha256 (data : Bytes) : (hashlib.sha256 data).length = 32 := Hashlib.length_padded _ data

lemma heightsFound_nodeWith (blocks : List (Bytes × BlockHeader)) :
    (nodeWith blocks).headerChain.HeightsFound := by
  intro blockHash height h
  cases h

lemma sized_nodeWith {blocks : List (Bytes × BlockHeader)}
    (h : ∀ row ∈ (nodeWith blocks).headerChain.rows.rows, row.2.header.Sized) :
    (nodeWith blocks).headerChain.Sized := by
  refine ⟨?_, fun height header hcached => by cases hcached⟩
  intro row hmem
  obtain ⟨r, hr, rfl⟩ := List.mem_map.1 hmem
  exact h r hr

lemma hasMain_genesis : genesisNode.HasMain hashlib [genesis] := by
  refine ⟨by decide, ?_, heightsFound_nodeWith _, sized_nodeWith ?_⟩
  · intro height header hheader
    match height with
    | 0 =>
      cases hheader
      exact ⟨entryAt 0 genesisKey genesis, ⟨genesis, []⟩, rowAt 0 genesis, by decide +kernel,
        by decide +kernel, by decide +kernel, rfl, by decide +kernel⟩
    | height + 1 => simp at hheader
  · unfold BlockHeader.Sized
    decide +kernel

lemma hasMain_child : childNode.HasMain hashlib [genesis, child] := by
  refine ⟨by decide, ?_, heightsFound_nodeWith _, sized_nodeWith ?_⟩
  · intro height header hheader
    match height with
    | 0 =>
      cases hheader
      exact ⟨entryAt 0 genesisKey genesis, ⟨genesis, []⟩, rowAt 0 genesis, by decide +kernel,
        by decide +kernel, by decide +kernel, rfl, by decide +kernel⟩
    | 1 =>
      cases hheader
      exact ⟨entryAt 1 childKey child, ⟨child, []⟩, rowAt 1 child, by decide +kernel,
        by decide +kernel, by decide +kernel, rfl, by decide +kernel⟩
    | height + 2 => simp at hheader
  · unfold BlockHeader.Sized
    decide +kernel

end HeaderExample

open HeaderExample in
theorem BlockSync.exchangeHeaders_child :
    BlockSync.exchangeHeaders hashlib genesisNode childNode =
        .ok ((BlockSync.followers hashlib [genesis, child]
          (BlockSync.buildLocator hashlib genesisNode)).map BlockHeader.serialize) ↔
      (∃ h ∈ BlockSync.locatorHeights ([genesis].length - 1), ∃ header tip,
        [genesis][h]? = some header ∧ [genesis, child].getLast? = some tip ∧
          header.hash hashlib = tip.hash hashlib) ∧
      ∃ known, (BlockSync.locatorHeights ([genesis].length - 1)).findSome?
        (fun h => ([genesis][h]?).bind fun header =>
          childNode.headerChain.heightOf (header.hash hashlib)) = some known ∧
        [genesis, child].length ≤ known + 1 :=
  BlockSync.exchangeHeaders_eq_followers_iff length_sha256 hasMain_genesis hasMain_child
    (List.cons_ne_nil _ _) rfl

open HeaderExample in
theorem BlockSync.child_header_not_read :
    genesisNode.HasMain hashlib [genesis] ∧ childNode.HasMain hashlib [genesis, child] ∧
      BlockSync.followers hashlib [genesis, child] (BlockSync.buildLocator hashlib genesisNode) =
        [child] ∧
      (BlockSync.exchangeHeaders hashlib genesisNode childNode).toOption = none :=
  ⟨hasMain_genesis, hasMain_child, by decide +kernel, by decide +kernel⟩

end BerzCoin
