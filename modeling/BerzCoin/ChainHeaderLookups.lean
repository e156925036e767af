import BerzCoin.ChainHeaders

/-! Calls of a `HeaderChain` in any order: whose header a lookup by hash gives. -/
namespace BerzCoin
namespace CachedHeaders

inductive Call
  | addHeader (header : BlockHeader) (height chainwork : ℕ)
  | getHeader (height : ℕ)
  | getHeaderByHash (blockHash : Bytes)
  | getHeight (blockHash : Bytes)

variable (H : Hashlib)

def after (chain : CachedHeaders) : Call → CachedHeaders
  | .addHeader header height chainwork => chain.addHeader H header height chainwork
  | .getHeader height => (chain.getHeader height).2
  | .getHeaderByHash blockHash => (chain.getHeaderByHash blockHash).2
  | .getHeight blockHash => (chain.getHeight blockHash).2

/-- The calls so far, the last one first; `allowed` is asked of the chain before each. -/
inductive Run (allowed : CachedHeaders → Call → Prop) (start : CachedHeaders) :
    List Call → CachedHeaders → Prop
  | start : Run allowed start [] start
  | step {calls : List Call} {chain : CachedHeaders} (call : Call) : Run allowed start calls chain →
      allowed chain call → Run allowed start (call :: calls) (chain.after H call)

/-- A header that is added meets no row of another hash at its height. -/
def Alone (chain : CachedHeaders) : Call → Prop
  | .addHeader header height _ =>
    ∀ k row, chain.rows.get? k = some row → row.height = height → k = header.hashHex H
  | .getHeader _ => True
  | .getHeaderByHash _ => True
  | .getHeight _ => True

/-- The rows as they are stored: under the hash of their header, one for each height. -/
structure OnePerHeight (rows : KeyedRows Bytes HeaderRow) : Prop where
  hash : ∀ k row, rows.get? k = some row → row.header.hashHex H = k
  height : ∀ k k' row row', rows.get? k = some row → rows.get? k' = some row' →
    row.height = row'.height → k = k'

/-- The caches agree with the rows. -/
structure Faithful (chain : CachedHeaders) : Prop where
  stored : OnePerHeight H chain.rows
  heights : ∀ k height, chain.heightCache.get? k = some height →
    ∃ row, chain.rows.get? k = some row ∧ row.height = height
  headers : ∀ k row header, chain.rows.get? k = some row →
    chain.headerCache.get? row.height = some header → header.hashHex H = k

namespace Faithful
variable {H} {chain : CachedHeaders}

lemma addHeader (h : chain.Faithful H) {header : BlockHeader} {height : ℕ} (chainwork : ℕ)
    (halone : ∀ k row, chain.rows.get? k = some row → row.height = height → k = header.hashHex H) :
    (chain.addHeader H header height chainwork).Faithful H := by
  refine ⟨⟨?_, ?_⟩, ?_, ?_⟩
  · intro k row hrow
    simp only [CachedHeaders.addHeader, KeyedRows.get?_insertOrReplace] at hrow
    split_ifs at hrow with hk
    · cases hrow
      exact hk.symm
    · exact h.stored.hash k row hrow
  · intro k k' row row' hrow hrow' hheight
    simp only [CachedHeaders.addHeader, KeyedRows.get?_insertOrReplace] at hrow hrow'
    split_ifs at hrow hrow' with hk hk' hk'
    · exact hk.trans hk'.symm
    · cases hrow
      exact hk.trans (halone k' row' hrow' hheight.symm).symm
    · cases hrow'
      exact (halone k row hrow hheight).trans hk'.symm
    · exact h.stored.height k k' row row' hrow hrow' hheight
  · intro k cached hcached
    simp only [CachedHeaders.addHeader, KeyedRows.get?_put, KeyedRows.get?_insertOrReplace] at hcached ⊢
    split_ifs at hcached ⊢ with hk
    · exact ⟨_, rfl, Option.some.inj hcached⟩
    · exact h.heights k cached hcached
  · intro k row found hrow hfound
    simp only [CachedHeaders.addHeader, KeyedRows.get?_put, KeyedRows.get?_insertOrReplace]
      at hrow hfound
    split_ifs at hrow hfound with hk hheight hheight
    · cases hfound
      exact hk.symm
    · cases hrow
      exact absurd rfl hheight
    · cases hfound
      exact (halone k row hrow hheight).symm
    · exact h.headers k row found hrow hfound

/-- A header of a row goes into the cache of headers. -/
lemma cache (h : chain.Faithful H) {k : Bytes} {row : HeaderRow} (hrow : chain.rows.get? k = some row) :
    { chain with headerCache := chain.headerCache.put row.height row.header }.Faithful H := by
  refine ⟨h.stored, h.heights, ?_⟩
  intro k' row' header hrow' hheader
  simp only [KeyedRows.get?_put] at hheader
  split_ifs at hheader with hheight
  · cases hheader
    rw [h.stored.height k' k row' row hrow' hrow hheight]
    exact h.stored.hash k row hrow
  · exact h.headers k' row' header hrow' hheader

/-- A height of a row goes into the cache of heights. -/
lemma cacheHeight (h : chain.Faithful H) {k : Bytes} {row : HeaderRow}
    (hrow : chain.rows.get? k = some row) :
    { chain with heightCache := chain.heightCache.put k row.height }.Faithful H := by
  refine ⟨h.stored, ?_, h.headers⟩
  intro k' height hheight
  simp only [KeyedRows.get?_put] at hheight
  split_ifs at hheight with hk
  · cases hheight
    exact ⟨row, hk ▸ hrow, rfl⟩
  · exact h.heights k' height hheight

lemma getHeader (h : chain.Faithful H) (height : ℕ) : (chain.getHeader height).2.Faithful H := by
  unfold CachedHeaders.getHeader
  split
  · exact h
  · split
    · exact h
    · rename_i row hmost
      obtain ⟨hmem, hheight⟩ := List.mem_filter.1 (mostWork_mem hmost)
      obtain ⟨r, hr, rfl⟩ := List.mem_map.1 hmem
      have hrow := KeyedRows.get?_of_mem_rows hr
      have hsame : r.2.height = height := by simpa using hheight
      subst hsame
      exact h.cache hrow

lemma getHeaderByHash (h : chain.Faithful H) (blockHash : Bytes) :
    (chain.getHeaderByHash blockHash).2.Faithful H := by
  unfold CachedHeaders.getHeaderByHash
  split
  · exact h.getHeader _
  · split
    · exact h
    · rename_i row hrow
      exact (h.cache hrow).cacheHeight hrow

lemma getHeight (h : chain.Faithful H) (blockHash : Bytes) :
    (chain.getHeight blockHash).2.Faithful H := by
  unfold CachedHeaders.getHeight
  split
  · exact h
  · split
    · exact h
    · rename_i row hrow
      exact h.cacheHeight hrow

/-- The step lemma. -/
lemma after (h : chain.Faithful H) {call : Call} (halone : Alone H chain call) :
    (chain.after H call).Faithful H := by
  cases call with
  | addHeader header height chainwork => exact h.addHeader chainwork halone
  | getHeader height => exact h.getHeader height
  | getHeaderByHash blockHash => exact h.getHeaderByHash blockHash
  | getHeight blockHash => exact h.getHeight blockHash

/-- A lookup by hash gives the header of the row, or the one that the cache has at its height. -/
lemma lookup (h : chain.Faithful H) {blockHash : Bytes} {header : BlockHeader}
    (hfound : (chain.getHeaderByHash blockHash).1 = some header) : header.hashHex H = blockHash := by
  unfold CachedHeaders.getHeaderByHash at hfound
  split at hfound
  · rename_i height hcached
    obtain ⟨row, hrow, rfl⟩ := h.heights blockHash height hcached
    unfold CachedHeaders.getHeader at hfound
    split at hfound
    · rename_i cached hheader
      cases hfound
      exact h.headers blockHash row header hrow hheader
    · split at hfound
      · cases hfound
      · rename_i other hmost
        cases hfound
        obtain ⟨hmem, hheight⟩ := List.mem_filter.1 (mostWork_mem hmost)
        obtain ⟨r, hr, rfl⟩ := List.mem_map.1 hmem
        have hother := KeyedRows.get?_of_mem_rows hr
        rw [h.stored.height blockHash r.1 row r.2 hrow hother 
          (of_decide_eq_true hheight).symm]
        exact h.stored.hash r.1 r.2 hother
  · split at hfound
    · cases hfound
    · rename_i row hrow
      cases hfound
      exact h.stored.hash blockHash row hrow

lemma heightsFound (h : chain.Faithful H) : chain.HeightsFound := by
  intro blockHash height hcached
  obtain ⟨row, hrow, hheight⟩ := h.heights blockHash height hcached
  exact .inr ⟨row, mem_rows_of_get? hrow, hheight⟩

end Faithful

variable {H}

/-- No call takes a row away. -/
lemma rows_after {chain : CachedHeaders} {call : Call} {k : Bytes} (h : chain.rows.get? k ≠ none) :
    (chain.after H call).rows.get? k ≠ none := by
  cases call with
  | addHeader header height chainwork =>
    simp only [after, addHeader, KeyedRows.get?_insertOrReplace]
    split_ifs
    · simp
    · exact h
  | getHeader height => rwa [after, getHeader_rows]
  | getHeaderByHash blockHash => rwa [after, getHeaderByHash_rows]
  | getHeight blockHash => rwa [after, getHeight_rows]

lemma Run.added {allowed : CachedHeaders → Call → Prop} {start chain : CachedHeaders}
    {calls : List Call} (h : Run H allowed start calls chain) {header : BlockHeader}
    {height chainwork : ℕ} (hmem : .addHeader header height chainwork ∈ calls) :
    chain.rows.get? (header.hashHex H) ≠ none := by
  induction h with
  | start => cases hmem
  | step call _ _ ih =>
    cases List.mem_cons.1 hmem with
    | inl hlast =>
      rw [← hlast]
      simp [after, addHeader]
    | inr hearlier => exact rows_after (ih hearlier)

/-- While each header is added at a height that no other hash has, a lookup by hash is right: a header
that it gives has the hash, and it gives none only for a hash that was not added. -/
theorem getHeaderByHash_faithful {rows : KeyedRows Bytes HeaderRow} (hrows : OnePerHeight H rows)
    {calls : List Call} {chain : CachedHeaders} (hrun : Run H (Alone H) { rows } calls chain)
    (blockHash : Bytes) :
    (∀ header, (chain.getHeaderByHash blockHash).1 = some header → header.hashHex H = blockHash) ∧
      ((chain.getHeaderByHash blockHash).1 = none → ∀ header height chainwork,
        .addHeader header height chainwork ∈ calls → header.hashHex H ≠ blockHash) := by
  have hfaithful : chain.Faithful H := by
    induction hrun with
    | start => exact ⟨hrows, by simp, by simp⟩
    | step call _ halone ih => exact ih.after halone
  constructor
  · intro header hfound
    exact hfaithful.lookup hfound
  · intro hnone header height chainwork hmem heq
    obtain ⟨row, hrow⟩ := Option.ne_none_iff_exists'.1 (hrun.added hmem)
    rw [heq] at hrow
    exact getHeaderByHash_ne_none hfaithful.heightsFound hrow hnone

/-! Two headers on one block. -/
namespace LookupExample
open BlockExample (blockA blockB hashlib)

def hashA : Bytes := blockA.header.hashHex hashlib

def withA : CachedHeaders := after hashlib {} (.addHeader blockA.header 1 2)

/-- The second header at the height of the first, and at the next. -/
def withBoth (height : ℕ) : CachedHeaders := after hashlib withA (.addHeader blockB.header height 2)

end LookupExample

open LookupExample BlockExample in
theorem getHeaderByHash_faithful_hashA : ((withBoth 2).getHeaderByHash hashA).1 = some blockA.header ∧
    blockA.header.hashHex hashlib = hashA := by
  have hstored : OnePerHeight hashlib (KeyedRows.empty : KeyedRows Bytes HeaderRow) :=
    ⟨by simp, by simp⟩
  have hA : Run hashlib (Alone hashlib) {} [.addHeader blockA.header 1 2] withA :=
    .step _ .start (by simp [Alone])
  have hB : Run hashlib (Alone hashlib) {} [.addHeader blockB.header 2 2, .addHeader blockA.header 1 2]
      (withBoth 2) := by
    apply Run.step _ hA
    intro k row hrow hheight
    simp only [withA, after, addHeader, KeyedRows.get?_insertOrReplace] at hrow
    split_ifs at hrow
    · cases hrow
      cases hheight
    · cases hrow
  have hfound : ((withBoth 2).getHeaderByHash hashA).1 = some blockA.header := by
    decide +kernel
  exact ⟨hfound, (getHeaderByHash_faithful hstored hB hashA).1 blockA.header hfound⟩

open LookupExample BlockExample in
/-- A lookup of the first header gives the second one. -/
theorem getHeaderByHash_other_header :
    Run hashlib (fun _ _ => True) {} [.addHeader blockB.header 1 2, .addHeader blockA.header 1 2] (withBoth 1) ∧
      ((withBoth 1).getHeaderByHash hashA).1 = some blockB.header ∧ blockB.header.hashHex hashlib ≠ hashA := by
  refine ⟨?_, by decide +kernel, by decide +kernel⟩
  have hA : Run hashlib (fun _ _ => True) {} [.addHeader blockA.header 1 2] withA := .step _ .start trivial
  exact .step _ hA trivial

end CachedHeaders
end BerzCoin
