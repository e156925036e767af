import BerzCoin.StorageBlocks

/-! `HeaderChain`: the rows of `block_headers` behind a cache of headers by height and a cache of
heights by block hash. -/
namespace BerzCoin

structure CachedHeaders where
  rows : KeyedRows Bytes HeaderRow := KeyedRows.empty
  headerCache : KeyedRows ℕ BlockHeader := KeyedRows.empty
  heightCache : KeyedRows Bytes ℕ := KeyedRows.empty

/-- `CAST(chainwork AS INTEGER)` of SQLite. -/
def HeaderRow.castChainwork (row : HeaderRow) : ℕ := min (row.chainwork.getD 0) (2 ^ 63 - 1)

/-- `ORDER BY CAST(chainwork AS INTEGER) DESC LIMIT 1`: the first row of most work. -/
def mostWork : List HeaderRow → Option HeaderRow
  | [] => none
  | row :: rest =>
    match mostWork rest with
    | none => some row
    | some other => if row.castChainwork < other.castChainwork then some other else some row

lemma mostWork_ne_none {row : HeaderRow} {rows : List HeaderRow} (h : row ∈ rows) :
    mostWork rows ≠ none := by
  cases rows with
  | nil => cases h
  | cons first rest =>
    rw [mostWork]
    split
    · simp
    · split_ifs <;> simp

lemma mostWork_mem {rows : List HeaderRow} {row : HeaderRow} (h : mostWork rows = some row) :
    row ∈ rows := by
  induction rows generalizing row with
  | nil => cases h
  | cons first rest ih =>
    rw [mostWork] at h
    cases hrest : mostWork rest with
    | none =>
      rw [hrest] at h
      cases h
      exact List.mem_cons_self
    | some other =>
      simp only [hrest] at h
      split_ifs at h
      · cases h
        exact List.mem_cons_of_mem _ (ih hrest)
      · cases h
        exact List.mem_cons_self

namespace CachedHeaders
variable (chain : CachedHeaders)

/-- `add_header`, with the row of its statement. -/
def addHeader (H : Hashlib) (header : BlockHeader) (height chainwork : ℕ) : CachedHeaders where
  rows := chain.rows.insertOrReplace (header.hashHex H)
    { height, header, chainwork := some chainwork, isValid := true, statusFlags := {.HEADER, .VALID} }
  headerCache := chain.headerCache.put height header
  heightCache := chain.heightCache.put (header.hashHex H) height

def rowsAt (height : ℕ) : List HeaderRow :=
  (chain.rows.rows.map Prod.snd).filter (·.height = height)

def getHeader (height : ℕ) : Option BlockHeader × CachedHeaders :=
  match chain.headerCache.get? height with
  | some header => (some header, chain)
  | none =>
    match mostWork (chain.rowsAt height) with
    | none => (none, chain)
    | some row =>
      (some row.header, { chain with headerCache := chain.headerCache.put height row.header })

def getHeaderByHash (blockHash : Bytes) : Option BlockHeader × CachedHeaders :=
  match chain.heightCache.get? blockHash with
  | some height => chain.getHeader height
  | none =>
    match chain.rows.get? blockHash with
    | none => (none, chain)
    | some row =>
      (some row.header,
        { chain with
          headerCache := chain.headerCache.put row.height row.header
          heightCache := chain.heightCache.put blockHash row.height })

def getHeight (blockHash : Bytes) : Option ℕ × CachedHeaders :=
  match chain.heightCache.get? blockHash with
  | some height => (some height, chain)
  | none =>
    match chain.rows.get? blockHash with
    | none => (none, chain)
    | some row =>
      (some row.height, { chain with heightCache := chain.heightCache.put blockHash row.height })

/-- The height that is known of a block, from the cache or from the rows. -/
def heightOf (blockHash : Bytes) : Option ℕ :=
  (chain.heightCache.get? blockHash).or ((chain.rows.get? blockHash).map HeaderRow.height)

/-- A cached height is one at which a header can be found. -/
def HeightsFound : Prop :=
  ∀ blockHash height, chain.heightCache.get? blockHash = some height →
    chain.headerCache.get? height ≠ none ∨ ∃ row ∈ chain.rows.rows.map Prod.snd, row.height = height

section lookups
variable {chain}

lemma getHeight_fst (blockHash : Bytes) : (chain.getHeight blockHash).1 = chain.heightOf blockHash := by
  unfold getHeight heightOf
  cases chain.heightCache.get? blockHash with
  | some height => rfl
  | none => cases chain.rows.get? blockHash <;> rfl

lemma getHeight_rows (blockHash : Bytes) : (chain.getHeight blockHash).2.rows = chain.rows := by
  unfold getHeight
  split
  · rfl
  · split <;> rfl

lemma heightOf_getHeight (blockHash other : Bytes) :
    (chain.getHeight blockHash).2.heightOf other = chain.heightOf other := by
  unfold getHeight
  cases hcache : chain.heightCache.get? blockHash with
  | some height => rfl
  | none =>
    cases hrow : chain.rows.get? blockHash with
    | none => rfl
    | some row =>
      simp only [heightOf, KeyedRows.get?_put]
      by_cases hother : other = blockHash
      · subst hother
        simp [hcache, hrow]
      · rw [if_neg hother]

lemma getHeader_rows (height : ℕ) : (chain.getHeader height).2.rows = chain.rows := by
  unfold getHeader
  split
  · rfl
  · split <;> rfl

lemma getHeaderByHash_rows (blockHash : Bytes) :
    (chain.getHeaderByHash blockHash).2.rows = chain.rows := by
  unfold getHeaderByHash
  split
  · exact getHeader_rows _
  · split <;> rfl

lemma mem_rows_of_get? {blockHash : Bytes} {row : HeaderRow}
    (h : chain.rows.get? blockHash = some row) : row ∈ chain.rows.rows.map Prod.snd :=
  List.mem_map_of_mem (KeyedRows.mem_rows_of_get? h)

/-- A header at each height of which a header is cached or stored. -/
lemma getHeader_ne_none {height : ℕ}
    (h : chain.headerCache.get? height ≠ none ∨
      ∃ row ∈ chain.rows.rows.map Prod.snd, row.height = height) :
    (chain.getHeader height).1 ≠ none := by
  unfold getHeader
  cases hcache : chain.headerCache.get? height with
  | some header => simp
  | none =>
    obtain ⟨row, hmem, hheight⟩ := h.resolve_left fun hne => hne hcache
    cases hmost : mostWork (chain.rowsAt height) with
    | none => exact absurd hmost (mostWork_ne_none (List.mem_filter.2 ⟨hmem, by simpa using hheight⟩))
    | some best => simp

lemma getHeaderByHash_ne_none {blockHash : Bytes} {row : HeaderRow} (hfound : chain.HeightsFound)
    (hrow : chain.rows.get? blockHash = some row) : (chain.getHeaderByHash blockHash).1 ≠ none := by
  unfold getHeaderByHash
  cases hcache : chain.heightCache.get? blockHash with
  | some height => exact getHeader_ne_none (hfound blockHash height hcache)
  | none => simp [hrow]

lemma HeightsFound.getHeight (hfound : chain.HeightsFound) (blockHash : Bytes) :
    (chain.getHeight blockHash).2.HeightsFound := by
  unfold CachedHeaders.getHeight
  split
  · exact hfound
  · split
    · exact hfound
    · rename_i row hrow
      intro other height hother
      simp only [KeyedRows.get?_put] at hother
      split_ifs at hother with heq
      · exact Or.inr ⟨row, mem_rows_of_get? hrow, by simpa using hother⟩
      · exact hfound other height hother

lemma HeightsFound.putHeader (hfound : chain.HeightsFound) (height : ℕ) (header : BlockHeader) :
    { chain with headerCache := chain.headerCache.put height header }.HeightsFound := by
  intro blockHash other hother
  cases hfound blockHash other hother with
  | inl hcached =>
    left
    rw [KeyedRows.get?_put]
    split_ifs
    · simp
    · exact hcached
  | inr hrow => exact Or.inr hrow

lemma HeightsFound.getHeader (hfound : chain.HeightsFound) (height : ℕ) :
    (chain.getHeader height).2.HeightsFound := by
  unfold CachedHeaders.getHeader
  split
  · exact hfound
  · split
    · exact hfound
    · exact hfound.putHeader _ _

lemma HeightsFound.getHeaderByHash (hfound : chain.HeightsFound) (blockHash : Bytes) :
    (chain.getHeaderByHash blockHash).2.HeightsFound := by
  unfold CachedHeaders.getHeaderByHash
  split
  · exact hfound.getHeader _
  · split
    · exact hfound
    · rename_i row hrow
      intro other height hother
      simp only [KeyedRows.get?_put] at hother
      split_ifs at hother with heq
      · exact Or.inr ⟨row, mem_rows_of_get? hrow, by simpa using hother⟩
      · exact hfound.putHeader row.height row.header other height hother

/-- The statement of `add_header` writes the row of `addHeader`. -/
lemma insertHeader_run (H : Hashlib) (header : BlockHeader) (height chainwork : ℕ) (tables : Tables) :
    (BlocksStore.insertHeader H header height chainwork {.HEADER, .VALID}).run tables =
      .ok ({ tables with
        blockHeaders :=
          (addHeader { chain with rows := tables.blockHeaders } H header height chainwork).rows }, ()) :=
  rfl

end lookups
end CachedHeaders
end BerzCoin
