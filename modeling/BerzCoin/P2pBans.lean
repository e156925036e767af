import BerzCoin.P2pCandidates
import BerzCoin.P2pInbound

/-! `BanManager`, and which addresses a ban covers. The list in the file is left out. `clock` is
`time.time()`. -/
namespace BerzCoin

structure BanEntry where
  address : String
  bannedUntil : ℕ
  reason : String
  bannedAt : ℕ
  permanent : Bool := false
  deriving DecidableEq, Repr

def BanEntry.isActive (clock : ℚ) (entry : BanEntry) : Bool :=
  entry.permanent || clock < entry.bannedUntil

/-- `_normalize_address`. -/
def normalizeAddress (address : String) : String :=
  let text := (strip address).toList
  if text = [] then ""
  else if text.head? = some '[' ∧ ']' ∈ text then String.ofList (text.tail.takeWhile (· ≠ ']'))
  else if 1 < text.count ':' then String.ofList text
  else if ':' ∈ text then String.ofList (text.reverse.dropWhile (· ≠ ':')).tail.reverse
  else String.ofList text

structure BanManager where
  bans : KeyedRows String BanEntry := .empty
  offenses : KeyedRows String (List ℚ) := .empty

namespace BanManager
variable (m : BanManager)

def ban (clock : ℚ) (address : String) (duration : ℤ) (reason : String) (permanent : Bool) :
    BanManager :=
  let normalized := normalizeAddress address
  if normalized = "" then m
  else
    let now := ⌊clock⌋₊
    { m with
      bans := m.bans.put normalized
        { address := normalized
          bannedUntil := if permanent then 0 else now + (max 1 duration).toNat
          reason
          bannedAt := now
          permanent } }

def isBanned (clock : ℚ) (address : String) : Bool × BanManager :=
  let normalized := normalizeAddress address
  match m.bans.get? normalized with
  | none => (false, m)
  | some entry =>
    if entry.isActive clock then (true, m)
    else (false, { m with bans := m.bans.delete normalized })

def cleanupExpired (clock : ℚ) : BanManager :=
  { m with bans := m.bans.deleteAll <|
      (m.bans.rows.filter fun r => !r.2.isActive clock).map Prod.fst }

/-- The number of offenses in the last hour decides on the ban, which normalizes the address again. -/
def recordOffense (clock : ℚ) (address offense : String) : Bool × BanManager :=
  let normalized := normalizeAddress address
  if normalized = "" then (false, m)
  else
    let recent := ((m.offenses.get? normalized).getD []).filter fun t => clock - t < 3600
    let times := recent ++ [clock]
    let m := { m with offenses := m.offenses.put normalized times }
    if 20 ≤ times.length then (true, m.ban clock normalized 86400 ("20 offenses: " ++ offense) true)
    else if 10 ≤ times.length then
      (true, m.ban clock normalized 86400 ("10 offenses: " ++ offense) false)
    else if 5 ≤ times.length then
      (true, m.ban clock normalized 3600 ("5 offenses: " ++ offense) false)
    else (false, m)

end BanManager

/-! Texts of addresses. -/

/-- A decimal number up to 255, without leading zeros. -/
def IsOctet (part : List Char) : Prop := ∃ n < 256, part = Nat.toDigits 10 n

def IsDottedQuad (text : List Char) : Prop :=
  ∃ a b c d, IsOctet a ∧ IsOctet b ∧ IsOctet c ∧ IsOctet d ∧
    text = a ++ '.' :: b ++ '.' :: c ++ '.' :: d

def isHextetDigit (c : Char) : Bool :=
  NodeAuthorityChain.isHexDigit c || (0x41 ≤ c.toNat && c.toNat ≤ 0x46)

def IsHextet (group : List Char) : Prop :=
  group ≠ [] ∧ group.length ≤ 4 ∧ ∀ c ∈ group, isHextetDigit c = true

/-- Groups between colons that make up so many groups of 16 bits; the last two may be a dotted quad. -/
inductive Groups : ℕ → List Char → Prop
  | hextet {group : List Char} : IsHextet group → Groups 1 group
  | quad {text : List Char} : IsDottedQuad text → Groups 2 text
  | cons {n : ℕ} {group rest : List Char} :
      IsHextet group → Groups n rest → Groups (n + 1) (group ++ ':' :: rest)

/-- Hextets between colons, which may be none. -/
inductive Hextets : ℕ → List Char → Prop
  | nil : Hextets 0 []
  | some {n : ℕ} {text : List Char} : Groups n text → '.' ∉ text → Hextets n text

/-- Eight groups, or fewer around `::`. -/
inductive IsSixteenBytes : List Char → Prop
  | full {text : List Char} : Groups 8 text → IsSixteenBytes text
  | compressed {n k : ℕ} {left right : List Char} :
      Hextets n left → Groups k right → n + k ≤ 7 → IsSixteenBytes (left ++ ':' :: ':' :: right)
  | trailing {n : ℕ} {left : List Char} :
      Hextets n left → n ≤ 7 → IsSixteenBytes (left ++ [':', ':'])

def IsIPv4 (host : String) : Prop := IsDottedQuad host.toList

/-- The address, and maybe the zone that it belongs to. -/
def IsIPv6 (host : String) : Prop :=
  IsSixteenBytes host.toList ∨ ∃ address zone, IsSixteenBytes address ∧
    (∀ c ∈ zone, isSpace c = false) ∧ host.toList = address ++ '%' :: zone

/-! What the texts have in common. -/

section texts
variable {n : ℕ} {text : List Char} {c : Char}

lemma hextetDigit_plain (h : isHextetDigit c = true) : isSpace c = false ∧ c ≠ ':' ∧ c ≠ '[' := by
  have hrange : ((0x30 ≤ c.toNat ∧ c.toNat ≤ 0x39) ∨ (0x61 ≤ c.toNat ∧ c.toNat ≤ 0x66)) ∨
      (0x41 ≤ c.toNat ∧ c.toNat ≤ 0x46) := by
    simpa [isHextetDigit, NodeAuthorityChain.isHexDigit] using h
  refine ⟨?_, ?_, ?_⟩
  · simp [isSpace]
    omega
  · rintro rfl
    simp at hrange
  · rintro rfl
    simp at hrange

lemma digit_of_mem_toDigits (h : c ∈ Nat.toDigits 10 n) : isHextetDigit c = true := by
  have hdigit := Nat.isDigit_of_mem_toDigits (by decide) (by decide) h
  simp only [Char.isDigit, Bool.and_eq_true, decide_eq_true_eq] at hdigit
  simp only [isHextetDigit, NodeAuthorityChain.isHexDigit, Bool.or_eq_true, Bool.and_eq_true,
    decide_eq_true_eq]
  exact .inl (.inl ⟨hdigit.1, hdigit.2⟩)

/-- Digits and dots. -/
lemma IsDottedQuad.chars (h : IsDottedQuad text) (hc : c ∈ text) :
    isHextetDigit c = true ∨ c = '.' := by
  obtain ⟨_, _, _, _, ⟨a, -, rfl⟩, ⟨b, -, rfl⟩, ⟨d, -, rfl⟩, ⟨e, -, rfl⟩, rfl⟩ := h
  simp only [List.append_assoc, List.cons_append, List.mem_append, List.mem_cons] at hc
  rcases hc with hc | rfl | hc | rfl | hc | rfl | hc
  · exact .inl (digit_of_mem_toDigits hc)
  · exact .inr rfl
  · exact .inl (digit_of_mem_toDigits hc)
  · exact .inr rfl
  · exact .inl (digit_of_mem_toDigits hc)
  · exact .inr rfl
  · exact .inl (digit_of_mem_toDigits hc)

lemma IsDottedQuad.head (h : IsDottedQuad text) : ∃ c rest, text = c :: rest ∧ isHextetDigit c = true := by
  obtain ⟨_, _, _, _, ⟨a, -, rfl⟩, -, -, -, rfl⟩ := h
  obtain ⟨c, rest, hdigits⟩ := List.exists_cons_of_ne_nil (Nat.toDigits_ne_nil (n := a) (b := 10))
  refine ⟨c, _, by rw [hdigits]; rfl, ?_⟩
  exact digit_of_mem_toDigits (hdigits ▸ List.mem_cons_self)

lemma Groups.chars (h : Groups n text) (hc : c ∈ text) :
    isHextetDigit c = true ∨ c = '.' ∨ c = ':' := by
  induction h with
  | hextet hgroup => exact .inl (hgroup.2.2 c hc)
  | quad hquad => exact (hquad.chars hc).imp_right .inl
  | cons hgroup _ ih =>
    rcases List.mem_append.1 hc with hc | hc
    · exact .inl (hgroup.2.2 c hc)
    · rcases List.mem_cons.1 hc with rfl | hc
      · exact .inr (.inr rfl)
      · exact ih hc

lemma Groups.head (h : Groups n text) : ∃ c rest, text = c :: rest ∧ isHextetDigit c = true := by
  have hhextet {group : List Char} (hgroup : IsHextet group) (tail : List Char) :
      ∃ c rest, group ++ tail = c :: rest ∧ isHextetDigit c = true := by
    obtain ⟨c, rest, rfl⟩ := List.exists_cons_of_ne_nil hgroup.1
    exact ⟨c, _, rfl, hgroup.2.2 c List.mem_cons_self⟩
  cases h with
  | hextet hgroup => simpa using hhextet hgroup []
  | quad hquad => exact hquad.head
  | cons hgroup _ => exact hhextet hgroup _

/-- A colon stands between two groups. -/
lemma Groups.colons (h : Groups n text) : n ≤ text.count ':' + 2 := by
  induction h with
  | hextet _ => omega
  | quad _ => omega
  | cons hgroup _ ih =>
    rw [List.count_append, List.count_cons_self]
    omega

lemma Hextets.chars (h : Hextets n text) (hc : c ∈ text) :
    isHextetDigit c = true ∨ c = '.' ∨ c = ':' := by
  cases h with
  | nil => cases hc
  | some hgroups _ => exact hgroups.chars hc

lemma IsSixteenBytes.chars (h : IsSixteenBytes text) (hc : c ∈ text) :
    isHextetDigit c = true ∨ c = '.' ∨ c = ':' := by
  cases h with
  | full hgroups => exact hgroups.chars hc
  | compressed hleft hright _ =>
    simp only [List.mem_append, List.mem_cons] at hc
    rcases hc with hc | rfl | rfl | hc
    · exact hleft.chars hc
    · exact .inr (.inr rfl)
    · exact .inr (.inr rfl)
    · exact hright.chars hc
  | trailing hleft _ =>
    simp only [List.mem_append, List.mem_cons, List.not_mem_nil, or_false] at hc
    rcases hc with hc | rfl | rfl
    · exact hleft.chars hc
    · exact .inr (.inr rfl)
    · exact .inr (.inr rfl)

lemma IsSixteenBytes.colons (h : IsSixteenBytes text) : 2 ≤ text.count ':' := by
  cases h with
  | full hgroups =>
    have hcolons := hgroups.colons
    omega
  | compressed _ _ _ =>
    rw [List.count_append, List.count_cons_self, List.count_cons_self]
    omega
  | trailing _ _ =>
    rw [List.count_append, List.count_cons_self, List.count_cons_self]
    omega

end texts

/-! The key of a host in the table of bans. -/

section keys
variable {host other : String} {p q : ℕ}

lemma colon_notMem_toDigits : ':' ∉ Nat.toDigits 10 p := fun h =>
  (hextetDigit_plain (digit_of_mem_toDigits h)).2.1 rfl

lemma toList_address (host : String) (p : ℕ) :
    (ConnPeer.address { host, port := p }).toList = host.toList ++ ':' :: Nat.toDigits 10 p := by
  simp [ConnPeer.address, Nat.toList_repr]

/-- Before the last colon. -/
lemma beforeLast_append {l digits : List Char} (h : ':' ∉ digits) :
    (((l ++ ':' :: digits).reverse.dropWhile (· ≠ ':')).tail).reverse = l := by
  have hdrop : (digits.reverse ++ ':' :: l.reverse).dropWhile (· ≠ ':') = ':' :: l.reverse := by
    rw [List.dropWhile_append_of_pos]
    · simp
    · intro c hc
      have hne : c ≠ ':' := fun hcolon => h (hcolon ▸ List.mem_reverse.1 hc)
      simpa using hne
  have hreverse : (l ++ ':' :: digits).reverse = digits.reverse ++ ':' :: l.reverse := by simp
  rw [hreverse, hdrop, List.tail_cons, List.reverse_reverse]

lemma address_inj : ConnPeer.address { host, port := p } = ConnPeer.address { host := other, port := q } ↔
    host = other ∧ p = q := by
  constructor
  · intro h
    have hlist := congrArg String.toList h
    rw [toList_address, toList_address] at hlist
    have hhost := congrArg (fun l : List Char => ((l.reverse.dropWhile (· ≠ ':')).tail).reverse) hlist
    simp only [beforeLast_append colon_notMem_toDigits] at hhost
    rw [hhost, List.append_cancel_left_eq, List.cons.injEq] at hlist
    have hport := congrArg (Nat.ofDigitChars 10 · 0) hlist.2
    simp only [Nat.ofDigitChars_ten_toDigits] at hport
    exact ⟨String.toList_inj.1 hhost, hport⟩
  · rintro ⟨rfl, rfl⟩
    rfl

/-- A host without white space, and no bracket in front of it. -/
def PlainHost (host : String) : Prop :=
  host.toList ≠ [] ∧ (∀ c ∈ host.toList, isSpace c = false) ∧ host.toList.head? ≠ some '['

lemma IsIPv4.plain (h : IsIPv4 host) : PlainHost host ∧ ':' ∉ host.toList := by
  have hchar (c : Char) (hc : c ∈ host.toList) : isSpace c = false ∧ c ≠ ':' ∧ c ≠ '[' := by
    rcases h.chars hc with hdigit | rfl
    · exact hextetDigit_plain hdigit
    · decide
  obtain ⟨c, rest, hlist, hdigit⟩ := h.head
  refine ⟨⟨by simp [hlist], fun c hc => (hchar c hc).1, ?_⟩, fun hcolon => (hchar _ hcolon).2.1 rfl⟩
  rw [hlist, List.head?_cons, Ne, Option.some.injEq]
  exact (hextetDigit_plain hdigit).2.2

lemma IsIPv6.plain (h : IsIPv6 host) : PlainHost host ∧ 2 ≤ host.toList.count ':' := by
  have hchar {text : List Char} (h : IsSixteenBytes text) (c : Char) (hc : c ∈ text) :
      isSpace c = false ∧ c ≠ '[' := by
    rcases h.chars hc with hdigit | rfl | rfl
    · exact ⟨(hextetDigit_plain hdigit).1, (hextetDigit_plain hdigit).2.2⟩
    · decide
    · decide
  have hnonempty {text : List Char} (h : IsSixteenBytes text) : text ≠ [] := by
    rintro rfl
    exact absurd h.colons (by decide)
  have hhead {text : List Char} (h : IsSixteenBytes text) (rest : List Char) :
      (text ++ rest).head? ≠ some '[' := by
    obtain ⟨c, tail, rfl⟩ := List.exists_cons_of_ne_nil (hnonempty h)
    simpa using (hchar h c List.mem_cons_self).2
  rcases h with h | ⟨text, zone, h, hzone, hlist⟩
  · exact ⟨⟨hnonempty h, fun c hc => (hchar h c hc).1, by simpa using hhead h []⟩, h.colons⟩
  · refine ⟨⟨by simp [hlist], ?_, hlist ▸ hhead h _⟩, ?_⟩
    · intro c hc
      rw [hlist, List.mem_append, List.mem_cons] at hc
      rcases hc with hc | rfl | hc
      · exact (hchar h c hc).1
      · decide
      · exact hzone c hc
    · rw [hlist, List.count_append]
      exact h.colons.trans (Nat.le_add_right _ _)

lemma PlainHost.normalizeAddress (h : PlainHost host) (p : ℕ) :
    normalizeAddress (ConnPeer.address { host, port := p }) =
      if ':' ∈ host.toList then ConnPeer.address { host, port := p } else host := by
  obtain ⟨hnonempty, hspace, hhead⟩ := h
  have hstrip : strip (ConnPeer.address { host, port := p }) =
      ConnPeer.address { host, port := p } := by
    apply strip_of_forall
    rw [toList_address]
    intro c hc
    rcases List.mem_append.1 hc with hc | hc
    · exact hspace c hc
    · rcases List.mem_cons.1 hc with rfl | hc
      · decide
      · exact (hextetDigit_plain (digit_of_mem_toDigits hc)).1
  have hfirst : (host.toList ++ ':' :: Nat.toDigits 10 p).head? ≠ some '[' := by
    obtain ⟨c, rest, hlist⟩ := List.exists_cons_of_ne_nil hnonempty
    rw [hlist] at hhead ⊢
    simpa using hhead
  have hcount : (host.toList ++ ':' :: Nat.toDigits 10 p).count ':' = host.toList.count ':' + 1 := by
    rw [List.count_append, List.count_cons_self, List.count_eq_zero.2 colon_notMem_toDigits]
  have hmem : ':' ∈ host.toList ++ ':' :: Nat.toDigits 10 p := by simp
  rw [BerzCoin.normalizeAddress, hstrip, toList_address]
  simp only [List.append_eq_nil_iff, reduceCtorEq, and_false, if_false, hfirst, false_and, hcount]
  by_cases hcolon : ':' ∈ host.toList
  · have hpos := List.count_pos_iff.2 hcolon
    rw [if_pos (by omega), if_pos hcolon, ← toList_address, String.ofList_toList]
  · have hzero := List.count_eq_zero.2 hcolon
    rw [if_neg (by omega), if_pos hmem, if_neg hcolon, beforeLast_append colon_notMem_toDigits,
      String.ofList_toList]

/-- The keys of two addresses are equal only for one host, and for one port if it has a colon. -/
lemma PlainHost.key_inj (h : PlainHost host) (h' : PlainHost other) :
    BerzCoin.normalizeAddress (ConnPeer.address { host, port := p }) =
        BerzCoin.normalizeAddress (ConnPeer.address { host := other, port := q }) ↔
      host = other ∧ (':' ∈ host.toList → p = q) := by
  have hcolon (host : String) (p : ℕ) : ':' ∈ (ConnPeer.address { host, port := p }).toList := by
    rw [toList_address]
    simp
  rw [h.normalizeAddress, h'.normalizeAddress]
  split_ifs with hhost hother hother
  · rw [address_inj]
    simp [hhost]
  · refine iff_of_false ?_ ?_
    · intro heq
      exact hother (heq ▸ hcolon host p)
    · rintro ⟨rfl, -⟩
      exact hother hhost
  · refine iff_of_false ?_ ?_
    · intro heq
      exact hhost (heq ▸ hcolon other q)
    · rintro ⟨rfl, -⟩
      exact hhost hother
  · simp [hhost]

end keys

/-! What a ban covers. -/

/-- The hosts of peers. -/
def IsHost (host : String) : Prop := IsIPv4 host ∨ IsIPv6 host

lemma IsHost.plain {host : String} (h : IsHost host) : PlainHost host := by
  rcases h with h | h
  · exact h.plain.1
  · exact h.plain.1

namespace BanManager

/-- A ban of a host at one port is a ban of it at the other, and of no other host. -/
structure Covers (host : String) (p q : ℕ) : Prop where
  banned : ∀ (m : BanManager) clock duration reason permanent clock',
    ((m.ban clock (ConnPeer.address { host, port := p }) duration reason permanent).isBanned clock'
        (ConnPeer.address { host, port := q })).1 = true ↔
      permanent = true ∨ clock' < (⌊clock⌋₊ + (max 1 duration).toNat : ℕ)
  others : ∀ (m : BanManager) clock duration reason permanent clock' other r,
    IsHost other → other ≠ host →
      ((m.ban clock (ConnPeer.address { host, port := p }) duration reason permanent).isBanned clock'
          (ConnPeer.address { host := other, port := r })).1 =
        (m.isBanned clock' (ConnPeer.address { host := other, port := r })).1

lemma isBanned_eq (m : BanManager) (clock : ℚ) (address : String) :
    (m.isBanned clock address).1 =
      ((m.bans.get? (normalizeAddress address)).map (BanEntry.isActive clock)).getD false := by
  simp only [isBanned]
  cases m.bans.get? (normalizeAddress address) with
  | none => rfl
  | some entry => cases h : entry.isActive clock <;> simp [h]

lemma get?_ban {address : String} (hkey : normalizeAddress address ≠ "") (m : BanManager) (clock : ℚ)
    (duration : ℤ) (reason : String) (permanent : Bool) (key : String) :
    (m.ban clock address duration reason permanent).bans.get? key =
      if key = normalizeAddress address then
        some ⟨normalizeAddress address,
          if permanent then 0 else ⌊clock⌋₊ + (max 1 duration).toNat, reason, ⌊clock⌋₊, permanent⟩
      else m.bans.get? key := by
  simp only [ban, hkey, if_false, KeyedRows.get?_put]

lemma key_ne_empty {host : String} (h : IsHost host) (p : ℕ) :
    normalizeAddress (ConnPeer.address { host, port := p }) ≠ "" := by
  rw [h.plain.normalizeAddress]
  split_ifs
  · intro hempty
    have hlist := congrArg String.toList hempty
    simp [toList_address] at hlist
  · intro hempty
    exact h.plain.1 (by simp [hempty])

/-- The key of an IPv6 host carries its port. -/
lemma not_covers {host : String} (h : IsIPv6 host) {p q : ℕ} (hports : p ≠ q) :
    ¬Covers host p q := by
  intro hcovers
  obtain ⟨hplain, hcolons⟩ := h.plain
  have hcolon : ':' ∈ host.toList := List.count_pos_iff.1 (by omega)
  have hother : ¬normalizeAddress (ConnPeer.address { host, port := q }) =
      normalizeAddress (ConnPeer.address { host, port := p }) := by
    rw [hplain.key_inj hplain]
    exact fun hsame => hports (hsame.2 hcolon).symm
  have hbanned := (hcovers.banned {} 0 0 "" true 0).2 (.inl rfl)
  rw [isBanned_eq, get?_ban (key_ne_empty (.inr h) p), if_neg hother] at hbanned
  cases hbanned

/-- A ban covers all ports of an IPv4 host, and one port of an IPv6 host. -/
theorem covers_iff {host : String} (h : IsHost host) (p q : ℕ) :
    Covers host p q ↔ IsIPv4 host ∨ p = q := by
  have hkey := key_ne_empty h p
  constructor
  · intro hcovers
    rw [or_iff_not_imp_left]
    intro hv4
    by_contra hports
    exact not_covers (h.resolve_left hv4) hports hcovers
  · intro hcases
    have hsame : normalizeAddress (ConnPeer.address { host, port := q }) =
        normalizeAddress (ConnPeer.address { host, port := p }) := by
      rw [h.plain.key_inj h.plain]
      refine ⟨rfl, fun hcolon => ?_⟩
      rcases hcases with hv4 | hports
      · exact (hv4.plain.2 hcolon).elim
      · exact hports.symm
    refine ⟨?_, ?_⟩
    · intro m clock duration reason permanent clock'
      rw [isBanned_eq, get?_ban hkey, if_pos hsame]
      cases permanent <;> simp [BanEntry.isActive]
    · intro m clock duration reason permanent clock' other r hhost hne
      have hother : ¬normalizeAddress (ConnPeer.address { host := other, port := r }) =
          normalizeAddress (ConnPeer.address { host, port := p }) := by
        rw [hhost.plain.key_inj h.plain]
        exact fun hsame => hne hsame.1
      rw [isBanned_eq, isBanned_eq, get?_ban hkey, if_neg hother]

lemma isIPv4_private : IsIPv4 "10.0.0.1" := by
  have hoctet {n : ℕ} (hn : n < 256) : IsOctet (Nat.toDigits 10 n) := ⟨n, hn, rfl⟩
  refine ⟨_, _, _, _, @hoctet 10 (by decide), @hoctet 0 (by decide), @hoctet 0 (by decide),
    @hoctet 1 (by decide), ?_⟩
  decide

theorem covers_iff_private : Covers "10.0.0.1" 8333 8334 :=
  (covers_iff (.inl isIPv4_private) 8333 8334).2 (.inl isIPv4_private)

/-- A banned peer comes back from another port. -/
theorem not_covers_otherPort : ¬Covers "2001:db8::1" 8333 8334 := by
  have hgroup (c : Char) (rest : List Char) (hlength : rest.length < 4)
      (hdigits : (c :: rest).all isHextetDigit) : IsHextet (c :: rest) :=
    ⟨by simp, hlength, by simpa using hdigits⟩
  have hleft : Hextets 2 ("2001".toList ++ ':' :: "db8".toList) :=
    .some (.cons (hgroup _ _ (by decide) rfl) (.hextet (hgroup _ _ (by decide) rfl))) (by decide)
  have hright : Groups 1 ['1'] := .hextet (hgroup _ _ (by decide) rfl)
  have hhost : IsIPv6 "2001:db8::1" := .inl (.compressed hleft hright (by decide))
  exact not_covers hhost (by decide)

end BanManager
end BerzCoin
