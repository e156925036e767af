import BerzCoin.MempoolPolicy
import BerzCoin.ScriptPushes

/-! Push-only scripts: the scanners of the policy beside the parser, and the standard encoding of a
list of items. -/
namespace BerzCoin
open Script MempoolPolicy

/-- An opcode that pushes an item, with the bytes that stand between it and the next opcode. -/
inductive Push : UInt8 → Bytes → Bytes → Prop
  | empty : Push 0x00 [] []
  | direct {opcode : UInt8} {item : Bytes} (hdirect : IsDirectPush opcode)
      (hlength : item.length = opcode.toNat) : Push opcode item item
  | sized {opcode : UInt8} {width : ℕ} {item : Bytes}
      (hform : (opcode, width) ∈ [((0x4c : UInt8), 1), (0x4d, 2), (0x4e, 4)])
      (hlength : item.length < 256 ^ width) : Push opcode item (leBytes width item.length ++ item)
  | negative : Push 0x4f [0x81] []
  | small {opcode : UInt8} (hlow : 0x51 ≤ opcode) (hhigh : opcode ≤ 0x60) :
      Push opcode [opcode - 0x50] []

section parser

lemma takePush_eq_ok {size : ℕ} {script item rest : Bytes} {message : String} :
    takePush size script message = .ok (item, rest) ↔ script = item ++ rest ∧ item.length = size := by
  unfold takePush
  constructor
  · intro h
    split_ifs at h with hshort
    simp only [Except.ok.injEq, Prod.mk.injEq] at h
    obtain ⟨rfl, rfl⟩ := h
    constructor
    · exact (List.take_append_drop size script).symm
    · rw [List.length_take]
      omega
  · rintro ⟨rfl, rfl⟩
    rw [if_neg (by simp), List.take_left, List.drop_left]

lemma takeSized_eq_ok {width : ℕ} {rest item rest' : Bytes} (missing truncated : String) :
    (do if rest.length < width then throw (.valueError missing)
        takePush (leNat (rest.take width)) (rest.drop width) truncated) =
        Except.ok (ε := PyError) (item, rest') ↔
      item.length < 256 ^ width ∧ rest = leBytes width item.length ++ item ++ rest' := by
  constructor
  · intro h
    split_ifs at h with hshort
    · cases h
    obtain ⟨hdrop, hlength⟩ := takePush_eq_ok.1 h
    have htake : (rest.take width).length = width := by
      rw [List.length_take]
      omega
    have hheader := leBytes_leNat (rest.take width)
    rw [htake, ← hlength] at hheader
    constructor
    · have hlt := leNat_lt (rest.take width)
      rwa [htake, ← hlength] at hlt
    · rw [hheader, List.append_assoc, ← hdrop, List.take_append_drop]
  · rintro ⟨hlength, rfl⟩
    rw [if_neg (by simp), List.append_assoc, List.take_left' (leBytes_length _ _),
      List.drop_left' (leBytes_length _ _), leNat_leBytes_of_lt hlength]
    exact takePush_eq_ok.2 ⟨rfl, rfl⟩

/-- What the parser reads as one item. -/
lemma parsePushOnlyItem_eq_ok {opcode : UInt8} {rest item rest' : Bytes} :
    parsePushOnlyItem opcode rest = .ok (item, rest') ↔
      ∃ body, Push opcode item body ∧ rest = body ++ rest' := by
  constructor
  · intro h
    unfold parsePushOnlyItem at h
    dsimp only at h
    by_cases hempty : opcode = 0
    · rw [if_pos hempty] at h
      cases h
      exact ⟨[], hempty ▸ .empty, rfl⟩
    rw [if_neg hempty] at h
    by_cases hdirect : opcode.toNat ≤ 75
    · rw [if_pos hdirect] at h
      obtain ⟨hrest, hlength⟩ := takePush_eq_ok.1 h
      have hpos : opcode.toNat ≠ 0 := fun hzero => hempty (UInt8.toNat_inj.1 hzero)
      exact ⟨item, .direct ⟨by omega, hdirect⟩ hlength, hrest⟩
    rw [if_neg hdirect] at h
    have hsized {width : ℕ} {missing truncated : String}
        (hform : (opcode, width) ∈ [((0x4c : UInt8), 1), (0x4d, 2), (0x4e, 4)])
        (h : (do if rest.length < width then throw (.valueError missing)
                 takePush (leNat (rest.take width)) (rest.drop width) truncated) =
          Except.ok (ε := PyError) (item, rest')) :
        ∃ body, Push opcode item body ∧ rest = body ++ rest' := by
      obtain ⟨hlength, hrest⟩ := (takeSized_eq_ok missing truncated).1 h
      exact ⟨_, .sized hform hlength, hrest⟩
    by_cases h1 : opcode = 0x4c
    · rw [if_pos h1] at h
      exact hsized (by simp [h1]) h
    rw [if_neg h1] at h
    by_cases h2 : opcode = 0x4d
    · rw [if_pos h2] at h
      exact hsized (by simp [h2]) h
    rw [if_neg h2] at h
    by_cases h4 : opcode = 0x4e
    · rw [if_pos h4] at h
      exact hsized (by simp [h4]) h
    rw [if_neg h4] at h
    split_ifs at h with hnegative hsmall
    · cases h
      exact ⟨[], hnegative ▸ .negative, rfl⟩
    · cases h
      exact ⟨[], .small hsmall.1 hsmall.2, rfl⟩
  · rintro ⟨body, hpush, rfl⟩
    unfold parsePushOnlyItem
    dsimp only
    cases hpush with
    | empty => rfl
    | direct hdirect hlength =>
      have hempty : opcode ≠ 0 := by
        rintro rfl
        exact absurd hdirect.1 (by decide)
      rw [if_neg hempty, if_pos hdirect.2]
      exact takePush_eq_ok.2 ⟨rfl, hlength⟩
    | sized hform hlength =>
      simp only [List.mem_cons, Prod.mk.injEq, List.not_mem_nil, or_false] at hform
      rcases hform with ⟨rfl, rfl⟩ | ⟨rfl, rfl⟩ | ⟨rfl, rfl⟩
      · rw [if_neg (by decide), if_neg (by decide), if_pos rfl]
        exact (takeSized_eq_ok _ _).2 ⟨hlength, rfl⟩
      · rw [if_neg (by decide), if_neg (by decide), if_neg (by decide), if_pos rfl]
        exact (takeSized_eq_ok _ _).2 ⟨hlength, rfl⟩
      · rw [if_neg (by decide), if_neg (by decide), if_neg (by decide), if_neg (by decide), if_pos rfl]
        exact (takeSized_eq_ok _ _).2 ⟨hlength, rfl⟩
    | negative => rfl
    | small hlow hhigh =>
      have hbounds : 0x51 ≤ opcode.toNat ∧ opcode.toNat ≤ 0x60 :=
        ⟨UInt8.le_iff_toNat_le.1 hlow, UInt8.le_iff_toNat_le.1 hhigh⟩
      have hne (b : UInt8) (hb : b.toNat < 0x51) : opcode ≠ b := by
        rintro rfl
        omega
      rw [if_neg (hne 0 (by decide)), if_neg (by omega), if_neg (hne 0x4c (by decide)),
        if_neg (hne 0x4d (by decide)), if_neg (hne 0x4e (by decide)), if_neg (hne 0x4f (by decide)),
        if_pos ⟨hlow, hhigh⟩]
      rfl

end parser

/-- The scanners ask for a property of every item that is not a small number. -/
def Permitted (allowed : UInt8 → Bytes → Bool) (opcode : UInt8) (item : Bytes) : Bool :=
  0x4e < opcode || allowed opcode item

section scanner
variable {allowed : UInt8 → Bytes → Bool}

/-- What a scanner does with an item that was read. -/
def scanNext (allowed : UInt8 → Bytes → Bool) (fuel : ℕ) (opcode : UInt8) :
    Except PyError (Bytes × Bytes) → Bool
  | .ok (item, rest) => Permitted allowed opcode item && scanPushes allowed fuel rest
  | .error _ => false

lemma scanNext_takePush {opcode : UInt8} (hopcode : opcode ≤ 0x4e) (fuel size : ℕ) (script : Bytes)
    (message : String) :
    scanNext allowed fuel opcode (takePush size script message) =
      (decide (size ≤ script.length) && allowed opcode (script.take size) &&
        scanPushes allowed fuel (script.drop size)) := by
  have hpermitted (item : Bytes) : Permitted allowed opcode item = allowed opcode item := by
    rw [Permitted, decide_eq_false (UInt8.not_lt.2 hopcode), Bool.false_or]
  unfold takePush
  split_ifs with hshort
  · rw [decide_eq_false (by omega)]
    rfl
  · rw [decide_eq_true (by omega), Bool.true_and, ← hpermitted]
    rfl

lemma scanNext_takeSized {opcode : UInt8} (hopcode : opcode ≤ 0x4e) (fuel width : ℕ) (rest : Bytes)
    (missing truncated : String) :
    scanNext allowed fuel opcode
        (do if rest.length < width then throw (.valueError missing)
            takePush (leNat (rest.take width)) (rest.drop width) truncated) =
      (decide (width ≤ rest.length) &&
        decide (leNat (rest.take width) ≤ (rest.drop width).length) &&
        allowed opcode (slice rest width (leNat (rest.take width))) &&
        scanPushes allowed fuel ((rest.drop width).drop (leNat (rest.take width)))) := by
  split_ifs with hshort
  · rw [decide_eq_false (by omega)]
    rfl
  · rw [decide_eq_true (by omega), Bool.true_and]
    exact scanNext_takePush hopcode fuel _ _ _

/-- One turn of a scanner reads what the parser reads. -/
lemma scanPushes_cons (fuel : ℕ) (opcode : UInt8) (rest : Bytes) :
    scanPushes allowed (fuel + 1) (opcode :: rest) =
      scanNext allowed fuel opcode (parsePushOnlyItem opcode rest) := by
  unfold scanPushes parsePushOnlyItem
  dsimp only
  by_cases hempty : opcode = 0
  · subst hempty
    simp [scanNext, Permitted, slice]
  rw [if_neg hempty]
  by_cases hdirect : opcode.toNat ≤ 75
  · have hle : opcode ≤ 0x4b := UInt8.le_iff_toNat_le.2 hdirect
    have hopcode : opcode ≤ 0x4e := UInt8.le_trans hle (by decide)
    rw [if_pos hdirect, if_pos hle, scanNext_takePush hopcode]
    simp [slice]
  have hnot : ¬ opcode ≤ 0x4b := fun hle => hdirect (UInt8.le_iff_toNat_le.1 hle)
  rw [if_neg hdirect, if_neg hnot]
  by_cases h1 : opcode = 0x4c
  · rw [if_pos h1, if_pos h1, scanNext_takeSized (by rw [h1]; decide)]
  rw [if_neg h1, if_neg h1]
  by_cases h2 : opcode = 0x4d
  · rw [if_pos h2, if_pos h2, scanNext_takeSized (by rw [h2]; decide)]
  rw [if_neg h2, if_neg h2]
  by_cases h4 : opcode = 0x4e
  · rw [if_pos h4, if_pos h4, scanNext_takeSized (by rw [h4]; decide)]
  rw [if_neg h4, if_neg h4]
  have hlarge : 0x4e < opcode := by
    have hne (b : UInt8) (hb : opcode ≠ b) : opcode.toNat ≠ b.toNat :=
      fun heq => hb (UInt8.toNat_inj.1 heq)
    have hne1 : opcode.toNat ≠ 0x4c := hne _ h1
    have hne2 : opcode.toNat ≠ 0x4d := hne _ h2
    have hne4 : opcode.toNat ≠ 0x4e := hne _ h4
    apply UInt8.lt_iff_toNat_lt.2
    change 0x4e < opcode.toNat
    omega
  by_cases hnegative : opcode = 0x4f
  · rw [if_pos (Or.inl hnegative), if_pos hnegative]
    simp [scanNext, Permitted, hlarge]
  · rw [if_neg hnegative]
    by_cases hsmall : 0x51 ≤ opcode ∧ opcode ≤ 0x60
    · rw [if_pos (Or.inr hsmall), if_pos hsmall]
      simp [scanNext, Permitted, hlarge]
    · rw [if_neg (by tauto), if_neg hsmall]
      rfl

end scanner

lemma push_rest_length {opcode : UInt8} {rest item rest' : Bytes}
    (h : parsePushOnlyItem opcode rest = .ok (item, rest')) : rest'.length ≤ rest.length := by
  obtain ⟨body, -, rfl⟩ := parsePushOnlyItem_eq_ok.1 h
  simp

/-- A scanner that permits every item accepts what the parser parses. -/
lemma scanPushes_iff_parses {fuel : ℕ} {script : Bytes} (hfuel : script.length ≤ fuel) :
    scanPushes (fun _ _ => true) fuel script = true ↔
      ∃ items, parsePushOnlyLoop fuel script = .ok items := by
  induction fuel generalizing script with
  | zero =>
    obtain rfl := List.length_eq_zero_iff.1 (Nat.le_zero.1 hfuel)
    exact iff_of_true rfl ⟨[], rfl⟩
  | succ fuel ih =>
    cases script with
    | nil => exact iff_of_true rfl ⟨[], rfl⟩
    | cons opcode rest =>
      rw [scanPushes_cons, parsePushOnlyLoop]
      cases hitem : parsePushOnlyItem opcode rest with
      | error e =>
        apply iff_of_false
        · simp [scanNext]
        · rintro ⟨items, hitems⟩
          cases hitems
      | ok read =>
        obtain ⟨item, rest'⟩ := read
        have hle := push_rest_length hitem
        rw [List.length_cons] at hfuel
        have hnext := @ih rest' (by omega)
        simp only [scanNext, Permitted, Bool.or_true, Bool.true_and, hnext]
        constructor
        · rintro ⟨items, hitems⟩
          refine ⟨item :: items, ?_⟩
          simp [bind, Except.bind, hitems, pure, Except.pure]
        · rintro ⟨items, hitems⟩
          obtain ⟨_, hread, hitems⟩ := except_bind_eq_ok hitems
          cases hread
          obtain ⟨tail, htail, -⟩ := except_bind_eq_ok hitems
          exact ⟨tail, htail⟩

theorem isPushOnly_iff_parses (script : Bytes) :
    isPushOnly script = true ↔ ∃ items, parsePushOnlyItems script = .ok items :=
  scanPushes_iff_parses (le_refl script.length)

section encoding

/-- The shortest push of an item; `[0x00]` has none that the policy takes. -/
def encodePush (item : Bytes) : Bytes :=
  match item with
  | [] => [0x00]
  | [value] =>
    if value = 0x81 then [0x4f]
    else if 0x01 ≤ value ∧ value ≤ 0x10 then [0x50 + value]
    else [0x01, value]
  | _ :: _ :: _ =>
    if item.length ≤ 75 then UInt8.ofNat item.length :: item
    else if item.length < 2 ^ 8 then 0x4c :: (leBytes 1 item.length ++ item)
    else if item.length < 2 ^ 16 then 0x4d :: (leBytes 2 item.length ++ item)
    else 0x4e :: (leBytes 4 item.length ++ item)

lemma encodePush_one (value : UInt8) :
    encodePush [value] =
      if value = 0x81 then [0x4f]
      else if 0x01 ≤ value ∧ value ≤ 0x10 then [0x50 + value]
      else [0x01, value] := rfl

lemma encodePush_long {item : Bytes} (h : 2 ≤ item.length) :
    encodePush item =
      if item.length ≤ 75 then UInt8.ofNat item.length :: item
      else if item.length < 2 ^ 8 then 0x4c :: (leBytes 1 item.length ++ item)
      else if item.length < 2 ^ 16 then 0x4d :: (leBytes 2 item.length ++ item)
      else 0x4e :: (leBytes 4 item.length ++ item) := by
  rcases item with _ | ⟨value, _ | ⟨value', item⟩⟩
  · simp at h
  · simp at h
  · rfl

lemma encodePush_small {opcode : UInt8} (hlow : 0x51 ≤ opcode) (hhigh : opcode ≤ 0x60) :
    opcode - 0x50 ≠ 0 ∧ encodePush [opcode - 0x50] = [opcode] := by
  have hlow' : 0x51 ≤ opcode.toNat := UInt8.le_iff_toNat_le.1 hlow
  have hhigh' : opcode.toNat ≤ 0x60 := UInt8.le_iff_toNat_le.1 hhigh
  have hvalue : (opcode - 0x50).toNat = opcode.toNat - 0x50 :=
    UInt8.toNat_sub_of_le opcode 0x50 (UInt8.le_trans (by decide) hlow)
  have hne (b : UInt8) (hb : opcode.toNat - 0x50 ≠ b.toNat) : opcode - 0x50 ≠ b := by
    intro heq
    rw [← hvalue, heq] at hb
    exact hb rfl
  have hadd : 0x50 + (opcode - 0x50) = opcode := by
    apply UInt8.toNat_inj.1
    rw [UInt8.toNat_add, hvalue]
    change (0x50 + (opcode.toNat - 0x50)) % 2 ^ 8 = opcode.toNat
    omega
  have hrange : 0x01 ≤ opcode - 0x50 ∧ opcode - 0x50 ≤ 0x10 := by
    rw [UInt8.le_iff_toNat_le, UInt8.le_iff_toNat_le, hvalue]
    change 1 ≤ opcode.toNat - 0x50 ∧ opcode.toNat - 0x50 ≤ 16
    omega
  constructor
  · exact hne 0 (by change opcode.toNat - 0x50 ≠ 0; omega)
  · rw [encodePush, if_neg (hne 0x81 (by change opcode.toNat - 0x50 ≠ 0x81; omega)), if_pos hrange,
      hadd]

/-- A direct push of one byte is minimal where no opcode pushes the byte. -/
lemma permitted_one (value : UInt8) :
    Permitted isMinimal 0x01 [value] = true ↔ 0x10 < value ∧ value ≠ 0x81 := by
  simp [Permitted, isMinimal]

lemma permitted_direct {opcode : UInt8} (hlow : 2 ≤ opcode.toNat) (hhigh : opcode.toNat ≤ 75)
    (item : Bytes) : Permitted isMinimal opcode item = true := by
  have hne (b : UInt8) (hb : b.toNat < 2 ∨ 75 < b.toNat) : opcode ≠ b := by
    rintro rfl
    omega
  rw [Permitted, isMinimal, if_neg (hne 0x01 (by decide)), if_neg (hne 0x4c (by decide)),
    if_neg (hne 0x4d (by decide)), if_neg (hne 0x4e (by decide)), Bool.or_true]

/-- A minimal push is the encoding of its item. -/
lemma encodePush_of_push {opcode : UInt8} {item body : Bytes} (h : Push opcode item body)
    (hminimal : Permitted isMinimal opcode item = true) :
    item ≠ [0x00] ∧ encodePush item = opcode :: body := by
  cases h with
  | empty => exact ⟨by decide, rfl⟩
  | direct hdirect hlength =>
    obtain ⟨hlow, hhigh⟩ := hdirect
    by_cases hone : item.length = 1
    · obtain ⟨value, rfl⟩ := List.length_eq_one_iff.1 hone
      obtain rfl : opcode = 0x01 := UInt8.toNat_inj.1 (by rw [← hlength]; rfl)
      obtain ⟨hlarge, hvalue⟩ := (permitted_one value).1 hminimal
      have hnot : ¬ (0x01 ≤ value ∧ value ≤ 0x10) := fun hsmall => UInt8.not_lt.2 hsmall.2 hlarge
      constructor
      · intro heq
        cases heq
        exact absurd hlarge (by decide)
      · rw [encodePush, if_neg hvalue, if_neg hnot]
    · have hlong : 2 ≤ item.length := by omega
      constructor
      · rintro rfl
        exact hone rfl
      · rw [encodePush_long hlong, if_pos (by omega), hlength, UInt8.ofNat_toNat]
  | sized hform hlength =>
    simp only [List.mem_cons, Prod.mk.injEq, List.not_mem_nil, or_false] at hform
    have hitem (hlong : 2 ≤ item.length) : item ≠ [0x00] := by
      rintro rfl
      simp at hlong
    rcases hform with ⟨rfl, rfl⟩ | ⟨rfl, rfl⟩ | ⟨rfl, rfl⟩
    · have hmin : 0x4c ≤ item.length := by simpa [Permitted, isMinimal] using hminimal
      refine ⟨hitem (by omega), ?_⟩
      rw [encodePush_long (by omega), if_neg (by omega), if_pos (by omega)]
    · have hmin : 0x100 ≤ item.length := by simpa [Permitted, isMinimal] using hminimal
      refine ⟨hitem (by omega), ?_⟩
      rw [encodePush_long (by omega), if_neg (by omega), if_neg (by omega), if_pos (by omega)]
    · have hmin : 0x10000 ≤ item.length := by simpa [Permitted, isMinimal] using hminimal
      refine ⟨hitem (by omega), ?_⟩
      rw [encodePush_long (by omega), if_neg (by omega), if_neg (by omega), if_neg (by omega)]
  | negative => exact ⟨by decide, rfl⟩
  | small hlow hhigh =>
    obtain ⟨hne, hencode⟩ := encodePush_small hlow hhigh
    exact ⟨by simpa using hne, hencode⟩

/-- The encoding of a single byte. -/
lemma push_of_encodePush_one {value : UInt8} (hne : value ≠ 0) :
    ∃ opcode body, encodePush [value] = opcode :: body ∧ Push opcode [value] body ∧
      Permitted isMinimal opcode [value] = true := by
  rw [encodePush_one]
  split_ifs with hvalue hsmall
  · exact ⟨_, _, rfl, hvalue ▸ .negative, rfl⟩
  · have hlow : 1 ≤ value.toNat := UInt8.le_iff_toNat_le.1 hsmall.1
    have hhigh : value.toNat ≤ 16 := UInt8.le_iff_toNat_le.1 hsmall.2
    have hopcode : (0x50 + value).toNat = 0x50 + value.toNat := by
      rw [UInt8.toNat_add]
      change (0x50 + value.toNat) % 2 ^ 8 = _
      omega
    have hitem : 0x50 + value - 0x50 = value := by
      rw [UInt8.add_comm, UInt8.add_sub_cancel]
    have hpush : Push (0x50 + value) [0x50 + value - 0x50] [] := by
      apply Push.small
      · rw [UInt8.le_iff_toNat_le, hopcode]
        change 0x51 ≤ 0x50 + value.toNat
        omega
      · rw [UInt8.le_iff_toNat_le, hopcode]
        change 0x50 + value.toNat ≤ 0x60
        omega
    rw [hitem] at hpush
    have hlarge : 0x4e < 0x50 + value := by
      rw [UInt8.lt_iff_toNat_lt, hopcode]
      change 0x4e < 0x50 + value.toNat
      omega
    exact ⟨_, _, rfl, hpush, by rw [Permitted, decide_eq_true hlarge, Bool.true_or]⟩
  · have hpos : value.toNat ≠ 0 := fun hzero => hne (UInt8.toNat_inj.1 hzero)
    have hlarge : 0x10 < value := by
      rw [UInt8.le_iff_toNat_le, UInt8.le_iff_toNat_le] at hsmall
      change ¬ (1 ≤ value.toNat ∧ value.toNat ≤ 16) at hsmall
      apply UInt8.lt_iff_toNat_lt.2
      change 16 < value.toNat
      omega
    exact ⟨_, _, rfl, .direct (by decide) rfl, (permitted_one value).2 ⟨hlarge, hvalue⟩⟩

/-- The encoding of an item is a minimal push of it. -/
lemma push_of_encodePush {item : Bytes} (hne : item ≠ [0x00]) (hlength : item.length < 2 ^ 32) :
    ∃ opcode body, encodePush item = opcode :: body ∧ Push opcode item body ∧
      Permitted isMinimal opcode item = true := by
  by_cases hlong : 2 ≤ item.length
  · rw [encodePush_long hlong]
    split_ifs with hdirect hbyte hword
    · have hopcode : (UInt8.ofNat item.length).toNat = item.length := by
        rw [UInt8.toNat_ofNat']
        omega
      refine ⟨_, _, rfl, .direct ⟨by omega, by omega⟩ hopcode.symm, ?_⟩
      exact permitted_direct (by omega) (by omega) item
    · refine ⟨_, _, rfl, .sized (by simp) (by omega), ?_⟩
      simp [Permitted, isMinimal]
      omega
    · refine ⟨_, _, rfl, .sized (by simp) (by omega), ?_⟩
      simp [Permitted, isMinimal]
      omega
    · refine ⟨_, _, rfl, .sized (by simp) (by omega), ?_⟩
      simp [Permitted, isMinimal]
      omega
  · rcases item with _ | ⟨value, _ | ⟨value', item⟩⟩
    · exact ⟨_, _, rfl, .empty, rfl⟩
    · exact push_of_encodePush_one (by simpa using hne)
    · simp at hlong

lemma encodePush_ne_nil (item : Bytes) : encodePush item ≠ [] := by
  unfold encodePush
  split
  · exact List.cons_ne_nil _ _
  · split_ifs <;> exact List.cons_ne_nil _ _
  · split_ifs <;> exact List.cons_ne_nil _ _

lemma standardPushes_nil (fuel : ℕ) (items : List Bytes) :
    scanPushes isMinimal fuel [] = true ∧ parsePushOnlyLoop fuel [] = .ok items ↔
      [0x00] ∉ items ∧ [] = items.flatMap encodePush := by
  have hscan : scanPushes isMinimal fuel [] = true := by cases fuel <;> rfl
  have hparse : parsePushOnlyLoop fuel [] = .ok [] := by cases fuel <;> rfl
  rw [hparse]
  cases items with
  | nil => exact iff_of_true ⟨hscan, rfl⟩ ⟨List.not_mem_nil, rfl⟩
  | cons item items =>
    apply iff_of_false
    · rintro ⟨-, h⟩
      cases h
    · rintro ⟨-, h⟩
      exact encodePush_ne_nil item (List.append_eq_nil_iff.1 h.symm).1

/-- The scripts of minimal pushes that parse to a list are the concatenated encodings of its
items. -/
lemma standardPushes_iff {fuel : ℕ} {script : Bytes} {items : List Bytes}
    (hfuel : script.length ≤ fuel) (hlength : ∀ item ∈ items, item.length < 2 ^ 32) :
    scanPushes isMinimal fuel script = true ∧ parsePushOnlyLoop fuel script = .ok items ↔
      [0x00] ∉ items ∧ script = items.flatMap encodePush := by
  induction fuel generalizing script items with
  | zero =>
    obtain rfl := List.length_eq_zero_iff.1 (Nat.le_zero.1 hfuel)
    exact standardPushes_nil 0 items
  | succ fuel ih =>
    cases script with
    | nil => exact standardPushes_nil (fuel + 1) items
    | cons opcode rest =>
      rw [List.length_cons] at hfuel
      rw [scanPushes_cons, parsePushOnlyLoop]
      constructor
      · rintro ⟨hscan, hparse⟩
        obtain ⟨⟨item, rest'⟩, hitem, hparse⟩ := except_bind_eq_ok hparse
        obtain ⟨tail, htail, hitems⟩ := except_bind_eq_ok hparse
        cases hitems
        have hle := push_rest_length hitem
        obtain ⟨body, hpush, rfl⟩ := parsePushOnlyItem_eq_ok.1 hitem
        rw [hitem, scanNext, Bool.and_eq_true] at hscan
        obtain ⟨hne, hencode⟩ := encodePush_of_push hpush hscan.1
        obtain ⟨hnot, rfl⟩ := (ih (by omega)
          (fun item hmem => hlength item (List.mem_cons_of_mem _ hmem))).1 ⟨hscan.2, htail⟩
        constructor
        · rw [List.mem_cons, not_or]
          exact ⟨hne.symm, hnot⟩
        · rw [List.flatMap_cons, hencode, List.cons_append]
      · rintro ⟨hnot, hscript⟩
        cases items with
        | nil => cases hscript
        | cons item tail =>
          obtain ⟨opcode', body, hencode, hpush, hminimal⟩ := push_of_encodePush
            (fun heq => hnot (heq ▸ List.mem_cons_self)) (hlength item List.mem_cons_self)
          rw [List.flatMap_cons, hencode, List.cons_append] at hscript
          cases hscript
          have hitem : parsePushOnlyItem opcode (body ++ tail.flatMap encodePush) =
              .ok (item, tail.flatMap encodePush) := parsePushOnlyItem_eq_ok.2 ⟨body, hpush, rfl⟩
          have hle := push_rest_length hitem
          obtain ⟨hscan, htail⟩ := (ih (by omega)
            (fun item hmem => hlength item (List.mem_cons_of_mem _ hmem))).2
              ⟨fun hmem => hnot (List.mem_cons_of_mem _ hmem), rfl⟩
          constructor
          · rw [hitem, scanNext, hminimal, hscan]
            rfl
          · simp [hitem, htail, bind, Except.bind, pure, Except.pure]

/-- A script that the policy takes and that the parser parses to the items. -/
def Encodes (script : Bytes) (items : List Bytes) : Prop :=
  isPushOnly script = true ∧ isMinimalPush script = true ∧ parsePushOnlyItems script = .ok items

lemma encodes_iff {script : Bytes} {items : List Bytes} (hlength : ∀ item ∈ items, item.length ≤ 520) :
    Encodes script items ↔ [0x00] ∉ items ∧ script = items.flatMap encodePush := by
  have hstandard := standardPushes_iff (le_refl script.length)
    (fun item hmem => lt_of_le_of_lt (hlength item hmem) (by norm_num))
  unfold Encodes
  constructor
  · rintro ⟨-, hminimal, hparse⟩
    exact hstandard.1 ⟨hminimal, hparse⟩
  · intro h
    obtain ⟨hminimal, hparse⟩ := hstandard.2 h
    exact ⟨(scanPushes_iff_parses (le_refl script.length)).2 ⟨items, hparse⟩, hminimal, hparse⟩

theorem existsUnique_encodes_iff {items : List Bytes} (hlength : ∀ item ∈ items, item.length ≤ 520) :
    (∃! script, Encodes script items) ↔ [0x00] ∉ items := by
  constructor
  · rintro ⟨script, hencodes, -⟩
    exact ((encodes_iff hlength).1 hencodes).1
  · intro hnot
    refine ⟨items.flatMap encodePush, (encodes_iff hlength).2 ⟨hnot, rfl⟩, ?_⟩
    intro script hencodes
    exact ((encodes_iff hlength).1 hencodes).2

def smallItems : List Bytes := [[0x01], [0x11, 0x22]]

theorem existsUnique_encodes_iff_small :
    (∃! script, Encodes script smallItems) ↔ [0x00] ∉ smallItems :=
  existsUnique_encodes_iff (by decide)

/-- The push of a zero byte is no minimal push, and no opcode pushes the byte. -/
theorem zero_byte_not_encoded :
    isMinimalPush [0x01, 0x00] = false ∧ ¬ ∃ script, Encodes script [[0x00]] := by
  have hlength : ∀ item ∈ [[(0x00 : UInt8)]], item.length ≤ 520 := by decide
  refine ⟨by decide, ?_⟩
  rintro ⟨script, hencodes⟩
  exact ((encodes_iff hlength).1 hencodes).1 List.mem_cons_self

end encoding
end BerzCoin
