import Mathlib.Algebra.GroupWithZero.Nat
import Mathlib.Data.List.Basic
import Mathlib.Tactic.SplitIfs
import RemoteImports.OsString
import RemoteImports.Proofs.Text.Pieces

/-!
# Texts of the operating system

Bytes that encode a text are the encoded form of it and of no other (`text?_eq_some_iff`), and are
shown as it (`text_ofText`). What is shown for any other bytes differs from them only beyond ASCII:
an ASCII character of the shown text is one of the bytes (`mem_bytes_of_mem_text`), and bytes that
are shown as ASCII are these bytes (`eq_ofText_of_text_eq`). Joined names are read back by cutting
at the slashes (`splitOn_bytes_join`).
-/

namespace RemoteImports.OsString

theorem bytes_append (s t : OsString) : (s ++ t).bytes = s.bytes ++ t.bytes := rfl

theorem append_assoc (s t u : OsString) : s ++ t ++ u = s ++ (t ++ u) :=
  OsString.ext (List.append_assoc ..)

/-! ## Encoded texts -/

theorem bytes_ofText (t : String) : (ofText t).bytes = t.toList.flatMap String.utf8EncodeChar := by
  rw [ofText, String.toUTF8_eq_toByteArray, ← String.utf8Encode_toList, List.utf8Encode,
    List.toList_data_toByteArray]

theorem ofText_append (t u : String) : ofText (t ++ u) = ofText t ++ ofText u := by
  ext1
  rw [bytes_append, bytes_ofText, bytes_ofText, bytes_ofText, String.toList_append,
    List.flatMap_append]

theorem text?_eq_some_iff {s : OsString} {t : String} : s.text? = some t ↔ s = ofText t := by
  unfold text? String.fromUTF8?
  constructor
  · intro h
    split at h
    · obtain rfl := Option.some.inj h
      rfl
    · cases h
  · rintro rfl
    exact dif_pos t.isValidUTF8

theorem text?_ofText (t : String) : (ofText t).text? = some t := text?_eq_some_iff.2 rfl

theorem ofText_injective : Function.Injective ofText := fun t u h =>
  Option.some.inj (by rw [← text?_ofText t, ← text?_ofText u, h])

theorem text_ofText (t : String) : (ofText t).text = t := by
  rw [text, text?_ofText, Option.getD_some]

/-- Whether the bytes encode a text. -/
def IsUnicode (s : OsString) : Prop := ∃ t, s = ofText t

theorem isUnicode_iff {s : OsString} : s.IsUnicode ↔ ofText s.text = s := by
  constructor
  · rintro ⟨t, rfl⟩
    rw [text_ofText]
  · exact fun h => ⟨s.text, h.symm⟩

theorem isUnicode_iff_text? {s : OsString} : s.IsUnicode ↔ s.text?.isSome := by
  rw [Option.isSome_iff_exists]
  exact exists_congr fun t => text?_eq_some_iff.symm

instance (s : OsString) : Decidable s.IsUnicode := decidable_of_iff _ isUnicode_iff_text?.symm

/-- A byte below 128 in an encoded text is a character of the text. -/
theorem mem_toList_of_mem_bytes {t : String} {b : UInt8} (hb : b < 128) (h : b ∈ (ofText t).bytes) :
    Char.ofNat b.toNat ∈ t.toList := by
  have hlong : ∀ n : ℕ, 128 ≤ n → n < 256 → b ≠ UInt8.ofNat n := by
    rintro n hn hlt rfl
    simp [UInt8.lt_iff_toNat_lt] at hb
    omega
  rw [bytes_ofText, List.mem_flatMap] at h
  obtain ⟨c, hc, h⟩ := h
  suffices hcode : b.toNat = c.toNat by rwa [hcode, Char.ofNat_toNat]
  simp only [String.utf8EncodeChar] at h
  split at h
  case isTrue hshort =>
    obtain rfl : b = UInt8.ofNat c.toNat := by simpa using h
    rw [UInt8.toNat_ofNat']
    exact Nat.mod_eq_of_lt (by rw [Char.toNat]; omega)
  -- Every byte of a longer form is at least 128.
  case isFalse =>
    refine absurd h ?_
    split_ifs
    all_goals
      simp only [List.mem_cons, List.not_mem_nil, or_false, not_or]
      and_intros
      all_goals exact hlong _ (by omega) (by omega)

theorem utf8EncodeChar_of_lt {c : Char} (h : c.toNat < 128) :
    String.utf8EncodeChar c = [UInt8.ofNat c.toNat] :=
  if_pos (Nat.le_of_lt_succ h)

theorem bytes_ofText_of_ascii {t : String} (h : ∀ c ∈ t.toList, c.toNat < 128) :
    (ofText t).bytes = t.toList.map fun c => UInt8.ofNat c.toNat := by
  rw [bytes_ofText, List.map_eq_flatMap]
  exact List.flatMap_congr fun c hc => utf8EncodeChar_of_lt (h c hc)

theorem mem_bytes_ofText {t : String} {c : Char} (hc : c.toNat < 128) (h : c ∈ t.toList) :
    UInt8.ofNat c.toNat ∈ (ofText t).bytes := by
  rw [bytes_ofText, List.mem_flatMap]
  exact ⟨c, h, by rw [utf8EncodeChar_of_lt hc]; exact List.mem_singleton_self _⟩

theorem slash_mem_ofText_iff {t : String} : slash ∈ (ofText t).bytes ↔ '/' ∈ t.toList :=
  ⟨mem_toList_of_mem_bytes (by decide), mem_bytes_ofText (by decide)⟩

/-! ## What is shown for other bytes -/

theorem replacement_not_ascii : ¬ replacement.toNat < 128 := by decide

theorem toNat_charOf (code : ℕ) :
    (charOf code).toNat = if code.isValidChar then code else replacement.toNat := by
  unfold charOf
  split_ifs with h
  · rw [Char.ofNat, dif_pos h]
    rfl
  · rfl

theorem toNat_charOf_of_lt {code : ℕ} (h : code < 128) : (charOf code).toNat = code := by
  rw [toNat_charOf, if_pos (.inl (by omega))]

theorem charOf_not_ascii {code : ℕ} (h : 128 ≤ code) : ¬ (charOf code).toNat < 128 := by
  rw [toNat_charOf]
  split_ifs
  · exact Nat.not_lt.2 h
  · exact replacement_not_ascii

/-- Every character that goes on from a begun one lies beyond ASCII. -/
def Begun.IsLong (begun : Begun) : Prop :=
  128 ≤ (64 * begun.value + (begun.low.toNat - 0x80)) * 64 ^ begun.more

theorem isLong_of_value {value more : ℕ} (low high : UInt8) (h : 2 ≤ value * 64 ^ more) :
    Begun.IsLong ⟨value, low, high, more⟩ := by
  rw [Begun.IsLong, Nat.add_mul, Nat.mul_assoc]
  exact Nat.le_add_right_of_le (Nat.mul_le_mul_left 64 h)

theorem isLong_of_begin? {b : UInt8} {begun : Begun} (h : begin? b = some begun) :
    begun.IsLong := by
  simp only [begin?] at h
  split at h
  case isTrue hb =>
    obtain rfl := Option.some.inj h
    have hlow : 0xC2 ≤ b.toNat := UInt8.le_iff_toNat_le.1 hb.1
    exact isLong_of_value _ _ (by omega)
  split at h
  case isTrue hb =>
    obtain rfl := Option.some.inj h
    rcases eq_or_ne b 0xE0 with rfl | hne
    -- The bounds of the second byte keep the number of a character that starts with zeros large.
    · exact show 128 ≤ _ by decide
    · have hlow : 0xE0 ≤ b.toNat := UInt8.le_iff_toNat_le.1 hb.1
      have hne : b.toNat ≠ 0xE0 := mt (UInt8.toNat_inj (b := 0xE0)).1 hne
      exact isLong_of_value _ _ (by omega)
  split at h
  case isTrue hb =>
    obtain rfl := Option.some.inj h
    rcases eq_or_ne b 0xF0 with rfl | hne
    · exact show 128 ≤ _ by decide
    · have hlow : 0xF0 ≤ b.toNat := UInt8.le_iff_toNat_le.1 hb.1
      have hne : b.toNat ≠ 0xF0 := mt (UInt8.toNat_inj (b := 0xF0)).1 hne
      exact isLong_of_value _ _ (by omega)
  case isFalse => cases h

theorem isLong_of_startByte {b : UInt8} {begun : Begun} (h : (startByte b).2 = some begun) :
    begun.IsLong := by
  unfold startByte at h
  split at h
  · cases h
  · split at h
    case h_1 hbegin =>
      obtain rfl := Option.some.inj h
      exact isLong_of_begin? hbegin
    case h_2 => cases h

/-- A byte between characters settles an ASCII character only if it is this character. -/
theorem eq_of_mem_startByte {b : UInt8} {c : Char} (h : c ∈ (startByte b).1) (hc : c.toNat < 128) :
    c.toNat = b.toNat := by
  unfold startByte at h
  split at h
  case isTrue hb =>
    obtain rfl := List.mem_singleton.1 h
    exact toNat_charOf_of_lt (UInt8.lt_iff_toNat_lt.1 hb)
  case isFalse =>
    split at h
    · exact absurd h List.not_mem_nil
    · obtain rfl := List.mem_singleton.1 h
      exact absurd hc replacement_not_ascii

/-- What a byte does to a begun character: it ends it or goes on with it, or it breaks it off and
stands between characters. -/
theorem nextByte_cases {begun : Begun} (hbegun : begun.IsLong) (b : UInt8) :
    (∃ c, ¬ c.toNat < 128 ∧ nextByte (some begun) b = ([c], none)) ∨
      (∃ next, next.IsLong ∧ nextByte (some begun) b = ([], some next)) ∨
      nextByte (some begun) b = (replacement :: (startByte b).1, (startByte b).2) := by
  obtain ⟨value, low, high, more⟩ := begun
  by_cases hb : low ≤ b ∧ b ≤ high
  · have hlow : low.toNat ≤ b.toNat := UInt8.le_iff_toNat_le.1 hb.1
    have hnext : 128 ≤ (64 * value + (b.toNat - 0x80)) * 64 ^ more :=
      Nat.le_trans hbegun (Nat.mul_le_mul_right _ (by dsimp only; omega))
    cases more with
    | zero =>
      rw [Nat.pow_zero, Nat.mul_one] at hnext
      exact .inl ⟨_, charOf_not_ascii hnext, if_pos hb⟩
    | succ more =>
      rw [Nat.pow_succ, ← Nat.mul_assoc] at hnext
      exact .inr (.inl ⟨_, isLong_of_value 0x80 0xBF (by omega), if_pos hb⟩)
  · exact .inr (.inr (if_neg hb))

/-- **What one byte does**: a character begun after it lies beyond ASCII, and it settles an ASCII
character only if it is this character. -/
theorem nextByte_ascii {state : Option Begun} (hstate : ∀ begun ∈ state, begun.IsLong) (b : UInt8) :
    (∀ begun ∈ (nextByte state b).2, begun.IsLong) ∧
      ∀ c ∈ (nextByte state b).1, c.toNat < 128 → c.toNat = b.toNat := by
  cases state with
  | none => exact ⟨fun _ => isLong_of_startByte, fun _ => eq_of_mem_startByte⟩
  | some begun =>
    obtain ⟨c, hc, hnext⟩ | ⟨next, hlong, hnext⟩ | hnext := nextByte_cases (hstate _ rfl) b
    all_goals rw [hnext]
    · refine ⟨by simp, fun d hd hascii => ?_⟩
      obtain rfl := List.mem_singleton.1 hd
      exact absurd hascii hc
    · exact ⟨by simpa using hlong, by simp⟩
    · refine ⟨fun _ => isLong_of_startByte, fun d hd hascii => ?_⟩
      rcases List.mem_cons.1 hd with rfl | hd
      · exact absurd hascii replacement_not_ascii
      · exact eq_of_mem_startByte hd hascii

/-- An ASCII character that is shown is one of the bytes. -/
theorem mem_of_mem_shownAfter {bytes : List UInt8} {state : Option Begun}
    (hstate : ∀ begun ∈ state, begun.IsLong) {c : Char} (h : c ∈ shownAfter state bytes)
    (hc : c.toNat < 128) : UInt8.ofNat c.toNat ∈ bytes := by
  induction bytes generalizing state with
  | nil =>
    cases state with
    | none => exact absurd h List.not_mem_nil
    | some _ =>
      obtain rfl := List.mem_singleton.1 h
      exact absurd hc replacement_not_ascii
  | cons b bytes ih =>
    obtain ⟨hnext, hsettled⟩ := nextByte_ascii hstate b
    rw [shownAfter, List.mem_append] at h
    rcases h with h | h
    · rw [hsettled c h hc, UInt8.ofNat_toNat]
      exact List.mem_cons_self
    · exact List.mem_cons_of_mem b (ih hnext h)

/-- A begun character shows something beyond ASCII. -/
theorem exists_not_ascii_of_begun {bytes : List UInt8} {begun : Begun} (hbegun : begun.IsLong) :
    ∃ c ∈ shownAfter (some begun) bytes, ¬ c.toNat < 128 := by
  induction bytes generalizing begun with
  | nil => exact ⟨replacement, List.mem_singleton_self _, replacement_not_ascii⟩
  | cons b bytes ih =>
    rw [shownAfter]
    obtain ⟨c, hc, hnext⟩ | ⟨next, hlong, hnext⟩ | hnext := nextByte_cases hbegun b
    all_goals rw [hnext]
    · exact ⟨c, List.mem_cons_self, hc⟩
    · exact ih hlong
    · exact ⟨replacement, List.mem_cons_self, replacement_not_ascii⟩

/-- Bytes that are shown as ASCII are the characters that are shown. -/
theorem eq_of_shownAfter_ascii {bytes : List UInt8}
    (h : ∀ c ∈ shownAfter none bytes, c.toNat < 128) :
    bytes = (shownAfter none bytes).map fun c => UInt8.ofNat c.toNat := by
  induction bytes with
  | nil => rfl
  | cons b bytes ih =>
    have hstart : nextByte none b = startByte b := rfl
    rw [shownAfter, hstart] at h ⊢
    unfold startByte at h ⊢
    split
    case isTrue hb =>
      rw [if_pos hb] at h
      have hcode : (charOf b.toNat).toNat = b.toNat :=
        toNat_charOf_of_lt (UInt8.lt_iff_toNat_lt.1 hb)
      rw [List.singleton_append, List.map_cons, hcode, UInt8.ofNat_toNat,
        ← ih fun c hc => h c (List.mem_cons_of_mem _ hc)]
    case isFalse hb =>
      rw [if_neg hb] at h
      cases hbegin : begin? b with
      | none =>
        rw [hbegin] at h
        exact absurd (h _ List.mem_cons_self) replacement_not_ascii
      | some begun =>
        rw [hbegin] at h
        obtain ⟨c, hc, hlong⟩ := exists_not_ascii_of_begun (isLong_of_begin? hbegin)
        exact absurd (h c hc) hlong

/-! ## Shown texts -/

/-- An ASCII character of what is shown is one of the bytes. -/
theorem mem_bytes_of_mem_text {s : OsString} {c : Char} (hc : c.toNat < 128)
    (h : c ∈ s.text.toList) : UInt8.ofNat c.toNat ∈ s.bytes := by
  by_cases hs : s.IsUnicode
  · rw [← isUnicode_iff.1 hs]
    exact mem_bytes_ofText hc h
  · rw [text, Option.not_isSome_iff_eq_none.1 (mt isUnicode_iff_text?.2 hs), Option.getD_none,
      String.toList_ofList] at h
    exact mem_of_mem_shownAfter (by simp) h hc

/-- What is shown as ASCII encodes what is shown. -/
theorem isUnicode_of_text_ascii {s : OsString} (h : ∀ c ∈ s.text.toList, c.toNat < 128) :
    s.IsUnicode := by
  by_contra hs
  have htext : s.text.toList = shownAfter none s.bytes := by
    rw [text, Option.not_isSome_iff_eq_none.1 (mt isUnicode_iff_text?.2 hs), Option.getD_none,
      String.toList_ofList]
  refine hs ⟨s.text, OsString.ext ?_⟩
  rw [bytes_ofText_of_ascii h, htext]
  exact eq_of_shownAfter_ascii (htext ▸ h)

/-- Only the encoded form of an ASCII text is shown as it. -/
theorem eq_ofText_of_text_eq {s : OsString} {t : String} (ht : ∀ c ∈ t.toList, c.toNat < 128)
    (h : s.text = t) : s = ofText t := by
  rw [← h, isUnicode_iff.1 (isUnicode_of_text_ascii (h ▸ ht))]

/-! ## Joined names -/

variable {names more : List OsString}

theorem join_cons_cons (s t : OsString) (names : List OsString) :
    join (s :: t :: names) = s ++ ⟨[slash]⟩ ++ join (t :: names) :=
  OsString.ext List.intercalate_cons_cons

theorem join_singleton (s : OsString) : join [s] = s :=
  OsString.ext (by simp [join])

theorem join_append (h : names ≠ []) (hmore : more ≠ []) :
    join (names ++ more) = join names ++ ⟨[slash]⟩ ++ join more := by
  induction names with
  | nil => exact absurd rfl h
  | cons s names ih =>
    cases names with
    | nil =>
      obtain ⟨t, more, rfl⟩ := List.exists_cons_of_ne_nil hmore
      rw [List.singleton_append, join_cons_cons, join_singleton]
    | cons t names =>
      rw [List.cons_append, List.cons_append, join_cons_cons, ← List.cons_append, ih (by simp),
        join_cons_cons]
      simp only [append_assoc]

/-- Cutting joined names at the slashes gives back names without one. -/
theorem splitOn_bytes_join (hne : names ≠ []) (h : ∀ s ∈ names, slash ∉ s.bytes) :
    (join names).bytes.splitOn slash = names.map bytes := by
  refine List.splitOn_intercalate slash (fun piece hpiece => ?_) (by simpa using hne)
  obtain ⟨s, hs, rfl⟩ := List.mem_map.1 hpiece
  exact h s hs

theorem ofText_intercalate (texts : List String) :
    ofText ("/".intercalate texts) = join (texts.map ofText) := by
  induction texts with
  | nil => rfl
  | cons t texts ih =>
    cases texts with
    | nil => exact (join_singleton (ofText t)).symm
    | cons u texts =>
      rw [List.map_cons, List.map_cons, join_cons_cons, ← List.map_cons, ← ih,
        String.intercalate_cons_cons, ofText_append, ofText_append]
      rfl

end RemoteImports.OsString
