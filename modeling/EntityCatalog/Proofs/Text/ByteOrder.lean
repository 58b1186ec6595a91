import Mathlib.Data.String.Basic

/-!
# The order of texts and of their bytes

Texts compare by code point. The bytes of UTF-8 compare the same way (`bytes_lt_iff`): a character with
a smaller code point is smaller in the first byte in which the two differ, and neither is the beginning
of the other.
-/

namespace EntityCatalog.Text

/-- The bytes in which a text is written. -/
def bytes (s : String) : List UInt8 := s.toUTF8.data.toList

theorem bytes_eq (s : String) : bytes s = s.toList.flatMap String.utf8EncodeChar := by
  have h : s.toUTF8 = (s.toList.flatMap String.utf8EncodeChar).toByteArray := by
    conv => lhs; rw [← String.ofList_toList (s := s)]
    rfl
  rw [bytes, h, List.toList_data_toByteArray]

/-! ## Characters -/

theorem lt_last_digit {m n : Nat} (h : m < n) :
    m / 64 < n / 64 ∨ m / 64 = n / 64 ∧ m % 64 < n % 64 := by
  omega

/-- Numbers compare by their digits to the base 64, four of which make a code point. -/
theorem lt_digits {m n : Nat} (h : m < n) :
    m / 262144 < n / 262144 ∨ m / 262144 = n / 262144 ∧
      (m / 4096 % 64 < n / 4096 % 64 ∨ m / 4096 % 64 = n / 4096 % 64 ∧
        (m / 64 % 64 < n / 64 % 64 ∨ m / 64 % 64 = n / 64 % 64 ∧ m % 64 < n % 64)) := by
  have htwo (k : Nat) : k / 4096 = k / 64 / 64 := (Nat.div_div_eq_div_mul k 64 64).symm
  have hthree (k : Nat) : k / 262144 = k / 64 / 64 / 64 := by
    rw [Nat.div_div_eq_div_mul, Nat.div_div_eq_div_mul]
  rw [htwo, htwo, hthree, hthree]
  rcases lt_last_digit h with h | ⟨hrest, h⟩
  · rcases lt_last_digit h with h | ⟨hrest, h⟩
    · rcases lt_last_digit h with h | ⟨hrest, h⟩
      · exact .inl h
      · exact .inr ⟨hrest, .inl h⟩
    · rw [hrest]
      exact .inr ⟨rfl, .inr ⟨rfl, .inl h⟩⟩
  · rw [hrest]
    exact .inr ⟨rfl, .inr ⟨rfl, .inr ⟨rfl, h⟩⟩⟩

theorem encode_append_lt {c d : Char} (h : c < d) (u v : List UInt8) :
    String.utf8EncodeChar c ++ u < String.utf8EncodeChar d ++ v := by
  have hlt : c.val.toNat < d.val.toNat := h
  have hd : d.val.toNat < 0x110000 := by
    have hvalid := d.valid
    simp only [UInt32.isValidChar, Nat.isValidChar] at hvalid
    omega
  unfold String.utf8EncodeChar
  dsimp only
  generalize c.val.toNat = m at *
  generalize d.val.toNat = n at *
  have hfollower (k : Nat) : (k % 64 + 128) % 256 = k % 64 + 128 := by omega
  have hleader {k : Nat} (hk : k < 0x110000) : (k / 262144 % 8 + 240) % 256 = k / 262144 + 240 := by
    omega
  by_cases hm : m ≤ 0xFFFF
  · split_ifs <;>
      simp only [List.cons_append, List.nil_append, List.cons_lt_cons_iff, UInt8.lt_iff_toNat_lt,
        ← UInt8.toNat_inj, UInt8.toNat_ofNat', Nat.reducePow, hfollower] <;>
      omega
  · -- both take four bytes, one for each digit
    have hm11 : ¬ m ≤ 0x7FF := by omega
    have hm7 : ¬ m ≤ 0x7F := by omega
    have hn16 : ¬ n ≤ 0xFFFF := by omega
    have hn11 : ¬ n ≤ 0x7FF := by omega
    have hn7 : ¬ n ≤ 0x7F := by omega
    simp only [hm, hm11, hm7, hn16, hn11, hn7, if_false, List.cons_append, List.nil_append,
      List.cons_lt_cons_iff, UInt8.lt_iff_toNat_lt, ← UInt8.toNat_inj, UInt8.toNat_ofNat',
      Nat.reducePow, hfollower, hleader hd, hleader (hlt.trans hd), Nat.add_lt_add_iff_right,
      Nat.add_right_cancel_iff]
    refine (lt_digits hlt).imp_right fun ⟨hleading, h⟩ => ⟨hleading, h.imp_right ?_⟩
    exact fun ⟨hsecond, h⟩ => ⟨hsecond, h.imp_right fun ⟨hthird, h⟩ => ⟨hthird, .inl h⟩⟩

/-! ## Texts -/

theorem encode_lt_of_lt {cs ds : List Char} (h : cs < ds) :
    cs.flatMap String.utf8EncodeChar < ds.flatMap String.utf8EncodeChar := by
  induction cs generalizing ds with
  | nil =>
    cases ds with
    | nil => exact absurd h (List.lt_irrefl [])
    | cons d ds =>
      obtain ⟨byte, rest, hd⟩ := List.exists_cons_of_ne_nil (String.utf8EncodeChar_ne_nil (c := d))
      rw [List.flatMap_cons, hd]
      exact List.nil_lt_cons _ _
  | cons c cs ih =>
    cases ds with
    | nil => cases h
    | cons d ds =>
      rw [List.flatMap_cons, List.flatMap_cons]
      rcases List.cons_lt_cons_iff.1 h with hlt | ⟨rfl, hrest⟩
      · exact encode_append_lt hlt _ _
      · exact List.append_left_lt (ih hrest)

theorem bytes_lt_iff {a b : String} : bytes a < bytes b ↔ a < b := by
  have hmono {a b : String} (h : a < b) : bytes a < bytes b := by
    rw [bytes_eq, bytes_eq]
    exact encode_lt_of_lt (String.lt_iff.1 h)
  constructor
  · intro h
    by_contra hge
    rcases Decidable.em (b < a) with hlt | hle
    · exact List.lt_asymm h (hmono hlt)
    · have heq : a = b := String.le_antisymm (String.not_lt.1 hle) (String.not_lt.1 hge)
      exact List.lt_irrefl _ (heq ▸ h)
  · exact hmono

end EntityCatalog.Text
