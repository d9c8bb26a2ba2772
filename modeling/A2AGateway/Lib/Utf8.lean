import Mathlib.Data.Char
import Mathlib.Data.List.Lex
import Mathlib.Data.String.Basic
import Mathlib.Data.UInt

/-!
# The order of texts and of their bytes

UTF-8 keeps the order of code points: texts compared character by character and compared byte by
byte come in one order (`bytes_lt_iff`). The first byte tells how many there are, so that neither of
two codes is the beginning of the other.
-/

namespace Utf8

/-! ## Words for letters -/

/-- Where the word of a smaller letter is smaller, whatever follows, so is the text of words. -/
theorem flatMap_lt_flatMap {α β : Type} [LT α] [LT β] {f : α → List β} (hne : ∀ c, f c ≠ [])
    (hlt : ∀ c d, c < d → ∀ s t, f c ++ s < f d ++ t) {cs ds : List α} (h : cs < ds) : cs.flatMap f < ds.flatMap f := by
  induction h with
  | @nil d ds =>
    obtain ⟨b, bs, hb⟩ := List.exists_cons_of_ne_nil (hne d)
    simp [hb]
  | @rel c cs d ds hcd =>
    rw [List.flatMap_cons, List.flatMap_cons]
    exact hlt c d hcd _ _
  | @cons c cs ds _ ih =>
    rw [List.flatMap_cons, List.flatMap_cons]
    exact List.append_left_lt ih

/-! ## Code points -/

/-- The bytes of a code point. -/
def encode (v : Nat) : List UInt8 :=
  if v ≤ 0x7f then [.ofNat v]
  else if v ≤ 0x7ff then [.ofNat (v / 64 % 0x20 + 0xc0), .ofNat (v % 0x40 + 0x80)]
  else if v ≤ 0xffff then
    [.ofNat (v / 4096 % 0x10 + 0xe0), .ofNat (v / 64 % 0x40 + 0x80), .ofNat (v % 0x40 + 0x80)]
  else
    [.ofNat (v / 262144 % 0x08 + 0xf0), .ofNat (v / 4096 % 0x40 + 0x80), .ofNat (v / 64 % 0x40 + 0x80),
      .ofNat (v % 0x40 + 0x80)]

theorem encode_ne_nil (v : Nat) : encode v ≠ [] := by
  unfold encode
  split_ifs <;> simp

section
variable {m n k : Nat} {s t : List UInt8}

theorem cons_lt_cons (hn : n < 256) (h : m < n ∨ m = n ∧ s < t) : UInt8.ofNat m :: s < UInt8.ofNat n :: t := by
  rw [List.cons_lt_cons_iff, UInt8.lt_iff_toNat_lt, UInt8.toNat_ofNat', UInt8.toNat_ofNat']
  rcases h with h | ⟨rfl, h⟩
  · exact .inl (by omega)
  · exact .inr ⟨rfl, h⟩

/-- A byte in the middle. -/
theorem middle_lt (h : m / k % 0x40 < n / k % 0x40 ∨ m / k % 0x40 = n / k % 0x40 ∧ s < t) :
    UInt8.ofNat (m / k % 0x40 + 0x80) :: s < UInt8.ofNat (n / k % 0x40 + 0x80) :: t := by
  apply cons_lt_cons (by omega)
  rcases h with h | ⟨h, hst⟩
  · exact .inl (by omega)
  · exact .inr ⟨by omega, hst⟩

/-- The last byte. -/
theorem last_lt (h : m % 0x40 < n % 0x40) :
    UInt8.ofNat (m % 0x40 + 0x80) :: s < UInt8.ofNat (n % 0x40 + 0x80) :: t :=
  cons_lt_cons (by omega) (.inl (by omega))

/-- **Of two code points the smaller one has the smaller bytes**, whatever follows them. -/
theorem encode_lt (hn : n < 0x110000) (h : m < n) (s t : List UInt8) : encode m ++ s < encode n ++ t := by
  unfold encode
  -- where the lengths differ, so do the first bytes
  split_ifs <;> first | omega | exact cons_lt_cons (by omega) (.inl (by omega)) | skip
  · apply cons_lt_cons (by omega)
    by_cases h₁ : m / 64 = n / 64
    · exact .inr ⟨by omega, last_lt (by omega)⟩
    · exact .inl (by omega)
  · apply cons_lt_cons (by omega)
    by_cases h₁ : m / 64 = n / 64
    · exact .inr ⟨by omega, middle_lt (.inr ⟨by omega, last_lt (by omega)⟩)⟩
    by_cases h₂ : m / 4096 = n / 4096
    · exact .inr ⟨by omega, middle_lt (.inl (by omega))⟩
    · exact .inl (by omega)
  · apply cons_lt_cons (by omega)
    by_cases h₁ : m / 64 = n / 64
    · exact .inr ⟨by omega, middle_lt (.inr ⟨by omega, middle_lt (.inr ⟨by omega, last_lt (by omega)⟩)⟩)⟩
    by_cases h₂ : m / 4096 = n / 4096
    · exact .inr ⟨by omega, middle_lt (.inr ⟨by omega, middle_lt (.inl (by omega))⟩)⟩
    by_cases h₃ : m / 262144 = n / 262144
    · exact .inr ⟨by omega, middle_lt (.inl (by omega))⟩
    · exact .inl (by omega)

end

/-! ## Texts -/

theorem val_lt (c : Char) : c.val.toNat < 0x110000 := by
  rcases c.valid with h | ⟨-, h⟩
  · exact Nat.lt_trans h (by decide)
  · exact h

theorem toUTF8_eq (a : String) : a.toUTF8.data.toList = a.toList.flatMap fun c => encode c.val.toNat := by
  have hbytes : a.toUTF8 = a.toList.utf8Encode := String.utf8Encode_toList.symm
  rw [hbytes]
  exact List.toList_data_toByteArray

theorem bytes_lt_of_lt {a b : String} (h : a < b) : a.toUTF8.data.toList < b.toUTF8.data.toList := by
  rw [toUTF8_eq, toUTF8_eq]
  refine flatMap_lt_flatMap (fun c => encode_ne_nil _) ?_ (String.lt_iff_toList_lt.1 h)
  intro c d hcd s t
  exact encode_lt (val_lt d) hcd s t

/-- **Texts are ordered as their bytes are.** -/
theorem bytes_lt_iff {a b : String} : a.toUTF8.data.toList < b.toUTF8.data.toList ↔ a < b := by
  constructor
  · intro h
    by_contra hab
    rcases lt_or_eq_of_le (not_lt.1 hab) with hba | rfl
    · exact List.lt_asymm h (bytes_lt_of_lt hba)
    · exact List.lt_irrefl _ h
  · exact bytes_lt_of_lt

end Utf8
