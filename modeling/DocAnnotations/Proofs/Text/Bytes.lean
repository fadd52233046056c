import Mathlib.Data.Char
import Mathlib.Data.List.Basic
import Mathlib.Data.UInt
import Mathlib.Tactic.SplitIfs

/-!
# The order of bytes

Of two characters, the greater one has greater bytes.
-/

namespace DocAnnotations.Text

/-- The bytes of a text in UTF-8. -/
def bytes (s : String) : List UInt8 := s.toUTF8.data.toList

theorem bytes_eq (s : String) : bytes s = s.toList.flatMap String.utf8EncodeChar := by
  rw [bytes, String.toUTF8_eq_toByteArray, ← String.utf8Encode_toList, List.utf8Encode]
  simp

theorem fromUTF8?_eq_some_iff (bytes : ByteArray) (text : String) :
    String.fromUTF8? bytes = some text ↔ bytes = text.toUTF8 := by
  unfold String.fromUTF8?
  constructor
  · intro h
    split at h
    · exact congrArg String.toUTF8 (Option.some.inj h)
    · simp at h
  · rintro rfl
    rw [String.toUTF8_eq_toByteArray, dif_pos text.isValidUTF8]
    rfl

/-! ## Two characters -/

theorem utf8EncodeChar_append_lt (c d : Char) (h : c < d) (s t : List UInt8) :
    String.utf8EncodeChar c ++ s < String.utf8EncodeChar d ++ t := by
  have hlt : c.val.toNat < d.val.toNat := h
  have hmax : d.val.toNat < 0x110000 := by
    rcases d.valid with hlow | ⟨-, hhigh⟩
    · exact Nat.lt_trans hlow (by decide)
    · exact hhigh
  unfold String.utf8EncodeChar
  generalize c.val.toNat = v at hlt
  generalize d.val.toNat = w at hlt hmax
  have hdigits : ∀ n : Nat, n / 64 / 64 = n / 4096 ∧ n / 4096 / 64 = n / 262144 := fun n =>
    ⟨Nat.div_div_eq_div_mul .., Nat.div_div_eq_div_mul ..⟩
  have hv := hdigits v
  have hw := hdigits w
  dsimp only
  -- The lengths of both encodings; where they are the same, the digits are compared.
  split_ifs <;>
  · simp only [List.cons_append, List.nil_append, List.cons_lt_cons_iff, UInt8.lt_iff_toNat_lt,
      ← UInt8.toNat_inj, UInt8.toNat_ofNat']
    simp (disch := omega) only [Nat.mod_eq_of_lt]
    omega

/-! ## Texts -/

theorem flatMap_utf8EncodeChar_lt (cs ds : List Char) (h : cs < ds) :
    cs.flatMap String.utf8EncodeChar < ds.flatMap String.utf8EncodeChar := by
  induction h with
  | @nil d ds =>
    obtain ⟨b, bs, hb⟩ := List.exists_cons_of_ne_nil (String.utf8EncodeChar_ne_nil (c := d))
    simp [hb]
  | rel hcd =>
    simp only [List.flatMap_cons]
    exact utf8EncodeChar_append_lt _ _ hcd _ _
  | cons _ ih =>
    simp only [List.flatMap_cons]
    exact List.append_left_lt ih

theorem bytes_lt_of_lt (s t : String) (h : s < t) : bytes s < bytes t := by
  rw [bytes_eq, bytes_eq]
  exact flatMap_utf8EncodeChar_lt _ _ (String.lt_iff.mp h)

theorem bytes_lt_iff (s t : String) : bytes s < bytes t ↔ s < t := by
  refine ⟨fun h => ?_, bytes_lt_of_lt s t⟩
  by_contra hst
  rcases Std.le_iff_lt_or_eq.mp (String.not_lt.mp hst) with hts | rfl
  · exact List.lt_asymm h (bytes_lt_of_lt t s hts)
  · exact List.lt_irrefl _ h

theorem compare_eq_lt_iff (s t : String) : Ord.compare s t = .lt ↔ bytes s < bytes t :=
  compareOfLessAndEq_eq_lt.trans (bytes_lt_iff s t).symm

end DocAnnotations.Text
