import Mathlib.Data.List.Induction
import Ownership.Text.Basic

set_option autoImplicit false

/-!
# Texts and their UTF-8 forms

No character's form begins or ends with the form of another one. So a text starts or ends with
another one as soon as its bytes do.
-/
namespace Ownership.Text

theorem bytes_nil : bytes [] = [] := rfl

theorem bytes_cons (c : Char) (cs : List Char) :
    bytes (c :: cs) = String.utf8EncodeChar c ++ bytes cs := rfl

theorem bytes_singleton (c : Char) : bytes [c] = String.utf8EncodeChar c := List.append_nil _

theorem bytes_eq_nil_iff {cs : List Char} : bytes cs = [] ↔ cs = [] := by
  cases cs with
  | nil => simp [bytes_nil]
  | cons c cs => simp [bytes_cons, String.utf8EncodeChar_ne_nil]

theorem bytes_append (as bs : List Char) : bytes (as ++ bs) = bytes as ++ bytes bs := by
  simp [bytes]

theorem encode_append_inj {c d : Char} {xs ys : List UInt8}
    (h : String.utf8EncodeChar c ++ xs = String.utf8EncodeChar d ++ ys) : c = d := by
  have hc := ByteArray.utf8DecodeChar?_utf8EncodeChar_append (b := xs.toByteArray) (c := c)
  have hd := ByteArray.utf8DecodeChar?_utf8EncodeChar_append (b := ys.toByteArray) (c := d)
  rw [← List.toByteArray_append, h, List.toByteArray_append, hd] at hc
  exact Option.some.inj hc.symm

/-- Only the first byte of a form can begin one, so the longer of two forms with a common end is no
longer than the other. -/
theorem encode_length_le {c d : Char} {xs ys : List UInt8}
    (h : xs ++ String.utf8EncodeChar c = ys ++ String.utf8EncodeChar d) :
    (String.utf8EncodeChar d).length ≤ (String.utf8EncodeChar c).length := by
  refine Nat.le_of_not_lt fun hlt => ?_
  have hpos : 0 < (String.utf8EncodeChar c).length :=
    List.length_pos_iff.mpr String.utf8EncodeChar_ne_nil
  have hlen := congrArg List.length h
  simp only [List.length_append] at hlen
  let k := (String.utf8EncodeChar d).length - (String.utf8EncodeChar c).length
  have hk : k < (String.utf8EncodeChar d).length := by omega
  have heq : (String.utf8EncodeChar d)[k] = (String.utf8EncodeChar c)[0] := by
    have hx : (xs ++ String.utf8EncodeChar c)[xs.length]? = (String.utf8EncodeChar c)[0]? := by
      rw [List.getElem?_append_right (Nat.le_refl _), Nat.sub_self]
    have hy : (ys ++ String.utf8EncodeChar d)[ys.length + k]? = (String.utf8EncodeChar d)[k]? := by
      rw [List.getElem?_append_right (Nat.le_add_right _ _), Nat.add_sub_cancel_left]
    have hi : xs.length = ys.length + k := by omega
    rw [h, hi, hy, List.getElem?_eq_getElem hk, List.getElem?_eq_getElem hpos] at hx
    exact Option.some.inj hx
  have hfirst : ((String.utf8EncodeChar d)[k]).IsUTF8FirstByte := by
    rw [heq]
    exact UInt8.isUTF8FirstByte_getElem_utf8EncodeChar.mpr rfl
  have hzero := UInt8.isUTF8FirstByte_getElem_utf8EncodeChar.mp hfirst
  omega

theorem append_encode_inj {c d : Char} {xs ys : List UInt8}
    (h : xs ++ String.utf8EncodeChar c = ys ++ String.utf8EncodeChar d) : c = d ∧ xs = ys := by
  have hlen := Nat.le_antisymm (encode_length_le h.symm) (encode_length_le h)
  obtain ⟨hxs, hform⟩ := List.append_inj' h hlen
  have hread : String.utf8EncodeChar c ++ [] = String.utf8EncodeChar d ++ [] := by rw [hform]
  exact ⟨encode_append_inj hread, hxs⟩

theorem isPrefix_of_bytes {as bs : List Char} (h : bytes as <+: bytes bs) : as <+: bs := by
  induction as generalizing bs with
  | nil => exact List.nil_prefix
  | cons a as ih =>
    obtain ⟨rest, hrest⟩ := h
    cases bs with
    | nil => simp [bytes_cons, bytes_nil, String.utf8EncodeChar_ne_nil] at hrest
    | cons b bs =>
      rw [bytes_cons, bytes_cons, List.append_assoc] at hrest
      obtain rfl := encode_append_inj hrest
      have htail := List.append_cancel_left hrest
      exact (List.prefix_cons_inj a).mpr (ih ⟨rest, htail⟩)

theorem isSuffix_of_bytes {as bs : List Char} (h : bytes as <:+ bytes bs) : as <:+ bs := by
  induction as using List.reverseRecOn generalizing bs with
  | nil => exact List.nil_suffix
  | append_singleton as a ih =>
    obtain ⟨rest, hrest⟩ := h
    rcases List.eq_nil_or_concat bs with rfl | ⟨bs, b, rfl⟩
    · simp [bytes_append, bytes_cons, bytes_nil, String.utf8EncodeChar_ne_nil] at hrest
    · simp only [List.concat_eq_append, bytes_append, bytes_cons, bytes_nil, List.append_nil,
        ← List.append_assoc] at hrest
      obtain ⟨rfl, hstart⟩ := append_encode_inj hrest
      obtain ⟨front, rfl⟩ := ih ⟨rest, hstart⟩
      exact ⟨front, by simp⟩

theorem bytes_isPrefix_iff {as bs : List Char} : bytes as <+: bytes bs ↔ as <+: bs := by
  constructor
  · exact isPrefix_of_bytes
  · rintro ⟨rest, rfl⟩
    rw [bytes_append]
    exact List.prefix_append _ _

theorem bytes_isSuffix_iff {as bs : List Char} : bytes as <:+ bytes bs ↔ as <:+ bs := by
  constructor
  · exact isSuffix_of_bytes
  · rintro ⟨rest, rfl⟩
    rw [bytes_append]
    exact List.suffix_append _ _

theorem prefix_or_prefix_of_bytes {as bs : List Char} {xs : List UInt8} (ha : bytes as <+: xs)
    (hb : bytes bs <+: xs) : as <+: bs ∨ bs <+: as :=
  (List.prefix_or_prefix_of_prefix ha hb).imp bytes_isPrefix_iff.mp bytes_isPrefix_iff.mp

theorem suffix_or_suffix_of_bytes {as bs : List Char} {xs : List UInt8} (ha : bytes as <:+ xs)
    (hb : bytes bs <:+ xs) : as <:+ bs ∨ bs <:+ as :=
  (List.suffix_or_suffix_of_suffix ha hb).imp bytes_isSuffix_iff.mp bytes_isSuffix_iff.mp

/-! ## Finding characters in bytes -/

theorem eq_nil_of_encode_eq_append {c : Char} {xs ys : List UInt8} {b : UInt8}
    (hb : b.IsUTF8FirstByte) (h : String.utf8EncodeChar c = xs ++ b :: ys) : xs = [] := by
  have hlt : xs.length < (String.utf8EncodeChar c).length := by simp [h]
  have hget : (String.utf8EncodeChar c)[xs.length] = b := by simp [h]
  have hfirst : ((String.utf8EncodeChar c)[xs.length]).IsUTF8FirstByte := by rwa [hget]
  exact List.length_eq_zero_iff.mp (UInt8.isUTF8FirstByte_getElem_utf8EncodeChar.mp hfirst)

theorem exists_first_of_encode (c : Char) :
    ∃ b rest, String.utf8EncodeChar c = b :: rest ∧ b.IsUTF8FirstByte := by
  obtain ⟨b, rest, h⟩ := List.exists_cons_of_ne_nil (String.utf8EncodeChar_ne_nil (c := c))
  have hlt : 0 < (String.utf8EncodeChar c).length := by simp [h]
  have hget : (String.utf8EncodeChar c)[0] = b := by simp [h]
  refine ⟨b, rest, h, ?_⟩
  rw [← hget]
  exact UInt8.isUTF8FirstByte_getElem_utf8EncodeChar.mpr rfl

theorem exists_of_bytes_eq {c : Char} {cs : List Char} {xs ys : List UInt8}
    (h : bytes cs = xs ++ (String.utf8EncodeChar c ++ ys)) :
    ∃ front back, cs = front ++ c :: back ∧ bytes front = xs ∧ bytes back = ys := by
  induction cs generalizing xs with
  | nil => simp [bytes_nil, String.utf8EncodeChar_ne_nil] at h
  | cons d cs ih =>
    rw [bytes_cons] at h
    obtain ⟨b, tail, hform, hfirst⟩ := exists_first_of_encode c
    rcases List.append_eq_append_iff.mp h with ⟨mid, rfl, hrest⟩ | ⟨mid, hd, hrest⟩
    · obtain ⟨front, back, rfl, rfl, rfl⟩ := ih hrest
      exact ⟨d :: front, back, rfl, rfl, rfl⟩
    · cases mid with
      | nil =>
        rw [List.append_nil] at hd
        have hnext : bytes cs = [] ++ (String.utf8EncodeChar c ++ ys) := hrest.symm
        obtain ⟨front, back, rfl, hfront, rfl⟩ := ih hnext
        exact ⟨d :: front, back, rfl, by rw [bytes_cons, hfront, List.append_nil, hd], rfl⟩
      | cons m mid =>
        rw [hform, List.cons_append, List.cons_append] at hrest
        obtain rfl := (List.cons.inj hrest).1
        obtain rfl := eq_nil_of_encode_eq_append hfirst hd
        rw [List.nil_append] at h
        obtain rfl := encode_append_inj h
        exact ⟨[], cs, rfl, rfl, List.append_cancel_left h⟩

/-! ## Characters of one byte -/

def IsAscii (c : Char) : Prop := c.toNat < 128

instance (c : Char) : Decidable (IsAscii c) := inferInstanceAs (Decidable (c.toNat < 128))

theorem encode_of_isAscii {c : Char} (h : IsAscii c) :
    String.utf8EncodeChar c = [UInt8.ofNat c.toNat] := by
  have hle : c.toNat ≤ 127 := Nat.le_of_lt_succ h
  exact if_pos hle

theorem toNat_ofNat_of_isAscii {c : Char} (h : IsAscii c) :
    (UInt8.ofNat c.toNat).toNat = c.toNat := by
  have hlt : c.toNat < 128 := h
  rw [UInt8.toNat_ofNat']
  omega

theorem le_toNat_of_mem_encode {c : Char} {b : UInt8} (h : ¬ IsAscii c)
    (hmem : b ∈ String.utf8EncodeChar c) : 128 ≤ b.toNat := by
  have hlong : ¬ c.toNat ≤ 127 := fun hle => h (Nat.lt_succ_of_le hle)
  unfold String.utf8EncodeChar at hmem
  simp only [Char.toNat_val, if_neg hlong] at hmem
  split at hmem
  · simp only [List.mem_cons, List.not_mem_nil, or_false] at hmem
    rcases hmem with rfl | rfl <;> (rw [UInt8.toNat_ofNat']; omega)
  · split at hmem
    · simp only [List.mem_cons, List.not_mem_nil, or_false] at hmem
      rcases hmem with rfl | rfl | rfl <;> (rw [UInt8.toNat_ofNat']; omega)
    · simp only [List.mem_cons, List.not_mem_nil, or_false] at hmem
      rcases hmem with rfl | rfl | rfl | rfl <;> (rw [UInt8.toNat_ofNat']; omega)

theorem encode_eq_singleton {c : Char} {b : UInt8} (hmem : b ∈ String.utf8EncodeChar c)
    (hb : b.toNat < 128) : String.utf8EncodeChar c = [b] ∧ b.toNat = c.toNat := by
  have h : IsAscii c := by
    by_contra h
    exact Nat.not_le_of_lt hb (le_toNat_of_mem_encode h hmem)
  rw [encode_of_isAscii h, List.mem_singleton] at hmem
  subst hmem
  exact ⟨encode_of_isAscii h, toNat_ofNat_of_isAscii h⟩

theorem exists_isAscii {b : UInt8} (hb : b.toNat < 128) :
    ∃ c, IsAscii c ∧ String.utf8EncodeChar c = [b] := by
  have hnat : (Char.ofUInt8 b).toNat = b.toNat := UInt8.toNat_toUInt32 b
  have hascii : IsAscii (Char.ofUInt8 b) := by rwa [IsAscii, hnat]
  refine ⟨Char.ofUInt8 b, hascii, ?_⟩
  rw [encode_of_isAscii hascii, hnat, UInt8.ofNat_toNat]

theorem isAscii_of_bytes {c : Char} (h : ∀ b ∈ String.utf8EncodeChar c, b.toNat < 128) :
    IsAscii c := by
  by_contra hc
  obtain ⟨b, rest, hform, -⟩ := exists_first_of_encode c
  have hmem : b ∈ String.utf8EncodeChar c := hform ▸ List.mem_cons_self
  exact Nat.not_le_of_lt (h b hmem) (le_toNat_of_mem_encode hc hmem)

theorem toNat_lt_of_mem_bytes {cs : List Char} (h : ∀ c ∈ cs, IsAscii c) :
    ∀ b ∈ bytes cs, b.toNat < 128 := by
  intro b hb
  obtain ⟨c, hc, hmem⟩ := List.mem_flatMap.mp hb
  rw [encode_of_isAscii (h c hc), List.mem_singleton] at hmem
  rw [hmem, toNat_ofNat_of_isAscii (h c hc)]
  exact h c hc

end Ownership.Text
