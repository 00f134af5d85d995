import Mathlib.Data.List.Basic

/-!
# UTF-8 bytes of a text

Encoding is injective, and a byte below 128 occurs only as the character it is.
-/

def utf8 (text : List Char) : List UInt8 := text.flatMap String.utf8EncodeChar

/-- The text of well-formed bytes. -/
def decodeUtf8 (bytes : List UInt8) : Option (List Char) :=
  bytes.toByteArray.utf8Decode?.map Array.toList

/-- `str::as_bytes`. -/
def String.asBytes (s : String) : List UInt8 := s.toByteArray.data.toList

theorem String.asBytes_eq (s : String) : s.asBytes = utf8 s.toList := by
  rw [String.asBytes, ← String.utf8Encode_toList]
  exact List.toList_data_toByteArray

@[simp] theorem utf8_nil : utf8 [] = [] := rfl

@[simp] theorem utf8_append (a b : List Char) : utf8 (a ++ b) = utf8 a ++ utf8 b :=
  List.flatMap_append

theorem utf8_toByteArray (text : List Char) : (utf8 text).toByteArray = text.utf8Encode := rfl

theorem decodeUtf8_utf8 (text : List Char) : decodeUtf8 (utf8 text) = some text := by
  rw [decodeUtf8, utf8_toByteArray, List.utf8Decode?_utf8Encode]
  rfl

theorem utf8_injective {a b : List Char} (same : utf8 a = utf8 b) : a = b := by
  have first := decodeUtf8_utf8 a
  rw [same, decodeUtf8_utf8] at first
  exact (Option.some.inj first).symm

theorem String.asBytes_injective {s t : String} (same : s.asBytes = t.asBytes) : s = t :=
  String.toList_injective (utf8_injective (by rwa [s.asBytes_eq, t.asBytes_eq] at same))

private theorem high_byte {n : Nat} (low : 128 ≤ n) (fits : n < 256) :
    128 ≤ (UInt8.ofNat n).toNat := by
  rw [UInt8.toNat_ofNat']
  omega

theorem utf8EncodeChar_byte {c : Char} {b : UInt8} (member : b ∈ String.utf8EncodeChar c) :
    b.toNat = c.toNat ∨ 128 ≤ b.toNat := by
  have value : c.val.toNat = c.toNat := rfl
  unfold String.utf8EncodeChar at member
  simp only [value] at member
  split at member
  next low =>
    rw [List.mem_singleton] at member
    subst member
    left
    rw [UInt8.toNat_ofNat']
    omega
  split at member
  next =>
    simp only [List.mem_cons, List.not_mem_nil, or_false] at member
    rcases member with rfl | rfl <;> exact .inr (high_byte (by omega) (by omega))
  split at member
  next =>
    simp only [List.mem_cons, List.not_mem_nil, or_false] at member
    rcases member with rfl | rfl | rfl <;> exact .inr (high_byte (by omega) (by omega))
  next =>
    simp only [List.mem_cons, List.not_mem_nil, or_false] at member
    rcases member with rfl | rfl | rfl | rfl <;> exact .inr (high_byte (by omega) (by omega))

theorem utf8_byte_low {text : List Char} {b : UInt8} (member : b ∈ utf8 text)
    (low : b.toNat < 128) : ∃ c ∈ text, c.toNat = b.toNat := by
  obtain ⟨c, within, byte⟩ := List.mem_flatMap.mp member
  rcases utf8EncodeChar_byte byte with same | high
  · exact ⟨c, within, same.symm⟩
  · omega

theorem utf8EncodeChar_low {c : Char} (low : c.toNat < 128) :
    String.utf8EncodeChar c = [.ofNat c.toNat] := by
  have value : c.val.toNat = c.toNat := rfl
  unfold String.utf8EncodeChar
  simp only [value]
  rw [if_pos (by omega)]

/-! ### Texts of single bytes -/

/-- The characters, read byte by byte where there is nothing but ASCII. -/
def String.characters (s : String) : List Char :=
  if s.asBytes.all (· < 128) then s.asBytes.map Char.ofUInt8 else s.toList

theorem ofUInt8_low {c : Char} (low : c.toNat < 128) : Char.ofUInt8 (.ofNat c.toNat) = c := by
  apply Char.toNat_inj.mp
  change (UInt8.ofNat c.toNat).toUInt32.toNat = c.toNat
  rw [UInt8.toNat_toUInt32, UInt8.toNat_ofNat']
  omega

theorem utf8_ascii {text : List Char} (ascii : ∀ byte ∈ utf8 text, byte < 128) :
    (utf8 text).map Char.ofUInt8 = text := by
  induction text with
  | nil => rfl
  | cons c text ih =>
    have split : utf8 (c :: text) = String.utf8EncodeChar c ++ utf8 text := List.flatMap_cons
    rw [split] at ascii ⊢
    obtain ⟨first, rest⟩ := List.forall_mem_append.mp ascii
    obtain ⟨byte, member⟩ := List.exists_mem_of_ne_nil _ (@String.utf8EncodeChar_ne_nil c)
    have small : byte.toNat < 128 := UInt8.lt_iff_toNat_lt.mp (first byte member)
    have low : c.toNat < 128 := by
      rcases utf8EncodeChar_byte member with same | high <;> omega
    rw [List.map_append, ih rest, utf8EncodeChar_low low, List.map_singleton, ofUInt8_low low]
    rfl

@[simp] theorem String.characters_eq (s : String) : s.characters = s.toList := by
  unfold String.characters
  split
  next ascii =>
    rw [List.all_eq_true] at ascii
    simp only [decide_eq_true_eq] at ascii
    rw [s.asBytes_eq] at ascii ⊢
    exact utf8_ascii ascii
  next => rfl
