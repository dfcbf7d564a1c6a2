import Lexis.Proofs.Parts

/-!
# Looking ahead by bytes

A character ahead is found by counting characters, or by its byte offset where all bytes up to it
are ASCII (`Text.asciiByte?`). Bytes and characters are counted alike only as long as each character
is one byte. The bytes themselves **tell when this ends**: the first byte of a longer character is
not ASCII (`Text.exists_first_byte`), so a look at the bytes never goes past such a character
(`Text.startsAscii_iff`), and what it finds is what counting finds.
-/

namespace Lexis

namespace Text

/-! ### The bytes of a text -/

theorem bytes_cons (c : Char) (text : List Char) :
    bytes (c :: text) = String.utf8EncodeChar c ++ bytes text :=
  List.flatMap_cons

private theorem bytes_cons_of_utf8Size {c : Char} (h : c.utf8Size = 1) (text : List Char) :
    bytes (c :: text) = c.val.toUInt8 :: bytes text := by
  rw [bytes_cons, String.utf8EncodeChar_eq_singleton h]
  rfl

/-- The byte of a character of one byte is ASCII and gives the character back. -/
private theorem ofNat_byte {c : Char} (h : c.utf8Size = 1) :
    c.val.toUInt8 < 0x80 ∧ Char.ofNat c.val.toUInt8.toNat = c := by
  have hval : c.val.toNat ≤ 127 := UInt32.le_iff_toNat_le.mp (Char.utf8Size_eq_one_iff.mp h)
  have hbyte : c.val.toUInt8.toNat = c.toNat := by
    rw [UInt32.toNat_toUInt8]
    exact Nat.mod_eq_of_lt (by omega)
  refine ⟨?_, by rw [hbyte, Char.ofNat_toNat]⟩
  rw [UInt8.lt_iff_toNat_lt, hbyte]
  exact Nat.lt_succ_of_le hval

/-- **The first byte of a character is ASCII iff there is no other**: the longer forms all start
with the highest bit set. -/
theorem exists_first_byte (c : Char) :
    ∃ b bs, String.utf8EncodeChar c = b :: bs ∧ (b < 0x80 ↔ c.utf8Size = 1) := by
  by_cases h : c.utf8Size = 1
  · exact ⟨_, _, String.utf8EncodeChar_eq_singleton h, iff_of_true (ofNat_byte h).1 h⟩
  · have hval : ¬ c.val.toNat ≤ 127 := fun hle =>
      h (Char.utf8Size_eq_one_iff.mpr (UInt32.le_iff_toNat_le.mpr hle))
    simp only [String.utf8EncodeChar, if_neg hval]
    split_ifs
    all_goals
      refine ⟨_, _, rfl, iff_of_false ?_ h⟩
      rw [UInt8.lt_iff_toNat_lt, UInt8.toNat_ofNat']
      simp only [UInt8.toNat_ofNat]
      omega

/-! ### Bytes and characters -/

/-- The text starts with `n` characters of one byte each. -/
def StartsAscii (n : Nat) (text : List Char) : Prop :=
  n ≤ text.length ∧ ∀ c ∈ text.take n, c.utf8Size = 1

instance (n : Nat) (text : List Char) : Decidable (StartsAscii n text) :=
  inferInstanceAs (Decidable (_ ∧ _))

private theorem startsAscii_cons {n : Nat} {c : Char} {text : List Char} :
    StartsAscii (n + 1) (c :: text) ↔ c.utf8Size = 1 ∧ StartsAscii n text := by
  simp [StartsAscii, and_left_comm]

/-- **How far bytes and characters are counted alike.** The first `n` bytes are there and are ASCII
iff the first `n` characters are there and are of one byte. By induction on the text, since up to
there each character is a byte. -/
private theorem startsAscii_iff {n : Nat} {text : List Char} :
    StartsAscii n text ↔ n ≤ (bytes text).length ∧ ∀ b ∈ (bytes text).take n, b < 0x80 := by
  induction text generalizing n with
  | nil => simp [StartsAscii, bytes]
  | cons c text ih =>
    cases n with
    | zero => simp [StartsAscii]
    | succ n =>
      rw [startsAscii_cons]
      by_cases hc : c.utf8Size = 1
      · rw [and_iff_right hc, bytes_cons_of_utf8Size hc, List.take_succ_cons, List.forall_mem_cons,
          and_iff_right (ofNat_byte hc).1, List.length_cons, Nat.add_le_add_iff_right, ih]
      · -- the first byte of the character already is not ASCII
        obtain ⟨b, bs, hbytes, hb⟩ := exists_first_byte c
        rw [bytes_cons, hbytes, List.cons_append, List.take_succ_cons, List.forall_mem_cons]
        exact iff_of_false (fun h => hc h.1) fun h => hc (hb.mp h.2.1)

/-- Where bytes and characters are counted alike, a byte is the character of its number, and both
are missing at the same numbers. -/
private theorem getElem?_bytes {n : Nat} {text : List Char} (h : StartsAscii (n + 1) text) :
    (bytes text)[n]?.map (fun b => Char.ofNat b.toNat) = text[n]? := by
  induction text generalizing n with
  | nil => rfl
  | cons c text ih =>
    obtain ⟨hc, htext⟩ := startsAscii_cons.mp h
    rw [bytes_cons_of_utf8Size hc]
    cases n with
    | zero => exact congrArg some (ofNat_byte hc).2
    | succ n => exact ih htext

/-! ### Looking up a byte -/

/-- The byte at an offset as a character, if all bytes up to it are ASCII. -/
def asciiByte? (bs : List UInt8) (offset : Nat) : Option Char :=
  if (bs.take (offset + 1)).all (· < 0x80) then bs[offset]?.map fun b => Char.ofNat b.toNat
  else none

/-- **What is found by its byte offset** is the character of this number, and something is found iff
all characters up to it are of one byte. -/
private theorem asciiByte?_bytes (text : List Char) (n : Nat) :
    asciiByte? (bytes text) n = if StartsAscii (n + 1) text then text[n]? else none := by
  unfold asciiByte?
  simp only [List.all_eq_true, decide_eq_true_eq]
  by_cases h : StartsAscii (n + 1) text
  · rw [if_pos h, if_pos (startsAscii_iff.mp h).2, getElem?_bytes h]
  · rw [if_neg h]
    split_ifs with hbytes
    · have hlength : (bytes text).length ≤ n := by
        by_contra hlt
        exact h (startsAscii_iff.mpr ⟨by omega, hbytes⟩)
      rw [List.getElem?_eq_none hlength]
      rfl
    · rfl

/-- Characters behind the one that is looked for have no say, so their bytes need not be there. This
is what lets a lookup stop at its character. -/
private theorem asciiAt?_eq (text : List Char) (n : Nat) :
    asciiAt? text n = asciiByte? (bytes text) n := by
  have hfront : asciiAt? text n = asciiByte? (bytes (text.take (n + 1))) n := by
    unfold asciiAt? asciiByte?
    rcases hbyte : (bytes (text.take (n + 1)))[n]? with _ | b <;> simp [hbyte]
  have hstarts : StartsAscii (n + 1) (text.take (n + 1)) ↔ StartsAscii (n + 1) text := by
    rw [StartsAscii, StartsAscii, List.take_take, Nat.min_self, List.length_take, Nat.le_min,
      and_iff_right (Nat.le_refl _)]
  rw [hfront, asciiByte?_bytes, asciiByte?_bytes, List.getElem?_take_of_lt (Nat.lt_succ_self n)]
  simp only [hstarts]

end Text

/-- **Looking ahead counts characters**, wherever the cursor stands: what is found is the character
of the given number in the text ahead, or NUL if the text ends before it. It makes no difference
whether the character is looked up by its byte offset in the UTF-8 form of the text ahead: this is
done only where all characters up to it are of one byte, and then finds the same. -/
theorem peek_exact (c : Cursor) (n : Nat) :
    Text.dropBytes c.pos.offset c.source = some c.ahead ∧
      c.peek n = c.ahead.getD n '\x00' ∧
      Text.asciiAt? c.ahead n = Text.asciiByte? (Text.bytes c.ahead) n ∧
      Text.asciiByte? (Text.bytes c.ahead) n =
        if Text.StartsAscii (n + 1) c.ahead then c.ahead[n]? else none := by
  refine ⟨?_, ?_, Text.asciiAt?_eq c.ahead n, Text.asciiByte?_bytes c.ahead n⟩
  · rw [c.offset_pos, Cursor.source, Text.dropBytes_append]
  · rw [List.getD_eq_getElem?_getD, Cursor.peek, Text.asciiAt?_eq, Text.asciiByte?_bytes]
    split_ifs with h
    · have hn : n < c.ahead.length := h.1
      rw [List.getElem?_eq_getElem hn]
      rfl
    · rfl

end Lexis
