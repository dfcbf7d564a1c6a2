/-!
# Byte offsets into a text

Places in a source are counted in bytes of its UTF-8 form, while texts are handled as lists of
characters. `dropBytes` and `takeBytes` cut a text at a byte offset and fail **exactly** when the
offset lies inside a character or past the end; `slice` cuts out a byte range.
-/

namespace Lexis.Text

/-- Number of bytes of a text in UTF-8. -/
def byteLength : List Char → Nat
  | [] => 0
  | c :: text => c.utf8Size + byteLength text

@[simp]
theorem byteLength_nil : byteLength [] = 0 := rfl

@[simp]
theorem byteLength_cons (c : Char) (text : List Char) :
    byteLength (c :: text) = c.utf8Size + byteLength text := rfl

@[simp]
theorem byteLength_append (s t : List Char) :
    byteLength (s ++ t) = byteLength s + byteLength t := by
  induction s with
  | nil => simp
  | cons c s ih => simp only [List.cons_append, byteLength_cons, ih, Nat.add_assoc]

theorem byteLength_eq_zero {text : List Char} : byteLength text = 0 ↔ text = [] := by
  cases text with
  | nil => simp
  | cons c text =>
    have := c.utf8Size_pos
    simp
    omega

/-- The bytes of a text in UTF-8. -/
def bytes (text : List Char) : List UInt8 :=
  text.flatMap String.utf8EncodeChar

/-- The character at a byte offset, if the bytes up to and including it are ASCII. -/
def asciiAt? (text : List Char) (offset : Nat) : Option Char :=
  let front := bytes (text.take (offset + 1))
  match front[offset]? with
  | some b =>
    if (front.take (offset + 1)).all (· < 0x80) then some (Char.ofNat b.toNat) else none
  | none => none

/-- What follows the first `n` bytes, if these end between two characters. -/
def dropBytes : Nat → List Char → Option (List Char)
  | 0, text => some text
  | _ + 1, [] => none
  | n + 1, c :: text =>
    if c.utf8Size ≤ n + 1 then dropBytes (n + 1 - c.utf8Size) text else none

/-- The first `n` bytes, if these end between two characters. -/
def takeBytes : Nat → List Char → Option (List Char)
  | 0, _ => some []
  | _ + 1, [] => none
  | n + 1, c :: text =>
    if c.utf8Size ≤ n + 1 then (takeBytes (n + 1 - c.utf8Size) text).map (c :: ·) else none

/-- The bytes from `start` up to `stop`, if both lie between two characters in this order. -/
def slice (start stop : Nat) (text : List Char) : Option (List Char) :=
  if start ≤ stop then (dropBytes start text).bind (takeBytes (stop - start)) else none

/-- A text can be cut after any of its parts. -/
theorem dropBytes_append (s t : List Char) : dropBytes (byteLength s) (s ++ t) = some t := by
  induction s with
  | nil => cases t <;> rfl
  | cons c s ih =>
    obtain ⟨n, hn⟩ : ∃ n, byteLength (c :: s) = n + 1 :=
      Nat.exists_eq_add_one.mpr (by have := c.utf8Size_pos; simp; omega)
    have hle : c.utf8Size ≤ n + 1 := by rw [← hn]; simp
    have hsub : n + 1 - c.utf8Size = byteLength s := by rw [← hn]; simp
    rw [hn, List.cons_append, dropBytes, if_pos hle, hsub, ih]

/-- The part before a cut is what was in front of it. -/
theorem takeBytes_append (s t : List Char) : takeBytes (byteLength s) (s ++ t) = some s := by
  induction s with
  | nil => cases t <;> rfl
  | cons c s ih =>
    obtain ⟨n, hn⟩ : ∃ n, byteLength (c :: s) = n + 1 :=
      Nat.exists_eq_add_one.mpr (by have := c.utf8Size_pos; simp; omega)
    have hle : c.utf8Size ≤ n + 1 := by rw [← hn]; simp
    have hsub : n + 1 - c.utf8Size = byteLength s := by rw [← hn]; simp
    rw [hn, List.cons_append, takeBytes, if_pos hle, hsub, ih, Option.map_some]

end Lexis.Text
