import Lexis.Toml.Number
import Mathlib.Data.Nat.Basic

/-!
# Numerals

Numbers are written without leading zeros, in base ten or sixteen. The digits of a number are those
of its quotient by the base and one more (`toDigits_induction`); from this come what the digits
spell, which characters they are, and which of them comes first.
-/

namespace Lexis

/-- **Numerals grow at their end**: what holds for single digits and is kept when a digit is put
behind a numeral holds for all numerals. -/
theorem toDigits_induction {b : Nat} (hb : 1 < b) {P : Nat → List Char → Prop}
    (single : ∀ d < b, P d [d.digitChar])
    (snoc : ∀ n d, 0 < n → d < b → P n (Nat.toDigits b n) →
      P (b * n + d) (Nat.toDigits b n ++ [d.digitChar])) (n : Nat) :
    P n (Nat.toDigits b n) := by
  induction n using Nat.strongRecOn with
  | _ n ih =>
    rcases Nat.lt_or_ge n b with hlt | hge
    · rw [Nat.toDigits_of_lt_base hlt]
      exact single n hlt
    · have hquotient : n / b < n := Nat.div_lt_self (by omega) hb
      have hpos : 0 < n / b := Nat.div_pos hge (by omega)
      have hn := snoc (n / b) (n % b) hpos (Nat.mod_lt n (by omega)) (ih (n / b) hquotient)
      rwa [Nat.div_add_mod, ← Nat.toDigits_of_base_le hb hge] at hn

/-! ### What digits spell -/

private theorem hexValue?_digitChar : ∀ d < 16, Text.hexValue? d.digitChar = some d := by
  decide

/-- Digits spell the number they were made from. -/
theorem numberIn_toDigits {b : Nat} (hb : 1 < b) (hle : b ≤ 16) (n : Nat) :
    Toml.numberIn b (Nat.toDigits b n) = n := by
  refine toDigits_induction (P := fun n ds => Toml.numberIn b ds = n) hb (fun d hd => ?_)
    (fun n d _ hd ih => ?_) n
  · simp [Toml.numberIn, hexValue?_digitChar d (by omega)]
  · rw [Toml.numberIn] at ih ⊢
    rw [List.foldl_append, ih]
    simp [hexValue?_digitChar d (by omega)]

/-- The hexadecimal digits of a number spell it. -/
theorem hexNumber?_toDigits (n : Nat) : Text.hexNumber? (Nat.toDigits 16 n) = some n := by
  refine toDigits_induction (P := fun n ds => Text.hexNumber? ds = some n) (by decide)
    (fun d hd => ?_) (fun n d _ hd ih => ?_) n
  · simp [Text.hexNumber?, hexValue?_digitChar d hd]
  · rw [Text.hexNumber?] at ih ⊢
    rw [List.foldl_append, ih]
    simp [hexValue?_digitChar d hd]

/-! ### Which characters digits are -/

private theorem digitChar_mem : ∀ d < 16, d.digitChar ∈ "0123456789abcdef".toList := by
  decide

theorem mem_of_mem_toDigits {b n : Nat} (hb : 1 < b) (hle : b ≤ 16) :
    ∀ c ∈ Nat.toDigits b n, c ∈ "0123456789abcdef".toList := by
  refine toDigits_induction (P := fun _ ds => ∀ c ∈ ds, c ∈ "0123456789abcdef".toList) hb
    (fun d hd => ?_) (fun n d _ hd ih => ?_) n
  · rw [List.forall_mem_singleton]
    exact digitChar_mem d (by omega)
  · rw [List.forall_mem_append, List.forall_mem_singleton]
    exact ⟨ih, digitChar_mem d (by omega)⟩

theorem isDigit_toDigits (n : Nat) : ∀ d ∈ Nat.toDigits 10 n, d.isDigit = true := fun _ hd =>
  Nat.isDigit_of_mem_toDigits (by decide) (by decide) hd

/-- The first digit of a number that is not zero is not zero. -/
private theorem head?_toDigits_ne {n : Nat} (h : 0 < n) : (Nat.toDigits 10 n).head? ≠ some '0' := by
  refine toDigits_induction (P := fun n ds => 0 < n → ds.head? ≠ some '0') (by decide)
    (fun d _ hd => ?_) (fun n d hn _ ih _ => ?_) n h
  · simpa using Nat.ne_of_gt hd
  · obtain ⟨c, ds, hds⟩ := List.exists_cons_of_ne_nil (Nat.toDigits_ne_nil (n := n) (b := 10))
    rw [hds] at ih ⊢
    exact ih hn

/-- A numeral starts with a digit, which is zero only in the numeral of zero, and no other character
is mistaken for it. -/
theorem exists_digit_cons (n : Nat) :
    ∃ d ds, Nat.toDigits 10 n = d :: ds ∧ (0 < n → d ≠ '0') ∧
      ∀ c : Char, c.isDigit = false → d ≠ c := by
  obtain ⟨d, ds, hds⟩ := List.exists_cons_of_ne_nil (Nat.toDigits_ne_nil (n := n) (b := 10))
  have hd : d.isDigit = true := isDigit_toDigits n d (by simp [hds])
  refine ⟨d, ds, hds, fun hpos => by simpa [hds] using head?_toDigits_ne hpos, ?_⟩
  rintro c hc rfl
  rw [hd] at hc
  cases hc

end Lexis
