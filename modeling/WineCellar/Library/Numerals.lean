import WineCellar.Library.Split

/-!
# Decimal numerals

The characters of a printed integer, and that `int.tryParse` reads it back when it
has at most 64 bits.
-/

namespace WineCellar.Library

/-! ## The characters -/

def IsNumeral (c : Char) : Prop := c.isDigit ∨ c = '-'

theorem mem_toString {i : ℤ} {c : Char} (h : c ∈ (toString i).toList) : IsNumeral c := by
  have hnat (n : ℕ) {c : Char} (hc : c ∈ n.repr.toList) : c.isDigit := by
    rw [Nat.toList_repr] at hc
    exact Nat.isDigit_of_mem_toDigits (by decide) (by decide) hc
  cases i with
  | ofNat n => exact .inl (hnat n h)
  | negSucc n =>
    rw [show toString (Int.negSucc n) = "-" ++ (n + 1).repr from rfl, String.toList_append] at h
    rcases List.mem_append.mp h with h | h
    · exact .inr (by simpa using h)
    · exact .inl (hnat _ h)

theorem toString_ne_empty (i : ℤ) : toString i ≠ "" := by
  cases i with
  | ofNat n => exact Nat.repr_ne_empty
  | negSucc n =>
    intro h
    have hdash : '-' ∈ ("-" ++ (n + 1).repr).toList := by simp
    rw [show "-" ++ (n + 1).repr = "" from h] at hdash
    simp at hdash

theorem toString_ne_nil (i : ℤ) : (toString i).toList ≠ [] := by
  simpa using toString_ne_empty i

theorem toNat_of_isDigit {c : Char} (h : c.isDigit) : 48 ≤ c.toNat ∧ c.toNat ≤ 57 := by
  simpa [Char.isDigit, Char.le_def, UInt32.le_iff_toNat_le] using h

theorem IsNumeral.not_blank {c : Char} (h : IsNumeral c) : isBlank c = false := by
  rcases h with h | rfl
  · have hrange := toNat_of_isDigit h
    simp [isBlank]
    omega
  · decide

theorem IsNumeral.ne {c d : Char} (h : IsNumeral c) (hd : d.isDigit = false) (hdash : d ≠ '-') :
    c ≠ d := by
  rintro rfl
  rcases h with h | h
  · simp [hd] at h
  · exact hdash h

theorem trimChars_toString (i : ℤ) : trimChars (toString i).toList = (toString i).toList := by
  refine trimChars_eq_self ?_ ?_
  · intro c hc
    exact (mem_toString (List.mem_of_mem_head? hc)).not_blank
  · intro c hc
    exact (mem_toString (List.mem_of_mem_getLast? hc)).not_blank

theorem trim_toString (i : ℤ) : trim (toString i) = toString i := by
  rw [trim, trimChars_toString, String.ofList_toList]

/-! ## The value -/

theorem digitValue_of_isDigit {c : Char} (h : c.isDigit) :
    digitValue 10 c = some (c.toNat - '0'.toNat) := by
  have hrange := toNat_of_isDigit h
  have hvalue : c.toNat - 48 < 10 := by omega
  simp [digitValue, hrange, Option.filter, hvalue]

theorem digitsValue_eq {cs : List Char} (h : ∀ c ∈ cs, c.isDigit) (value : ℕ) :
    digitsValue 10 value cs = some (Nat.ofDigitChars 10 cs value) := by
  induction cs generalizing value with
  | nil => rfl
  | cons c cs ih =>
    obtain ⟨hc, hcs⟩ := List.forall_mem_cons.mp h
    rw [digitsValue, digitValue_of_isDigit hc, Option.bind_some, ih hcs, Nat.ofDigitChars_cons,
      Nat.mul_comm]

/-- Only decimal digits: the branch of the hexadecimal literals is not taken. -/
theorem magnitude_toDigits (negative : Bool) (n : ℕ) :
    magnitude negative (Nat.toDigits 10 n) =
      if negative then if n ≤ 2 ^ 63 then some (-n : ℤ) else none
      else if n < 2 ^ 63 then some (n : ℤ) else none := by
  have hdigits : ∀ c ∈ Nat.toDigits 10 n, c.isDigit := fun c hc =>
    Nat.isDigit_of_mem_toDigits (by decide) (by decide) hc
  have hvalue := digitsValue_eq hdigits 0
  rw [Nat.ofDigitChars_toDigits (by decide) (by decide)] at hvalue
  have hne : Nat.toDigits 10 n ≠ [] := Nat.toDigits_ne_nil
  generalize Nat.toDigits 10 n = cs at hdigits hvalue hne
  unfold magnitude
  split
  · exact absurd rfl hne
  · exact absurd (hdigits 'x' (by simp)) (by decide)
  · exact absurd (hdigits 'X' (by simp)) (by decide)
  · rw [hvalue]
    rfl

/-- The integers of 64 bits. -/
def IsInt64 (i : ℤ) : Prop := -2 ^ 63 ≤ i ∧ i < 2 ^ 63

instance (i : ℤ) : Decidable (IsInt64 i) := inferInstanceAs (Decidable (_ ∧ _))

theorem intTryParse_toString (i : ℤ) :
    intTryParse (toString i) = if IsInt64 i then some i else none := by
  unfold intTryParse
  rw [trimChars_toString]
  cases i with
  | ofNat n =>
    have hchars : (toString (Int.ofNat n)).toList = Nat.toDigits 10 n := Nat.toList_repr
    have hdigits : ∀ c ∈ Nat.toDigits 10 n, c.isDigit := fun c hc =>
      Nat.isDigit_of_mem_toDigits (by decide) (by decide) hc
    have hmagnitude := magnitude_toDigits false n
    rw [hchars]
    generalize Nat.toDigits 10 n = cs at hdigits hmagnitude
    split
    · exact absurd (hdigits '-' (by simp)) (by decide)
    · exact absurd (hdigits '+' (by simp)) (by decide)
    · have hrange : n < 2 ^ 63 ↔ IsInt64 (Int.ofNat n) := by
        simp only [IsInt64, Int.ofNat_eq_natCast]
        omega
      rw [hmagnitude, if_neg (by decide)]
      exact if_congr hrange rfl rfl
  | negSucc n =>
    have hchars : (toString (Int.negSucc n)).toList = '-' :: Nat.toDigits 10 (n + 1) := by
      rw [show toString (Int.negSucc n) = "-" ++ (n + 1).repr from rfl, String.toList_append,
        Nat.toList_repr]
      rfl
    have hrange : n + 1 ≤ 2 ^ 63 ↔ IsInt64 (Int.negSucc n) := by
      simp only [IsInt64, Int.negSucc_eq]
      omega
    rw [hchars]
    simp only [magnitude_toDigits, if_true]
    exact if_congr hrange rfl rfl

end WineCellar.Library
