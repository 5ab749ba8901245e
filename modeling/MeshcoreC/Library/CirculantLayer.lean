import Mathlib

/-! # A circulant layer over a group of exponent two

Columns of four elements of a group in which every element is its own inverse, with an additive map
`X` that stands for multiplication with the indeterminate of polynomials over the field of two
elements. The circulant matrix with the coefficients `X`, `X + 1`, `1`, `1` and the one with the
coefficients `X³ + X² + X`, `X³ + X + 1`, `X³ + X² + 1`, `X³ + 1` are inverse to each other,
whatever `X` is: no relation between its powers is used. -/

namespace Ciphers

variable {M : Type*} [AddCommGroup M]

/-! ## Exponent two -/

section ExponentTwo

variable (h : ∀ x : M, x + x = 0)

include h

/-- An even multiple vanishes. -/
theorem two_zsmul_eq_zero (x : M) : (2 : ℤ) • x = 0 := by
  rw [two_zsmul, h]

/-- An odd multiple is the element itself. -/
theorem three_zsmul_eq_self (x : M) : (3 : ℤ) • x = x := by
  rw [show (3 : ℤ) = 2 + 1 from rfl, add_zsmul, two_zsmul_eq_zero h, one_zsmul, zero_add]

/-- The next even multiple. -/
theorem four_zsmul_eq_zero (x : M) : (4 : ℤ) • x = 0 := by
  rw [show (4 : ℤ) = 2 * 2 from rfl, mul_zsmul, two_zsmul_eq_zero h]

end ExponentTwo

/-! ## The two layers -/

/-- A column. -/
@[ext]
structure Column (M : Type*) where
  (a b c d : M)

variable (X : M →+ M)

/-- The product with `X³ + X² + X`. -/
def times14 (x : M) : M := X x + X (X x) + X (X (X x))

/-- The product with `X³ + X + 1`. -/
def times11 (x : M) : M := x + X x + X (X (X x))

/-- The product with `X³ + X² + 1`. -/
def times13 (x : M) : M := x + X (X x) + X (X (X x))

/-- The product with `X³ + 1`. -/
def times9 (x : M) : M := x + X (X (X x))

/-- The circulant layer with the small coefficients. -/
def mix (v : Column M) : Column M where
  a := X v.a + (X v.b + v.b) + v.c + v.d
  b := v.a + X v.b + (X v.c + v.c) + v.d
  c := v.a + v.b + X v.c + (X v.d + v.d)
  d := (X v.a + v.a) + v.b + v.c + X v.d

/-- The circulant layer with the large coefficients. -/
def unmix (v : Column M) : Column M where
  a := times14 X v.a + times11 X v.b + times13 X v.c + times9 X v.d
  b := times9 X v.a + times14 X v.b + times11 X v.c + times13 X v.d
  c := times13 X v.a + times9 X v.b + times14 X v.c + times11 X v.d
  d := times11 X v.a + times13 X v.b + times9 X v.c + times14 X v.d

variable {X}

/-- The small coefficients with one product an entry: each entry is changed by the product of its
sum with the next one, and by the sum of the column. -/
theorem mix_eq_sums (h : ∀ x : M, x + x = 0) (a b c d : M) :
    mix X ⟨a, b, c, d⟩ =
      ⟨a + (X (a + b) + (a + b + c + d)), b + (X (b + c) + (a + b + c + d)),
        c + (X (c + d) + (a + b + c + d)), d + (X (d + a) + (a + b + c + d))⟩ := by
  simp only [mix, map_add, Column.mk.injEq]
  refine ⟨?_, ?_, ?_, ?_⟩
  all_goals
    abel_nf
    simp only [two_zsmul_eq_zero h, add_zero]

/-- **The large coefficients undo the small ones.** -/
theorem unmix_mix (h : ∀ x : M, x + x = 0) (v : Column M) : unmix X (mix X v) = v := by
  obtain ⟨a, b, c, d⟩ := v
  simp only [unmix, mix, times14, times11, times13, times9, map_add, Column.mk.injEq]
  refine ⟨?_, ?_, ?_, ?_⟩
  -- off the diagonal every power of `X` comes an even number of times
  all_goals
    abel_nf
    simp only [two_zsmul_eq_zero h, three_zsmul_eq_self h, four_zsmul_eq_zero h, add_zero, zero_add]

/-- **The small coefficients undo the large ones.** -/
theorem mix_unmix (h : ∀ x : M, x + x = 0) (v : Column M) : mix X (unmix X v) = v := by
  obtain ⟨a, b, c, d⟩ := v
  simp only [unmix, mix, times14, times11, times13, times9, map_add, Column.mk.injEq]
  refine ⟨?_, ?_, ?_, ?_⟩
  all_goals
    abel_nf
    simp only [two_zsmul_eq_zero h, three_zsmul_eq_self h, four_zsmul_eq_zero h, add_zero, zero_add]

end Ciphers
