import Mathlib

/-!
# One's complement sums

Numbers of a fixed width are added with the carry brought round to the low end. In one's complement
zero has two forms, `0` and all ones, so a sum is not determined by its value modulo all ones alone:
`residue` is the form that a sum takes, all ones for a sum that is not `0`.

The largest number is `m`, so that a word of `w` bits has `m = 2 ^ w - 1`.

* `onesSum_eq_residue` — adding word by word gives the residue of the plain sum;
* `residue_fold` — so does bringing the carries of a plain sum round, all at once.
-/

namespace Tun2Socks.Framework

/-- Addition with the end-around carry. -/
def onesAdd (m a b : ℕ) : ℕ := if m < a + b then a + b - m else a + b

/-- The one's complement sum of words. -/
def onesSum (m : ℕ) (words : List ℕ) : ℕ := words.foldl (onesAdd m) 0

/-- The form of a sum: its remainder from `1` to `m`, and `0` only for `0`. -/
def residue (m n : ℕ) : ℕ := if n = 0 then 0 else (n - 1) % m + 1

variable {m : ℕ}

theorem residue_le (n : ℕ) (hm : 0 < m) : residue m n ≤ m := by
  rw [residue]
  split_ifs
  · exact Nat.zero_le m
  · exact Nat.mod_lt _ hm

theorem residue_of_le {n : ℕ} (h : n ≤ m) : residue m n = n := by
  rw [residue]
  split_ifs with hzero
  · exact hzero.symm
  · rw [Nat.mod_eq_of_lt (by omega)]
    omega

theorem residue_eq_zero_iff {n : ℕ} : residue m n = 0 ↔ n = 0 := by
  by_cases hzero : n = 0
  · rw [residue, if_pos hzero]
    exact iff_of_true rfl hzero
  · rw [residue, if_neg hzero]
    exact iff_of_false (Nat.succ_ne_zero _) hzero

/-- Whole rounds do not count. -/
theorem residue_add_mul {n : ℕ} (h : n ≠ 0) (q : ℕ) : residue m (n + m * q) = residue m n := by
  have hsub : n + m * q - 1 = n - 1 + m * q := by omega
  rw [residue, residue, if_neg h, if_neg (by omega), hsub, Nat.add_mul_mod_self_left]

/-- The residue differs from the sum by whole rounds. -/
theorem exists_residue_add_mul (n : ℕ) : ∃ q, n = residue m n + m * q := by
  rw [residue]
  split_ifs with hzero
  · exact ⟨0, hzero⟩
  · have hdiv := Nat.mod_add_div (n - 1) m
    exact ⟨(n - 1) / m, by omega⟩

/-- A word is added to a residue. -/
theorem onesAdd_residue (n : ℕ) {k : ℕ} (hm : 0 < m) (hk : k ≤ m) :
    onesAdd m (residue m n) k = residue m (n + k) := by
  obtain ⟨q, hq⟩ := exists_residue_add_mul (m := m) n
  have hle := residue_le n hm
  have hiff := residue_eq_zero_iff (m := m) (n := n)
  generalize residue m n = r at hq hle hiff
  rw [onesAdd]
  by_cases hzero : r + k = 0
  · have hn : n = 0 := hiff.mp (by omega)
    rw [if_neg (by omega), hn, residue_of_le (by omega)]
    omega
  · have hsum : n + k = r + k + m * q := by omega
    rw [hsum, residue_add_mul hzero]
    split_ifs with hlt
    · have hround : r + k = r + k - m + m * 1 := by omega
      rw [hround, residue_add_mul (by omega), residue_of_le (by omega)]
      omega
    · rw [residue_of_le (by omega)]

/-- **The sum of words** is the residue of their plain sum. -/
theorem onesSum_eq_residue {words : List ℕ} (hm : 0 < m) (h : ∀ k ∈ words, k ≤ m) :
    onesSum m words = residue m words.sum := by
  have hfold : ∀ (words : List ℕ) (n : ℕ), (∀ k ∈ words, k ≤ m) →
      words.foldl (onesAdd m) (residue m n) = residue m (n + words.sum) := by
    intro words
    induction words with
    | nil =>
      intro n _
      rfl
    | cons k _ ih =>
      intro n hwords
      rw [List.foldl_cons, onesAdd_residue n hm (hwords k List.mem_cons_self),
        ih _ fun k hk => hwords k (List.mem_cons_of_mem _ hk), List.sum_cons, Nat.add_assoc]
  rw [onesSum]
  have hsum := hfold words 0 h
  rwa [Nat.zero_add] at hsum

/-- **Bringing the carries round** keeps the residue. -/
theorem residue_fold (n : ℕ) : residue m (n % (m + 1) + n / (m + 1)) = residue m n := by
  have hdiv : n = n % (m + 1) + n / (m + 1) + m * (n / (m + 1)) := by
    have hdiv := Nat.mod_add_div n (m + 1)
    rw [Nat.add_mul, Nat.one_mul] at hdiv
    omega
  by_cases h : n % (m + 1) + n / (m + 1) = 0
  · obtain ⟨-, hcarry⟩ := Nat.add_eq_zero_iff.mp h
    have hn : n = 0 := by
      rw [h, hcarry] at hdiv
      exact hdiv
    rw [h, hn]
  · calc residue m (n % (m + 1) + n / (m + 1))
        = residue m (n % (m + 1) + n / (m + 1) + m * (n / (m + 1))) := (residue_add_mul h _).symm
      _ = residue m n := by rw [← hdiv]

end Tun2Socks.Framework
