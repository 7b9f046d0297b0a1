import TurtleArt.Json.Numeral

/-! The decimal digits of a number, as they are written and read back. -/

namespace TurtleArt.Json.Numeral

variable {n : Nat}

theorem toNat_digitChar_sub {d : Nat} (h : d < 10) : d.digitChar.toNat - '0'.toNat = d :=
  Nat.toNat_digitChar_sub_48_of_lt_ten h

theorem digitsOf_eq_if (n : Nat) :
    digitsOf n = if n < 10 then [n] else digitsOf (n / 10) ++ [n % 10] := by
  unfold digitsOf
  rw [Nat.toDigits_eq_if (b := 10) (by decide)]
  split
  · rename_i h
    rw [List.map_singleton, toNat_digitChar_sub h]
  · rw [List.map_append, List.map_singleton, toNat_digitChar_sub (Nat.mod_lt n (by decide))]

theorem digitsOf_lt (n : Nat) : ∀ d ∈ digitsOf n, d < 10 := by
  induction n using Nat.strongRecOn with
  | ind n ih =>
    intro d hd
    rw [digitsOf_eq_if] at hd
    split at hd
    · rename_i h
      rwa [List.mem_singleton.mp hd]
    · rename_i h
      rcases List.mem_append.mp hd with hd | hd
      · exact ih (n / 10) (by omega) d hd
      · rw [List.mem_singleton.mp hd]
        exact Nat.mod_lt n (by decide)

theorem exists_digitsOf_eq_cons (h : n ≠ 0) : ∃ d ds, digitsOf n = d :: ds ∧ d ≠ 0 := by
  induction n using Nat.strongRecOn with
  | ind n ih =>
    rw [digitsOf_eq_if]
    split
    · exact ⟨n, [], rfl, h⟩
    · obtain ⟨d, ds, hds, hd⟩ := ih (n / 10) (by omega) (by omega)
      exact ⟨d, ds ++ [n % 10], by rw [hds, List.cons_append], hd⟩

theorem exists_digitsOf_of_prefix {ds : List Nat} (h : ds <+: digitsOf n) (nonempty : ds ≠ []) :
    ∃ k, ds = digitsOf k ∧ k ≤ n ∧ (n ≠ 0 → k ≠ 0) := by
  induction n using Nat.strongRecOn with
  | ind n ih =>
    rw [digitsOf_eq_if] at h
    split at h
    · rename_i small
      obtain ⟨d, rest, rfl⟩ := List.exists_cons_of_ne_nil nonempty
      obtain ⟨rfl, hrest⟩ := List.cons_prefix_cons.mp h
      obtain rfl := List.prefix_nil.mp hrest
      exact ⟨d, by rw [digitsOf_eq_if, if_pos small], Nat.le_refl d, id⟩
    · rename_i large
      rcases List.prefix_concat_iff.mp h with rfl | h
      · exact ⟨n, by rw [digitsOf_eq_if n, if_neg large], Nat.le_refl n, id⟩
      · obtain ⟨k, rfl, le, positive⟩ := ih (n / 10) (by omega) h
        exact ⟨k, rfl, by omega, fun _ => positive (by omega)⟩

theorem gather_append {s t : Nat} {ds : List Nat} (h : gather s ds = (t, [])) (es : List Nat) :
    gather s (ds ++ es) = gather t es := by
  induction ds generalizing s with
  | nil =>
    obtain rfl : s = t := congrArg Prod.fst h
    rfl
  | cons d ds ih =>
    rw [gather] at h
    rw [List.cons_append, gather]
    split at h
    · rename_i fits
      rw [if_pos fits]
      exact ih h
    · cases h

theorem gather_digitsOf (h : n < significandLimit) : gather 0 (digitsOf n) = (n, []) := by
  induction n using Nat.strongRecOn with
  | ind n ih =>
    rw [digitsOf_eq_if]
    split
    · simp [gather, h]
    · -- No digits from the left make up more than all of them.
      have front := ih (n / 10) (by omega) (by omega)
      have whole : n / 10 * 10 + n % 10 = n := by omega
      rw [gather_append front, gather, whole, if_pos h, gather]

theorem number?_ofInt {i : Int} (low : -(significandLimit : Int) ≤ 2 * i)
    (high : i < significandLimit) : number? (ofInt i) = some (.integer i) := by
  have fits : i.natAbs < significandLimit := by
    rw [significandLimit] at *
    omega
  rw [number?, ofInt, gather_digitsOf fits]
  by_cases negative : i < 0
  · have room : 0 < i.natAbs ∧ 2 * i.natAbs ≤ significandLimit := by
      rw [significandLimit] at *
      omega
    have value : -(i.natAbs : Int) = i := by omega
    simp only [negative, decide_true, Bool.not_true, Bool.false_eq_true, and_self, if_true,
      if_false, room, value]
  · have value : (i.natAbs : Int) = i := by omega
    simp only [negative, decide_false, Bool.not_false, and_self, if_true, value]

end TurtleArt.Json.Numeral
