import LayerQuota.Json.Reader
/-!
# Integers are read back

The decimal digits of a number, with a comma behind them, are read as that number.
-/

namespace LayerQuota.Json

open LayerQuota.Number

theorem isAsciiDigit_of_mem (n : Nat) (c : Char) (h : c ∈ Nat.toDigits 10 n) :
    isAsciiDigit c = true := by
  have hd := Nat.isDigit_of_mem_toDigits (by decide) (by decide) h
  simpa [isAsciiDigit, Char.isDigit, Char.le_def] using hd

theorem ofDigits_toDigits (n : Nat) : ofDigits ((Nat.toDigits 10 n).map asciiDigit) = n := by
  unfold ofDigits
  rw [List.foldl_map]
  exact (Nat.ofDigitChars_eq_foldl).symm.trans Nat.ofDigitChars_ten_toDigits

theorem head?_toDigits (n : Nat) (hn : 0 < n) : (Nat.toDigits 10 n).head? ≠ some '0' := by
  induction n using Nat.strongRecOn with
  | _ n ih =>
    by_cases hlt : n < 10
    · rw [Nat.toDigits_of_lt_base hlt]
      simp only [List.head?_cons, ne_eq, Option.some.injEq, Nat.digitChar_eq_zero]
      omega
    · have hdiv : 0 < n / 10 := by omega
      have hhead := ih (n / 10) (by omega) hdiv
      rw [Nat.toDigits_of_base_le (by decide) (Nat.not_lt.mp hlt)]
      cases hds : Nat.toDigits 10 (n / 10) with
      | nil => exact absurd hds Nat.toDigits_ne_nil
      | cons d ds =>
        rw [hds] at hhead
        exact hhead

theorem spanAsciiDigits_append (ds tail : List Char) (c : Char)
    (hds : ∀ d ∈ ds, isAsciiDigit d = true) (hc : isAsciiDigit c = false) :
    spanAsciiDigits (ds ++ c :: tail) = (ds.map asciiDigit, c :: tail) := by
  unfold spanAsciiDigits
  rw [List.takeWhile_append_of_pos hds, List.dropWhile_append_of_pos hds]
  simp [hc]

theorem readWhole_toDigits (n : Nat) (tail : List Char) :
    readWhole (Nat.toDigits 10 n ++ ',' :: tail) =
      ((Nat.toDigits 10 n).map asciiDigit, ',' :: tail) := by
  rcases Nat.eq_zero_or_pos n with rfl | hn
  · rfl
  · have hspan := spanAsciiDigits_append (Nat.toDigits 10 n) tail ',' (isAsciiDigit_of_mem n) rfl
    have hhead := head?_toDigits n hn
    rw [← hspan]
    cases hds : Nat.toDigits 10 n with
    | nil => exact absurd hds Nat.toDigits_ne_nil
    | cons d ds =>
      rw [hds] at hhead
      rw [List.cons_append, readWhole]
      exact fun rest heq => hhead (by simpa using congrArg List.head? heq)

theorem readNumber_toDigits (n : Nat) (hn : n < 10000000000) (tail : List Char) :
    readNumber .strict (Nat.toDigits 10 n ++ ',' :: tail) = .ok (.int n, ',' :: tail) := by
  have hlen : (Nat.toDigits 10 n).length ≤ 10 :=
    (Nat.length_toDigits_le_iff (by decide) (by decide)).mpr hn
  have hconvert : convert ((Nat.toDigits 10 n).map asciiDigit) = .ok n := by
    unfold convert
    rw [List.length_map, if_pos (Nat.le_trans hlen (by decide)), ofDigits_toDigits]
  have hwhole := readWhole_toDigits n tail
  have hshort : (Rules.strict.wholeLength.any
      (· < (Nat.toDigits 10 n ++ ',' :: tail).length - (',' :: tail).length)) = false := by
    have hdiff : (Nat.toDigits 10 n ++ ',' :: tail).length - (',' :: tail).length ≤ 10 := by
      rw [List.length_append, Nat.add_sub_cancel]
      exact hlen
    simp only [Rules.strict, Option.any_some, decide_eq_false_iff_not, digitLimit]
    omega
  cases hds : Nat.toDigits 10 n with
  | nil => exact absurd hds Nat.toDigits_ne_nil
  | cons d ds =>
    have hd : isAsciiDigit d = true := isAsciiDigit_of_mem n d (by simp [hds])
    have hsign : d ≠ '-' := by
      rintro rfl
      cases hd
    rw [hds] at hwhole hshort hconvert
    unfold readNumber
    split
    · rename_i negative body heq
      split at heq
      · rename_i rest hcons
        exact absurd (List.cons.inj hcons).1 hsign
      · cases heq
        have hfraction : readFraction (',' :: tail) = ([], ',' :: tail) := rfl
        have hexponent : readExponent? (',' :: tail) = none := rfl
        simp only [List.cons_append, List.map_cons] at hwhole hshort hconvert ⊢
        simp only [hwhole, hshort, hfraction, hexponent, hconvert, Bool.false_eq_true, if_false]

end LayerQuota.Json
