import LayerQuota.Proofs.Json.Numeral
import LayerQuota.Text.Blank
import Mathlib.Data.List.Forall2
import Mathlib.Data.Nat.Digits.Defs
import Mathlib.Tactic.Ring
/-!
# Runs of digits

A character is a digit for its place among the ten of its script, and no digit is a blank. The
digits that a text starts with are all that stand there, and they have a value by place; the digits
of a number that is written out have the number as theirs.
-/

namespace LayerQuota

/-! ### Digits -/

namespace Text

/-- A character is the digit of a value in some script. -/
def DigitOf (c : Char) (v : Nat) : Prop := ∃ z ∈ zeros, c.toNat = z + v ∧ v < 10

theorem zeros_apart : ∀ a ∈ zeros, ∀ b ∈ zeros, a = b ∨ a + 10 ≤ b ∨ b + 10 ≤ a := by
  decide +kernel

theorem digit?_eq_some_iff (c : Char) (v : Nat) : digit? c = some v ↔ DigitOf c v := by
  unfold digit?
  rw [Option.map_eq_some_iff]
  constructor
  · rintro ⟨z, hz, rfl⟩
    have hin := List.find?_some hz
    simp only [Bool.and_eq_true, decide_eq_true_eq] at hin
    exact ⟨z, List.mem_of_find?_eq_some hz, by omega, by omega⟩
  · rintro ⟨z, hz, hc, hv⟩
    cases hfound : zeros.find? fun a => a ≤ c.toNat && c.toNat < a + 10 with
    | none =>
      have hout := List.find?_eq_none.mp hfound z hz
      simp only [Bool.and_eq_true, decide_eq_true_eq, not_and] at hout
      omega
    | some a =>
      -- The tens of two scripts do not meet, so the ten that is found is the one of the digit.
      have hin := List.find?_some hfound
      simp only [Bool.and_eq_true, decide_eq_true_eq] at hin
      have hapart := zeros_apart a (List.mem_of_find?_eq_some hfound) z hz
      exact ⟨a, rfl, by omega⟩

theorem isDigit_of_digitOf {c : Char} {v : Nat} (h : DigitOf c v) : isDigit c = true := by
  rw [isDigit, (digit?_eq_some_iff c v).mpr h, Option.isSome_some]

theorem digits_not_blank : ∀ z ∈ zeros, ∀ v < 10, isBlank (Char.ofNat (z + v)) = false := by
  decide +kernel

theorem isBlank_of_digitOf {c : Char} {v : Nat} (h : DigitOf c v) : isBlank c = false := by
  obtain ⟨z, hz, hc, hv⟩ := h
  rw [← Char.ofNat_toNat c, hc]
  exact digits_not_blank z hz v hv

theorem digits_plain {digits : List Char} {vs : List Nat} (h : List.Forall₂ DigitOf digits vs) :
    ∀ c ∈ digits, isBlank c = false := by
  induction h with
  | nil => exact fun c hc => absurd hc List.not_mem_nil
  | cons hv _ ih => exact List.forall_mem_cons.mpr ⟨isBlank_of_digitOf hv, ih⟩

end Text

/-! ### Numerals -/

namespace Number

open LayerQuota.Text

/-- The value of a run of digits, by place. -/
theorem ofDigits_eq (vs : List Nat) : ofDigits vs = Nat.ofDigits 10 vs.reverse := by
  have hfold : ∀ n, vs.foldl (fun n d => 10 * n + d) n =
      n * 10 ^ vs.length + Nat.ofDigits 10 vs.reverse := by
    induction vs with
    | nil => simp
    | cons v vs ih =>
      intro n
      rw [List.foldl_cons, ih, Nat.ofDigits_reverse_cons, List.length_cons]
      ring
  simpa [ofDigits] using hfold 0

theorem spanDigits_cons {c : Char} {v : Nat} (h : DigitOf c v) (cs : List Char) :
    spanDigits (c :: cs) = (v :: (spanDigits cs).1, (spanDigits cs).2) := by
  have hdigit := isDigit_of_digitOf h
  have hvalue := (digit?_eq_some_iff c v).mpr h
  simp only [spanDigits, List.takeWhile_cons_of_pos hdigit, List.dropWhile_cons_of_pos hdigit,
    List.filterMap_cons_some hvalue]

theorem spanDigits_of_head (rest : List Char) (h : ∀ c ∈ rest.head?, isDigit c = false) :
    spanDigits rest = ([], rest) := by
  cases rest with
  | nil => rfl
  | cons c cs =>
    have hc : ¬isDigit c = true := by simp [h c rfl]
    simp only [spanDigits, List.takeWhile_cons_of_neg hc, List.dropWhile_cons_of_neg hc,
      List.filterMap_nil]

/-- The digits at the start of a text are all that stand there. -/
theorem spanDigits_eq_iff (cs rest : List Char) (vs : List Nat) :
    spanDigits cs = (vs, rest) ↔ ∃ digits, cs = digits ++ rest ∧ List.Forall₂ DigitOf digits vs ∧
      ∀ c ∈ rest.head?, isDigit c = false := by
  constructor
  · intro h
    induction cs generalizing vs with
    | nil =>
      cases h
      exact ⟨[], rfl, .nil, nofun⟩
    | cons c cs ih =>
      cases hc : digit? c with
      | none =>
        have hdigit : isDigit c = false := by rw [isDigit, hc, Option.isSome_none]
        rw [spanDigits_of_head (c :: cs) (by simpa using hdigit)] at h
        cases h
        exact ⟨[], rfl, .nil, by simpa using hdigit⟩
      | some v =>
        have hv := (digit?_eq_some_iff c v).mp hc
        rw [spanDigits_cons hv] at h
        cases h
        obtain ⟨digits, hcs, hvalues, hhead⟩ := ih (spanDigits cs).1 rfl
        exact ⟨c :: digits, congrArg (c :: ·) hcs, .cons hv hvalues, hhead⟩
  · rintro ⟨digits, rfl, hvalues, hhead⟩
    induction hvalues with
    | nil => exact spanDigits_of_head rest hhead
    | cons hv _ ih => rw [List.cons_append, spanDigits_cons hv, ih]

theorem digitOf_asciiDigit {c : Char} (h : isAsciiDigit c = true) : DigitOf c (asciiDigit c) := by
  simp only [isAsciiDigit, Bool.and_eq_true, decide_eq_true_eq, Char.le_def, UInt32.le_iff_toNat_le]
    at h
  have hlow : 48 ≤ c.toNat := h.1
  have hhigh : c.toNat ≤ 57 := h.2
  exact ⟨48, List.mem_cons_self, by unfold asciiDigit; omega, by unfold asciiDigit; omega⟩

theorem digits_written (n : Nat) :
    List.Forall₂ DigitOf (Nat.toDigits 10 n) ((Nat.toDigits 10 n).map asciiDigit) := by
  rw [List.forall₂_map_right_iff, List.forall₂_same]
  exact fun c hc => digitOf_asciiDigit (Json.isAsciiDigit_of_mem n c hc)

theorem length_written (n : Nat) :
    ((Nat.toDigits 10 n).map asciiDigit).length = (toString n).length := by
  rw [List.length_map, ← Nat.toList_repr, String.length_toList, ← Nat.toString_eq_repr]

theorem ofDigits_written (n : Nat) :
    Nat.ofDigits 10 ((Nat.toDigits 10 n).map asciiDigit).reverse = n := by
  rw [← ofDigits_eq, Json.ofDigits_toDigits]

end Number

end LayerQuota
