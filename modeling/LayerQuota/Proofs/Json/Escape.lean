import LayerQuota.Proofs.Json.Value
import LayerQuota.State.Document
/-!
# Strings are read back

Every character of a document's string is written so that reading it gives its code point again,
whatever follows before the closing quote.
-/

namespace LayerQuota.Json

open LayerQuota.Document LayerQuota.Text

variable (rules : Rules) (opening fuel : Nat) (tail r : List Char) (ns : List Nat)

/-! ### One character -/

theorem readString_letter (l : Char) (n : Nat) (hu : l ≠ 'u') (he : escape? l = some n)
    (h : readString rules opening fuel tail = .ok (ns, r)) :
    readString rules opening (fuel + 1) ('\\' :: l :: tail) = .ok (n :: ns, r) := by
  rw [readString]
  · simp only [he, h]
  · exact hu

theorem readString_plain (c : Char) (hq : c ≠ '"') (hb : c ≠ '\\') (hs : ¬c < ' ')
    (h : readString rules opening fuel tail = .ok (ns, r)) :
    readString rules opening (fuel + 1) (c :: tail) = .ok (c.toNat :: ns, r) := by
  rw [readString]
  · simp only [hs, if_false, h]
  · exact hq
  · exact fun hc _ => hb hc
  · exact fun rest hc _ => hb hc
  · exact fun d rest hc _ => hb hc

theorem readString_hex (a b c d e : Char) (n : Nat) (hn : hexFour? a b c d = some n)
    (hlow : isLowSurrogate n = false) (hhigh : isHighSurrogate n = false)
    (h : readString rules opening fuel (e :: tail) = .ok (ns, r)) :
    readString rules opening (fuel + 1) ('\\' :: 'u' :: a :: b :: c :: d :: e :: tail) =
      .ok (n :: ns, r) := by
  rw [readString]
  simp only [hn, hhigh, hlow, h, Bool.false_and, Bool.false_eq_true, if_false]

theorem shortEscape?_eq_some (n : Nat) (l : Char) (h : shortEscape? n = some l) :
    l ≠ 'u' ∧ escape? l = some n := by
  unfold shortEscape? at h
  iterate 7
    split at h
    · rename_i hn
      cases h
      rw [beq_iff_eq] at hn
      subst hn
      exact ⟨by decide, rfl⟩
  cases h

theorem ne_of_shortEscape? (c : Char) (h : shortEscape? c.toNat = none) : c ≠ '"' ∧ c ≠ '\\' := by
  constructor
  · rintro rfl
    cases h
  · rintro rfl
    cases h

/-- A control character is one of the first code points, whose hexadecimal digits name it. -/
theorem hexDigits_control (n : Nat) (h : n < 32) :
    ∃ a b c d, hexDigits 4 n = [a, b, c, d] ∧ hexFour? a b c d = some n ∧
      isHighSurrogate n = false ∧ isLowSurrogate n = false := by
  have hall : ∀ m : Fin 32, hexFour? (hexDigit (m / 16 / 16 / 16 % 16))
      (hexDigit (m / 16 / 16 % 16)) (hexDigit (m / 16 % 16)) (hexDigit (m % 16)) =
        some m.val := by decide
  refine ⟨_, _, _, _, rfl, hall ⟨n, h⟩, ?_, ?_⟩
  · simp only [isHighSurrogate, Bool.and_eq_false_iff, decide_eq_false_iff_not]
    omega
  · simp only [isLowSurrogate, Bool.and_eq_false_iff, decide_eq_false_iff_not]
    omega

theorem readString_escapeChar (c e : Char)
    (h : readString rules opening fuel (e :: tail) = .ok (ns, r)) :
    readString rules opening (fuel + 1) (escapeChar c ++ e :: tail) = .ok (c.toNat :: ns, r) := by
  unfold escapeChar
  cases hs : shortEscape? c.toNat with
  | some l =>
    obtain ⟨hu, he⟩ := shortEscape?_eq_some c.toNat l hs
    exact readString_letter rules opening fuel (e :: tail) r ns l c.toNat hu he h
  | none =>
    obtain ⟨hq, hb⟩ := ne_of_shortEscape? c hs
    by_cases hc : c < ' '
    · obtain ⟨x, y, z, w, hd, hn, hhigh, hlow⟩ := hexDigits_control c.toNat hc
      simp only [hc, if_true, hd, List.cons_append, List.nil_append]
      exact readString_hex rules opening fuel tail r ns x y z w e c.toNat hn hlow hhigh h
    · simp only [hc, if_false, List.cons_append, List.nil_append]
      exact readString_plain rules opening fuel (e :: tail) r ns c hq hb hc h

/-! ### A whole string -/

/-- A string is read back up to its closing quote. -/
theorem readString_escaped (s rest : List Char) (hf : s.length < fuel) :
    readString rules opening fuel (s.flatMap escapeChar ++ '"' :: rest) =
      .ok (s.map Char.toNat, rest) := by
  induction s generalizing fuel with
  | nil =>
    obtain ⟨k, rfl⟩ := Nat.exists_eq_succ_of_ne_zero (Nat.ne_of_gt hf)
    rfl
  | cons c s ih =>
    obtain ⟨k, rfl⟩ := Nat.exists_eq_succ_of_ne_zero (Nat.ne_of_gt (Nat.zero_lt_of_lt hf))
    have hrest := ih k (Nat.lt_of_succ_lt_succ hf)
    rw [List.flatMap_cons, List.append_assoc, List.map_cons]
    -- something follows each character, if only the closing quote
    cases htail : s.flatMap escapeChar ++ '"' :: rest with
    | nil => simp at htail
    | cons e tail =>
      rw [htail] at hrest
      exact readString_escapeChar rules opening k tail rest _ c e hrest

end LayerQuota.Json
