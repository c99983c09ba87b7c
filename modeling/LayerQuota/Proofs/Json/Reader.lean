import LayerQuota.Proofs.Json.Escape
import LayerQuota.Proofs.Json.Numeral
/-!
# Objects are read back

A member is read from its key, a colon and the text of its value, and what follows tells whether it
is the last. Conversely a strict reader finds no key with an unpaired surrogate.
-/

namespace LayerQuota.Json

open LayerQuota.Document

/-! ### Values -/

theorem skipSpace_cons (c : Char) (cs : List Char) (h : isSpace c = false) :
    skipSpace (c :: cs) = c :: cs := by
  simp [skipSpace, h]

theorem skipSpace_newline (level : Nat) (cs : List Char) :
    skipSpace (newline level ++ cs) = skipSpace cs := by
  have hspace : ∀ c ∈ newline level, isSpace c = true := by
    intro c hc
    rcases List.mem_cons.mp hc with rfl | hc
    · rfl
    · rw [(List.mem_replicate.mp hc).2]
      rfl
  exact List.dropWhile_append_of_pos hspace

theorem readValue_string (rules : Rules) (fuel depth : Nat) (s : String) (tail : List Char)
    (hf : s.toList.length < fuel + 1) :
    readValue rules (fuel + 1) depth (stringChars s ++ tail) = .ok (.text s, tail) := by
  have hs := readString_escaped rules (stringChars s ++ tail).length (fuel + 1) s.toList tail hf
  unfold stringChars at hs ⊢
  rw [List.cons_append, List.append_assoc, List.singleton_append] at hs ⊢
  rw [readValue]
  simp only [hs]
  rfl

theorem readValue_toDigits (fuel depth n : Nat) (hn : n < 10000000000) (tail : List Char) :
    readValue .strict (fuel + 1) depth (Nat.toDigits 10 n ++ ',' :: tail) =
      .ok (.int n, ',' :: tail) := by
  have hr := readNumber_toDigits n hn tail
  cases hds : Nat.toDigits 10 n with
  | nil => exact absurd hds Nat.toDigits_ne_nil
  | cons d ds =>
    have hd : Number.isAsciiDigit d = true := isAsciiDigit_of_mem n d (by simp [hds])
    rw [hds] at hr
    rw [List.cons_append] at hr ⊢
    rw [readValue]
    · exact hr
    -- no other value starts with a digit
    all_goals
      intro rest heq
      have hc := (List.cons.inj heq).1
      subst hc
      exact absurd hd (by decide)

theorem readValue_object (fuel depth : Nat) (cs inner tail : List Char) (ms : List (Str × Value))
    (hin : skipSpace cs = inner) (hq : inner.head? = some '"')
    (h : readMembers .strict fuel depth inner = .ok (ms, tail)) :
    readValue .strict (fuel + 1) (depth + 1) ('\x7b' :: cs) = .ok (.object ms, tail) := by
  have hrepeats : Rules.strict.repeats = true := rfl
  cases inner with
  | nil => cases hq
  | cons c inner =>
    have hc : c = '"' := Option.some.inj hq
    subst hc
    rw [readValue]
    simp [hin, h, hrepeats]

theorem readValue_empty (rules : Rules) (fuel depth : Nat) (tail : List Char) :
    readValue rules (fuel + 1) depth ('\x7b' :: '\x7d' :: tail) = .ok (.object [], tail) := rfl

/-! ### Members -/

variable (rules : Rules) (fuel depth : Nat) (k : String) (v : Value) (cs rest tail : List Char)

theorem readMembers_last (hk : k.toList.length < fuel + 1) (hcs : skipSpace cs = cs)
    (hv : readValue rules fuel depth cs = .ok (v, rest)) (hrest : skipSpace rest = '\x7d' :: tail) :
    readMembers rules (fuel + 1) depth (stringChars k ++ ':' :: ' ' :: cs) =
      .ok ([(Str.ofString k, v)], tail) := by
  have hs := readString_escaped rules (stringChars k ++ ':' :: ' ' :: cs).length (fuel + 1) k.toList
    (':' :: ' ' :: cs) hk
  have hspace : skipSpace (' ' :: cs) = cs := hcs
  unfold stringChars at hs ⊢
  rw [List.cons_append, List.append_assoc, List.singleton_append] at hs ⊢
  rw [readMembers]
  simp only [hs, skipSpace_cons ':' _ rfl, hspace, hv, hrest]
  rfl

theorem readMembers_more (ms : List (Str × Value)) (more next : List Char)
    (hk : k.toList.length < fuel + 1) (hcs : skipSpace cs = cs)
    (hv : readValue rules fuel depth cs = .ok (v, rest)) (hrest : skipSpace rest = ',' :: more)
    (hnext : skipSpace more = next) (hmore : readMembers rules fuel depth next = .ok (ms, tail)) :
    readMembers rules (fuel + 1) depth (stringChars k ++ ':' :: ' ' :: cs) =
      .ok ((Str.ofString k, v) :: ms, tail) := by
  have hs := readString_escaped rules (stringChars k ++ ':' :: ' ' :: cs).length (fuel + 1) k.toList
    (':' :: ' ' :: cs) hk
  have hspace : skipSpace (' ' :: cs) = cs := hcs
  unfold stringChars at hs ⊢
  rw [List.cons_append, List.append_assoc, List.singleton_append] at hs ⊢
  rw [readMembers]
  simp only [hs, skipSpace_cons ':' _ rfl, hspace, hv, hrest, hnext, hmore]
  rfl

end LayerQuota.Json
