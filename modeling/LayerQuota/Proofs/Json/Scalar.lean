import LayerQuota.Json.Reader
import LayerQuota.Proofs.Json.Value
/-!
# Strings are texts

A strict reader finds no string with an unpaired surrogate. Each string that it reads, the keys of
objects among them, is therefore the string of a text.
-/

namespace LayerQuota.Json

/-- A string that is made of a text. -/
def Str.IsText (s : Str) : Prop := ∃ t, s = Str.ofString t

/-! ### Strings -/

theorem hexValue?_lt (c : Char) (n : Nat) (h : Text.hexValue? c = some n) : n < 16 := by
  have htoNat : ∀ a b : Char, a ≤ b → a.toNat ≤ b.toNat := fun _ _ hab => hab
  unfold Text.hexValue? at h
  split at h
  · rename_i hc
    have hc' := htoNat _ _ hc.2
    cases h
    have h9 : '9'.toNat = 57 := rfl
    omega
  · split at h
    · rename_i hc
      have hc' := htoNat _ _ hc.2
      cases h
      have hf : 'f'.toNat = 102 := rfl
      omega
    · split at h
      · rename_i hc
        have hc' := htoNat _ _ hc.2
        cases h
        have hF : 'F'.toNat = 70 := rfl
        omega
      · cases h

theorem hexFour?_lt (a b c d : Char) (n : Nat) (h : hexFour? a b c d = some n) : n < 0x10000 := by
  simp only [hexFour?, Option.bind_eq_bind, Option.bind_eq_some_iff, Option.pure_def,
    Option.some.injEq] at h
  obtain ⟨w, hw, x, hx, y, hy, z, hz, rfl⟩ := h
  have hw' := hexValue?_lt a w hw
  have hx' := hexValue?_lt b x hx
  have hy' := hexValue?_lt c y hy
  have hz' := hexValue?_lt d z hz
  omega

theorem escape?_lt (c : Char) (n : Nat) (h : escape? c = some n) : n < 0xD800 := by
  unfold escape? at h
  split at h
  all_goals
    cases h
  all_goals
    decide

theorem lowSurrogate?_low (cs r : List Char) (n : Nat) (h : lowSurrogate? cs = some (n, r)) :
    isLowSurrogate n = true := by
  unfold lowSurrogate? at h
  split at h
  · split at h
    · split at h
      · rename_i hn
        cases h
        exact hn
      · cases h
    · cases h
  · cases h

theorem exists_toNat_joined (high low : Nat) (hh : isHighSurrogate high = true)
    (hl : isLowSurrogate low = true) : ∃ c : Char, c.toNat = joinSurrogates high low := by
  simp only [isHighSurrogate, isLowSurrogate, Bool.and_eq_true, decide_eq_true_eq] at hh hl
  refine exists_toNat_eq _ (.inr ?_)
  unfold joinSurrogates
  omega

theorem exists_toNat_single (n : Nat) (hn : n < 0x10000) (hh : isHighSurrogate n = false)
    (hl : isLowSurrogate n = false) : ∃ c : Char, c.toNat = n := by
  simp only [isHighSurrogate, isLowSurrogate, Bool.and_eq_false_iff, decide_eq_false_iff_not]
    at hh hl
  exact exists_toNat_eq n (by omega)

theorem isText_cons (n : Nat) (ns : List Nat) (hn : ∃ c : Char, c.toNat = n)
    (hns : Str.IsText ⟨ns⟩) : Str.IsText ⟨n :: ns⟩ := by
  obtain ⟨c, rfl⟩ := hn
  obtain ⟨t, ht⟩ := hns
  refine ⟨String.ofList (c :: t.toList), ?_⟩
  unfold Str.ofString at ht ⊢
  rw [String.toList_ofList, List.map_cons]
  cases ht
  rfl

theorem readString_isText (opening fuel : Nat) (cs r : List Char) (ns : List Nat)
    (h : readString .strict opening fuel cs = .ok (ns, r)) : Str.IsText ⟨ns⟩ := by
  have hstrict : Rules.strict.unpaired = false := rfl
  fun_induction readString .strict opening fuel cs generalizing ns r with
  | case3 fuel rest =>
    cases h
    exact ⟨"", rfl⟩
  | case6 fuel a b c d e rest n hn hh m rest' hm ns' r' hr ih₂ ih₁ =>
    -- a surrogate pair
    cases h
    exact isText_cons _ _ (exists_toNat_joined n m hh (lowSurrogate?_low _ _ m hm)) (ih₁ _ _ hr)
  | case8 fuel a b c d e rest n hn single hh hm hu ih =>
    rw [hstrict] at hu
    cases hu
  | case11 fuel a b c d e rest n hn single hh hl ih =>
    -- an escape that is no surrogate
    rcases hr : readString .strict opening fuel (e :: rest) with f | ⟨ns', r'⟩
    · simp only [single, hr] at h
      cases h
    · simp only [single, hr] at h
      cases h
      rw [hstrict] at hl
      have hsingle := exists_toNat_single n (hexFour?_lt a b c d n hn) (by simpa using hh)
        (by simpa using hl)
      exact isText_cons _ _ hsingle (ih _ _ hr)
  | case14 fuel c rest hu n hn ns' r' hr ih =>
    cases h
    exact isText_cons _ _ (exists_toNat_eq n (.inl (escape?_lt c n hn))) (ih _ _ hr)
  | case17 fuel c rest hq hend hu hb hc ns' r' hr ih =>
    cases h
    exact isText_cons _ _ ⟨c, rfl⟩ (ih _ _ hr)
  | _ => cases h

/-! ### Values -/

theorem readNumber_number (rules : Rules) (cs r : List Char) (v : Value)
    (h : readNumber rules cs = .ok (v, r)) : (∃ n, v = .int n) ∨ ∃ x, v = .float x := by
  unfold readNumber at h
  split at h
  rename_i negative body heq
  split at h
  · cases h
  · split at h
    · cases h
    · simp only at h
      split at h
      · split at h
        · cases h
          exact .inl ⟨_, rfl⟩
        · cases h
      · cases h
        exact .inr ⟨_, rfl⟩
      · cases h
        exact .inr ⟨_, rfl⟩

theorem readMembers_strict (fuel depth : Nat) (cs r : List Char) (ms : List (Str × Value))
    (h : readMembers .strict fuel depth cs = .ok (ms, r)) :
    ∀ m ∈ ms, m.1.IsText ∧ ∃ k cs' r', readValue .strict k depth cs' = .ok (m.2, r') := by
  induction fuel generalizing cs r ms with
  | zero =>
    unfold readMembers at h
    cases h
  | succ fuel ih =>
    unfold readMembers at h
    split at h
    · rename_i rest
      split at h
      · cases h
      · rename_i key rest' hkey
        have htext := readString_isText _ _ _ _ _ hkey
        split at h
        · split at h
          · cases h
          · rename_i v rest'' hv
            split at h
            · cases h
              intro m hm
              rw [List.mem_singleton.mp hm]
              exact ⟨htext, _, _, _, hv⟩
            · split at h
              · rename_i ms' r' hms
                cases h
                intro m hm
                rcases List.mem_cons.mp hm with rfl | hm
                · exact ⟨htext, _, _, _, hv⟩
                · exact ih _ _ _ hms m hm
              · cases h
            · cases h
        · cases h
    · cases h

theorem readValue_isText (fuel depth : Nat) (cs r : List Char) (s : Str)
    (h : readValue .strict fuel depth cs = .ok (.str s, r)) : s.IsText := by
  cases fuel with
  | zero =>
    unfold readValue at h
    cases h
  | succ fuel =>
    unfold readValue at h
    split at h
    · split at h
      · rename_i ns r' hs
        cases h
        exact readString_isText _ _ _ _ _ hs
      · cases h
    iterate 2
      split at h
      · cases h
      · split at h
        · cases h
        · split at h
          · cases h
          · cases h
    iterate 6
      cases h
    rcases readNumber_number _ _ _ _ h with ⟨n, hn⟩ | ⟨x, hx⟩
    · cases hn
    · cases hx

theorem readValue_strict (fuel depth : Nat) (cs r : List Char) (ms : List (Str × Value))
    (h : readValue .strict fuel depth cs = .ok (.object ms, r)) :
    ∀ m ∈ ms, m.1.IsText ∧ ∃ k d cs' r', readValue .strict k d cs' = .ok (m.2, r') := by
  have hrepeats : Rules.strict.repeats = true := rfl
  cases fuel with
  | zero =>
    unfold readValue at h
    cases h
  | succ fuel =>
    unfold readValue at h
    split at h
    · split at h
      · cases h
      · cases h
    · split at h
      · cases h
        exact fun m hm => absurd hm List.not_mem_nil
      · split at h
        · cases h
        · split at h
          · rename_i depth' _ _ ms' r' hms
            rw [hrepeats, if_pos rfl] at h
            cases h
            intro m hm
            obtain ⟨htext, k, cs', r', hv⟩ := readMembers_strict _ _ _ _ _ hms m hm
            exact ⟨htext, k, _, cs', r', hv⟩
          · cases h
    · split at h
      · cases h
      · split at h
        · cases h
        · split at h
          · cases h
          · cases h
    iterate 6
      cases h
    rcases readNumber_number _ _ _ _ h with ⟨n, hn⟩ | ⟨x, hx⟩
    · cases hn
    · cases hx

/-! ### Values of a document -/

/-- A value that a strict reader has found in some text. -/
def Value.Found (v : Value) : Prop :=
  ∃ fuel depth cs r, readValue .strict fuel depth cs = .ok (v, r)

theorem found_of_read (s : String) (v : Value) (h : Json.read .strict s = .ok v) : v.Found := by
  unfold Json.read readChars at h
  split at h
  · cases h
  · split at h
    · cases h
    · rename_i v' rest hv
      split at h
      · cases h
        exact ⟨_, _, _, _, hv⟩
      · cases h

namespace Value.Found

theorem isText {s : Str} (h : (Value.str s).Found) : s.IsText := by
  obtain ⟨fuel, depth, cs, r, hread⟩ := h
  exact readValue_isText fuel depth cs r s hread

theorem members {ms : List (Str × Value)} (h : (Value.object ms).Found) :
    ∀ m ∈ ms, m.1.IsText ∧ m.2.Found := by
  obtain ⟨fuel, depth, cs, r, hread⟩ := h
  exact readValue_strict fuel depth cs r ms hread

theorem get? {v w : Value} {k : String} (h : v.Found) (hw : v.get? k = some w) : w.Found := by
  cases v with
  | object ms => exact (h.members _ (getMember_mem _ _ _ hw)).2
  | _ => cases hw

end Value.Found

end LayerQuota.Json
