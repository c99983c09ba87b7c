import LayerQuota.Proofs.Config.Accepted
import LayerQuota.Proofs.Number.Digits
import Mathlib.Tactic.IntervalCases
/-!
# The grammar of sizes

A text is a size just where it is digits and at most one unit letter after them, with blanks around
both and nowhere else. Digits of any script count by their place among their ten, the letter counts
in either case, and a numeral that is too long is told from a text that is no size at all.
-/

namespace LayerQuota

/-! ### Trimming -/

namespace Text

theorem trimList_shape (p : Char → Bool) (cs : List Char) :
    ∃ front back, cs = front ++ trimList p cs ++ back ∧ (∀ c ∈ front, p c = true) ∧
      ∀ c ∈ back, p c = true := by
  refine ⟨cs.takeWhile p, (cs.dropWhile p).rtakeWhile p, ?_, fun c => List.mem_takeWhile_imp,
    fun c => List.mem_rtakeWhile_imp⟩
  rw [trimList_eq, List.append_assoc, List.rdropWhile_append_rtakeWhile,
    List.takeWhile_append_dropWhile]

theorem dropWhile_between (p : Char → Bool) (front middle back : List Char)
    (hfront : ∀ c ∈ front, p c = true) (hmiddle : ∀ c ∈ middle, p c = false) (hne : middle ≠ []) :
    (front ++ middle ++ back).dropWhile p = middle ++ back := by
  obtain ⟨c, cs, rfl⟩ := List.exists_cons_of_ne_nil hne
  have hc : ¬p c = true := by simp [hmiddle c List.mem_cons_self]
  rw [List.append_assoc, List.dropWhile_append_of_pos hfront, List.cons_append,
    List.dropWhile_cons_of_neg hc]

/-- What stands between blanks is kept whole if it holds none. -/
theorem trimList_between (p : Char → Bool) (front middle back : List Char)
    (hfront : ∀ c ∈ front, p c = true) (hback : ∀ c ∈ back, p c = true)
    (hmiddle : ∀ c ∈ middle, p c = false) (hne : middle ≠ []) :
    trimList p (front ++ middle ++ back) = middle := by
  have hrest : (back.reverse ++ middle.reverse ++ []).dropWhile p = middle.reverse ++ [] :=
    dropWhile_between p back.reverse middle.reverse []
      (fun c hc => hback c (List.mem_reverse.mp hc))
      (fun c hc => hmiddle c (List.mem_reverse.mp hc)) (by simpa using hne)
  unfold trimList
  rw [dropWhile_between p front middle back hfront hmiddle hne, List.reverse_append]
  rw [List.append_nil, List.append_nil] at hrest
  rw [hrest, List.reverse_reverse]

end Text

/-! ### Units -/

namespace Size

open LayerQuota.Text LayerQuota.Number

/-- The unit letters, in the order of the powers of 1024 that they stand for. -/
def letters : List Char := ['k', 'm', 'g', 't', 'p', 'e']

/-- A character is a letter in one of its cases. The Kelvin sign is an upper-case k. -/
def CaseOf (letter c : Char) : Prop :=
  c = letter ∨ c = letter.toUpper ∨ letter = 'k' ∧ c = '\u212A'

instance (letter c : Char) : Decidable (CaseOf letter c) :=
  inferInstanceAs (Decidable (_ ∨ _ ∨ _ ∧ _))

/-- What may stand behind the digits of a size, with the power of 1024 that it stands for. -/
inductive Suffix : List Char → Nat → Prop
  | bare : Suffix [] 0
  | letter {l c : Char} {j : Nat} : letters[j]? = some l → CaseOf l c → Suffix [c] (j + 1)

theorem unit?_eq_some_iff (c : Char) (j : Nat) : unit? c = some j ↔ Suffix [c] j := by
  constructor
  · intro h
    unfold unit? at h
    split at h
    all_goals cases h
    all_goals exact .letter rfl (by decide)
  · intro h
    cases h with
    | @letter l _ j hl hc =>
      have hj : j < 6 := (List.getElem?_eq_some_iff.mp hl).1
      interval_cases j
      all_goals
        cases hl
        rcases hc with rfl | rfl | ⟨hk, rfl⟩
      all_goals first | rfl | cases hk

theorem Suffix.plain {unit : List Char} {j : Nat} (h : Suffix unit j) :
    ∀ c ∈ unit, isBlank c = false ∧ isDigit c = false := by
  cases h with
  | bare => exact fun c hc => absurd hc List.not_mem_nil
  | @letter l c j hl hcase =>
    intro d hd
    obtain rfl := List.mem_singleton.mp hd
    have hunit := (unit?_eq_some_iff d (j + 1)).mpr (.letter hl hcase)
    unfold unit? at hunit
    split at hunit
    all_goals first | exact ⟨rfl, rfl⟩ | cases hunit

/-! ### Parsing -/

theorem split?_eq_some_iff (cs : List Char) (vs : List Nat) (j : Nat) :
    split? cs = some (vs, j) ↔ ∃ digits unit, cs = digits ++ unit ∧ vs ≠ [] ∧
      List.Forall₂ DigitOf digits vs ∧ Suffix unit j := by
  constructor
  · intro h
    cases hspan : spanDigits cs with
    | mk ds rest =>
      obtain ⟨digits, rfl, hvalues, -⟩ := (spanDigits_eq_iff cs rest ds).mp hspan
      unfold split? at h
      rw [hspan] at h
      cases ds with
      | nil => cases h
      | cons d ds =>
        match rest, h with
        | [], h =>
          cases h
          exact ⟨digits, [], rfl, List.cons_ne_nil d ds, hvalues, .bare⟩
        | [c], h =>
          obtain ⟨k, hk, heq⟩ := Option.map_eq_some_iff.mp h
          cases heq
          exact ⟨digits, [c], rfl, List.cons_ne_nil d ds, hvalues, (unit?_eq_some_iff c j).mp hk⟩
        | _ :: _ :: _, h => cases h
  · rintro ⟨digits, unit, rfl, hne, hvalues, hsuffix⟩
    have hspan : spanDigits (digits ++ unit) = (vs, unit) :=
      (spanDigits_eq_iff _ _ _).mpr ⟨digits, rfl, hvalues, fun c hc =>
        (hsuffix.plain c (List.mem_of_mem_head? hc)).2⟩
    obtain ⟨v, vs, rfl⟩ := List.exists_cons_of_ne_nil hne
    unfold split?
    rw [hspan]
    cases hsuffix with
    | bare => rfl
    | letter hl hcase =>
      simp only [(unit?_eq_some_iff _ _).mpr (.letter hl hcase), Option.map_some]

/-- A text spells a size: digits of these values and a unit that stands for this power of 1024,
with nothing but blanks around them. -/
def Spells (s : String) (vs : List Nat) (j : Nat) : Prop :=
  ∃ front digits unit back, s.toList = front ++ (digits ++ unit) ++ back ∧
    (∀ c ∈ front, isBlank c = true) ∧ (∀ c ∈ back, isBlank c = true) ∧
    vs ≠ [] ∧ List.Forall₂ DigitOf digits vs ∧ Suffix unit j

theorem split?_trimmed_iff (s : String) (vs : List Nat) (j : Nat) :
    split? (trimList isBlank s.toList) = some (vs, j) ↔ Spells s vs j := by
  rw [split?_eq_some_iff]
  constructor
  · rintro ⟨digits, unit, htrim, hne, hvalues, hsuffix⟩
    obtain ⟨front, back, hs, hfront, hback⟩ := trimList_shape isBlank s.toList
    exact ⟨front, digits, unit, back, htrim ▸ hs, hfront, hback, hne, hvalues, hsuffix⟩
  · rintro ⟨front, digits, unit, back, hs, hfront, hback, hne, hvalues, hsuffix⟩
    refine ⟨digits, unit, ?_, hne, hvalues, hsuffix⟩
    have hplain : ∀ c ∈ digits ++ unit, isBlank c = false := by
      intro c hc
      rcases List.mem_append.mp hc with hc | hc
      · exact digits_plain hvalues c hc
      · exact (hsuffix.plain c hc).1
    have hsome : digits ++ unit ≠ [] := by
      rintro hnil
      obtain ⟨rfl, -⟩ := List.append_eq_nil_iff.mp hnil
      exact hne (List.forall₂_nil_left_iff.mp hvalues)
    rw [hs, trimList_between isBlank front (digits ++ unit) back hfront hback hplain hsome]

theorem parse_of_spells {s : String} {vs : List Nat} {j : Nat} (h : Spells s vs j) :
    parse s = if vs.length ≤ digitLimit then .ok (Nat.ofDigits 10 vs.reverse * 1024 ^ j)
      else .error (.tooLong ⟨vs.length⟩) := by
  unfold parse
  rw [(split?_trimmed_iff s vs j).mpr h]
  simp only [convert, ofDigits_eq]
  by_cases hlen : vs.length ≤ digitLimit
  · rw [if_pos hlen, if_pos hlen]
    rfl
  · rw [if_neg hlen, if_neg hlen]

theorem parse_of_not_spells {s : String} (h : ¬∃ vs j, Spells s vs j) :
    parse s = .error (.malformed s) := by
  unfold parse
  cases hsplit : split? (trimList isBlank s.toList) with
  | none => rfl
  | some r => exact absurd ⟨r.1, r.2, (split?_trimmed_iff s r.1 r.2).mp hsplit⟩ h

theorem parse_eq_ok_iff (s : String) (n : Nat) :
    parse s = .ok n ↔ ∃ vs j, Spells s vs j ∧ vs.length ≤ digitLimit ∧
      n = Nat.ofDigits 10 vs.reverse * 1024 ^ j := by
  constructor
  · intro h
    by_cases hspells : ∃ vs j, Spells s vs j
    · obtain ⟨vs, j, hs⟩ := hspells
      rw [parse_of_spells hs] at h
      split at h
      · rename_i hlen
        cases h
        exact ⟨vs, j, hs, hlen, rfl⟩
      · cases h
    · rw [parse_of_not_spells hspells] at h
      cases h
  · rintro ⟨vs, j, hs, hlen, rfl⟩
    rw [parse_of_spells hs, if_pos hlen]

example : parse " 1\u0663\u212A\n" = .ok (13 * 1024) := by decide +kernel

/-- Why a text is refused: its numeral is too long, or it is no size at all. -/
theorem parse_eq_error (s : String) (e : SizeError) (h : parse s = .error e) :
    (∃ vs j, Spells s vs j ∧ digitLimit < vs.length ∧ e = .tooLong ⟨vs.length⟩) ∨
      (¬∃ vs j, Spells s vs j) ∧ e = .malformed s := by
  by_cases hspells : ∃ vs j, Spells s vs j
  · obtain ⟨vs, j, hs⟩ := hspells
    rw [parse_of_spells hs] at h
    split at h
    · cases h
    · rename_i hlen
      cases h
      exact .inl ⟨vs, j, hs, Nat.not_le.mp hlen, rfl⟩
  · rw [parse_of_not_spells hspells] at h
    cases h
    exact .inr ⟨hspells, rfl⟩

/-! ### Numbers written out -/

theorem spells_written (n : Nat) {unit : List Char} {j : Nat} (h : Suffix unit j) :
    Spells (toString n ++ String.ofList unit) ((Nat.toDigits 10 n).map asciiDigit) j := by
  refine ⟨[], Nat.toDigits 10 n, unit, [], ?_, nofun, nofun, ?_, ?_, h⟩
  · simp [Nat.toString_eq_repr]
  · simp
  · exact digits_written n

theorem parse_written (n : Nat) {unit : List Char} {j : Nat} (h : Suffix unit j)
    (hn : (toString n).length ≤ digitLimit) :
    parse (toString n ++ String.ofList unit) = .ok (n * 1024 ^ j) := by
  refine (parse_eq_ok_iff _ _).mpr ⟨_, j, spells_written n h, ?_, ?_⟩
  · rwa [length_written]
  · rw [ofDigits_written]

/-! ### The field of a document -/

/-- A field for a size takes a string if it is a text that spells a size. A string that is no text,
having an unpaired surrogate, is refused as one that spells none. -/
theorem field_takes (p : Json.Str) :
    (∃ s vs j, p.toString? = some s ∧ Spells s vs j ∧ vs.length ≤ digitLimit ∧
      Config.size (.str p) = .valid (trim s)) ∨
      (¬∃ s vs j, p.toString? = some s ∧ Spells s vs j ∧ vs.length ≤ digitLimit) ∧
        ∃ m, Config.size (.str p) = .fail (.condition m) (.str p) := by
  cases hp : p.toString? with
  | none =>
    refine .inr ⟨nofun, SizeError.malformedMessage p.points, ?_⟩
    simp only [Config.size, Field.string, Checked.andThen, hp]
  | some s =>
    cases h : parse s with
    | ok n =>
      obtain ⟨vs, j, hs, hlen, -⟩ := (parse_eq_ok_iff s n).mp h
      refine .inl ⟨s, vs, j, rfl, hs, hlen, ?_⟩
      simp only [Config.size, Field.string, Checked.andThen, hp, h]
    | error e =>
      refine .inr ⟨?_, e.message, ?_⟩
      · rintro ⟨_, vs, j, ⟨⟩, hs, hlen⟩
        have hok := (parse_eq_ok_iff s _).mpr ⟨vs, j, hs, hlen, rfl⟩
        rw [h] at hok
        cases hok
      · simp only [Config.size, Field.string, Checked.andThen, hp, h]

/-- A text is parsed as a size just where it spells one with at most 4300 digits, of any scripts,
and its value is that of the digits times the power of 1024 of its unit. Any other text is refused
as a bad value, for its length if that is all that is wrong with it. A number that is written out
with a unit is read back, and a field takes the strings that are such texts. -/
theorem parse_grammar (s : String) :
    (∀ n, parse s = .ok n ↔ ∃ vs j, Spells s vs j ∧ vs.length ≤ 4300 ∧
        n = Nat.ofDigits 10 vs.reverse * 1024 ^ j) ∧
      ((¬∃ vs j, Spells s vs j ∧ vs.length ≤ 4300) → ∃ e, parse s = .error e ∧
        (Failure.size e).isBadValue = true) ∧
      (∀ e, parse s = .error e →
        (∃ vs j, Spells s vs j ∧ 4300 < vs.length ∧ e = .tooLong ⟨vs.length⟩) ∨
          (¬∃ vs j, Spells s vs j) ∧ e = .malformed s) ∧
      (∀ n unit j, Suffix unit j → (toString n).length ≤ 4300 →
        parse (toString n ++ String.ofList unit) = .ok (n * 1024 ^ j)) ∧
      ∀ p : Json.Str,
        (∃ t vs j, p.toString? = some t ∧ Spells t vs j ∧ vs.length ≤ 4300 ∧
          Config.size (.str p) = .valid (trim t)) ∨
        (¬∃ t vs j, p.toString? = some t ∧ Spells t vs j ∧ vs.length ≤ 4300) ∧
          ∃ m, Config.size (.str p) = .fail (.condition m) (.str p) := by
  refine ⟨parse_eq_ok_iff s, fun hnone => ?_, parse_eq_error s, fun n _ _ => parse_written n,
    field_takes⟩
  cases h : parse s with
  | error e => exact ⟨e, rfl, rfl⟩
  | ok n =>
    obtain ⟨vs, j, hs, hlen, -⟩ := (parse_eq_ok_iff s n).mp h
    exact absurd ⟨vs, j, hs, hlen⟩ hnone

end Size

end LayerQuota
