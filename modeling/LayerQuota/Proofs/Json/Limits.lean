import LayerQuota.Proofs.Json.Scalar
import Mathlib.Data.List.Infix
import Mathlib.Data.List.TakeWhile
/-!
# Why a reader refuses a numeral or a nesting

A reader that sets no bound to the part before the point refuses a numeral as too long only where the
text has that many digits in a row, and a container as too deep only where the text opens more of
them than it may. What is left behind a part that was read is an end of the text.
-/

namespace LayerQuota.Json

open LayerQuota.Number

/-- What a text has for a problem of size to lie in it, if so many containers may be opened. -/
def Ground (depth : Nat) (cs : List Char) : Problem → Prop
  | .tooLong t => digitLimit < t.digits ∧
    ∃ run, run <:+: cs ∧ run.length = t.digits ∧ ∀ c ∈ run, isAsciiDigit c = true
  | .tooDeep _ => depth < cs.count '\x7b' + cs.count '['
  | _ => True

/-- A part that was read leaves an end of the text; one that was refused has its ground there. -/
def Grounded {α : Type} (depth : Nat) (cs : List Char) : Except Fault (α × List Char) → Prop
  | .ok (_, rest) => rest <:+ cs
  | .error f => Ground depth cs f.problem

section Suffix

variable {α : Type} {depth : Nat} {cs ds rest : List Char}

theorem Ground.of_suffix {p : Problem} (hg : Ground depth ds p) (hs : ds <:+ cs) :
    Ground depth cs p := by
  cases p with
  | tooLong t =>
    obtain ⟨hlong, run, hrun, hlen, hdigit⟩ := hg
    exact ⟨hlong, run, hrun.trans hs.isInfix, hlen, hdigit⟩
  | tooDeep k =>
    have hdeep : depth < ds.count '\x7b' + ds.count '[' := hg
    have hbrace := hs.sublist.count_le '\x7b'
    have hbracket := hs.sublist.count_le '['
    show depth < cs.count '\x7b' + cs.count '['
    omega
  | _ => trivial

/-- The bracket that opens a container is one more. -/
theorem Ground.opened {p : Problem} {b : Char} (hg : Ground depth ds p) (hs : ds <:+ cs)
    (hb : b = '\x7b' ∨ b = '[') : Ground (depth + 1) (b :: cs) p := by
  have hcs := hg.of_suffix hs
  cases p with
  | tooLong t =>
    have hlong : Ground (depth + 1) cs (.tooLong t) := hcs
    exact hlong.of_suffix (List.suffix_cons b cs)
  | tooDeep k =>
    have hdeep : depth < cs.count '\x7b' + cs.count '[' := hcs
    show depth + 1 < (b :: cs).count '\x7b' + (b :: cs).count '['
    rcases hb with rfl | rfl
    · rw [List.count_cons_self, List.count_cons_of_ne (by decide)]
      omega
    · rw [List.count_cons_self, List.count_cons_of_ne (by decide)]
      omega
  | _ => trivial

theorem Grounded.left {r : Except Fault (α × List Char)} {a : α} (hg : Grounded depth ds r)
    (hs : ds <:+ cs) (hr : r = .ok (a, rest)) : rest <:+ cs := by
  subst hr
  exact List.IsSuffix.trans hg hs

theorem Grounded.ground {r : Except Fault (α × List Char)} {f : Fault} (hg : Grounded depth ds r)
    (hs : ds <:+ cs) (hr : r = .error f) : Ground depth cs f.problem := by
  subst hr
  exact Ground.of_suffix hg hs

end Suffix

theorem suffix_of_cons {c : Char} {cs ds : List Char} (h : c :: ds <:+ cs) : ds <:+ cs :=
  (List.suffix_cons c ds).trans h

/-- Where no container may be opened, the bracket of one is ground enough. -/
theorem ground_opened {b : Char} {cs : List Char} (kind : String) (hb : b = '\x7b' ∨ b = '[') :
    Ground 0 (b :: cs) (.tooDeep kind) := by
  show 0 < (b :: cs).count '\x7b' + (b :: cs).count '['
  rcases hb with rfl | rfl
  · rw [List.count_cons_self]
    omega
  · rw [List.count_cons_self]
    omega

theorem skipSpace_suffix (cs : List Char) : skipSpace cs <:+ cs := List.dropWhile_suffix isSpace

/-! ### Strings -/

theorem lowSurrogate?_suffix (cs rest : List Char) (n : Nat)
    (h : lowSurrogate? cs = some (n, rest)) : rest <:+ cs := by
  unfold lowSurrogate? at h
  split at h
  · rename_i a b c d e tail
    split at h
    · split at h
      · cases h
        exact ⟨['\\', 'u', a, b, c, d], rfl⟩
      · cases h
    · cases h
  · cases h

/-- A code point in front changes nothing in what is left. -/
theorem Grounded.single {depth : Nat} {cs ds : List Char} {r : Except Fault (List Nat × List Char)} :
    Grounded depth ds r → ds <:+ cs → ∀ n : Nat, Grounded depth cs (match r with
      | .ok (ns, rest) => .ok (n :: ns, rest)
      | .error f => .error f : Except Fault (List Nat × List Char)) := by
  intro hg hs n
  cases r with
  | ok a => exact hg.left hs rfl
  | error f => exact hg.ground hs rfl

theorem readString_grounded (rules : Rules) (opening fuel depth : Nat) (cs : List Char) :
    Grounded depth cs (readString rules opening fuel cs) := by
  fun_induction readString rules opening fuel cs with
  | case3 fuel rest => exact List.suffix_cons _ rest
  | case6 fuel a b c d e rest n hn hh m rest' hm ns r hr ih₂ ih₁ =>
    have hpair := lowSurrogate?_suffix _ _ m hm
    exact ih₁.left (hpair.trans ⟨['\\', 'u', a, b, c, d], rfl⟩) hr
  | case7 fuel a b c d e rest n hn hh m rest' hm f hr ih₂ ih₁ =>
    have hpair := lowSurrogate?_suffix _ _ m hm
    exact ih₁.ground (hpair.trans ⟨['\\', 'u', a, b, c, d], rfl⟩) hr
  | case8 fuel a b c d e rest n hn single hh hm hu ih =>
    exact ih.single ⟨['\\', 'u', a, b, c, d], rfl⟩ n
  | case11 fuel a b c d e rest n hn single hh hl ih =>
    exact ih.single ⟨['\\', 'u', a, b, c, d], rfl⟩ n
  | case14 fuel c rest hu n hn ns r hr ih => exact ih.left ⟨['\\', c], rfl⟩ hr
  | case15 fuel c rest hu n hn f hr ih => exact ih.ground ⟨['\\', c], rfl⟩ hr
  | case17 fuel c rest hq hend hu hb hc ns r hr ih => exact ih.left (List.suffix_cons c rest) hr
  | case18 fuel c rest hq hend hu hb hc f hr ih => exact ih.ground (List.suffix_cons c rest) hr
  | _ => trivial

/-! ### Numbers -/

theorem spanAsciiDigits_suffix (cs : List Char) : (spanAsciiDigits cs).2 <:+ cs :=
  List.dropWhile_suffix isAsciiDigit

theorem readWhole_run (cs : List Char) :
    (readWhole cs).2 <:+ cs ∧ ∃ run, run <:+: cs ∧ run.length = (readWhole cs).1.length ∧
      ∀ c ∈ run, isAsciiDigit c = true := by
  unfold readWhole
  split
  · rename_i rest
    refine ⟨List.suffix_cons _ rest, ['0'], ⟨[], rest, rfl⟩, rfl, ?_⟩
    exact List.forall_mem_singleton.mpr rfl
  · refine ⟨spanAsciiDigits_suffix cs, cs.takeWhile isAsciiDigit, ?_, ?_, ?_⟩
    · exact (List.takeWhile_prefix isAsciiDigit).isInfix
    · exact (List.length_map _).symm
    · exact fun c hc => List.mem_takeWhile_imp hc

theorem readFraction_suffix (cs : List Char) : (readFraction cs).2 <:+ cs := by
  unfold readFraction
  split
  · rename_i rest
    split
    · exact List.suffix_rfl
    · exact (spanAsciiDigits_suffix rest).trans (List.suffix_cons _ rest)
  · exact List.suffix_rfl

theorem readExponentDigits_suffix (negative : Bool) (cs rest : List Char) (e : Int)
    (h : readExponentDigits negative cs = some (e, rest)) : rest <:+ cs := by
  unfold readExponentDigits at h
  split at h
  · cases h
  · rename_i hspan
    cases h
    have hsuffix := spanAsciiDigits_suffix cs
    rw [hspan] at hsuffix
    exact hsuffix

theorem readExponent?_suffix (cs rest : List Char) (e : Int)
    (h : readExponent? cs = some (e, rest)) : rest <:+ cs := by
  unfold readExponent? at h
  split at h
  · rename_i c tail
    have htail := List.suffix_cons c tail
    split at h
    · split at h
      · rename_i digits
        have hd := readExponentDigits_suffix _ _ _ _ h
        exact (hd.trans (List.suffix_cons _ digits)).trans htail
      · rename_i digits
        have hd := readExponentDigits_suffix _ _ _ _ h
        exact (hd.trans (List.suffix_cons _ digits)).trans htail
      · exact (readExponentDigits_suffix _ _ _ _ h).trans htail
    · cases h
  · cases h

theorem convert_error {ds : List Nat} {t : TooLong} (h : convert ds = .error t) :
    digitLimit < t.digits ∧ t.digits = ds.length := by
  unfold convert at h
  split at h
  · cases h
  · rename_i hlong
    cases h
    exact ⟨Nat.not_le.mp hlong, rfl⟩

theorem readNumber_grounded (rules : Rules) (hr : rules.wholeLength = none) (depth : Nat)
    (cs : List Char) : Grounded depth cs (readNumber rules cs) := by
  unfold readNumber
  split
  rename_i negative body heq
  have hbody : body <:+ cs := by
    split at heq
    · cases heq
      exact ⟨['-'], rfl⟩
    · cases heq
      exact List.suffix_rfl
  obtain ⟨hrest, run, hrun, hlen, hdigit⟩ := readWhole_run body
  split
  · trivial
  · rename_i whole rest hne hwhole
    rw [hwhole] at hrest hlen
    rw [hr]
    simp only [Option.any_none, Bool.false_eq_true, if_false]
    have hfraction := (readFraction_suffix rest).trans (hrest.trans hbody)
    split
    · split
      · exact hfraction
      · rename_i t ht
        obtain ⟨hlong, hdigits⟩ := convert_error ht
        exact ⟨hlong, run, hrun.trans hbody.isInfix, hlen.trans hdigits.symm, hdigit⟩
    · rename_i e rest' he
      exact (readExponent?_suffix _ _ e he).trans hfraction
    · exact hfraction

/-! ### Values -/

/-- What is read inside a container leaves an end of the container's text, and has its ground there
with one container more. -/
theorem Grounded.inside {α : Type} {depth : Nat} {b : Char} {rest : List Char}
    {r : Except Fault (α × List Char)} (hg : Grounded depth (skipSpace rest) r)
    (hb : b = '\x7b' ∨ b = '[') :
    (∀ a left, r = .ok (a, left) → left <:+ b :: rest) ∧
      ∀ f, r = .error f → Ground (depth + 1) (b :: rest) f.problem := by
  have hspace := skipSpace_suffix rest
  refine ⟨fun a left hok => ?_, fun f herror => ?_⟩
  · exact (hg.left hspace hok).trans (List.suffix_cons b rest)
  · exact (hg.ground List.suffix_rfl herror).opened hspace hb

/-- A container that is closed at once leaves an end of its text. -/
theorem closed_suffix {b c : Char} {rest left : List Char} (hc : skipSpace rest = c :: left) :
    left <:+ b :: rest := by
  have hspace := skipSpace_suffix rest
  rw [hc] at hspace
  exact (suffix_of_cons hspace).trans (List.suffix_cons b rest)

section Fuel

variable {rules : Rules} {fuel : Nat}

theorem readValue_grounded (hr : rules.wholeLength = none)
    (hmembers : ∀ depth cs, Grounded depth cs (readMembers rules fuel depth cs))
    (hitems : ∀ depth cs, Grounded depth cs (readItems rules fuel depth cs)) (depth : Nat)
    (cs : List Char) : Grounded depth cs (readValue rules (fuel + 1) depth cs) := by
  unfold readValue
  split
  · rename_i rest
    have hstring := readString_grounded rules ('"' :: rest).length (fuel + 1) depth rest
    split
    · rename_i hs
      exact hstring.left (List.suffix_cons _ rest) hs
    · rename_i hs
      exact hstring.ground (List.suffix_cons _ rest) hs
  · rename_i rest
    split
    · rename_i hclosed
      exact closed_suffix hclosed
    · cases depth with
      | zero => exact ground_opened "object" (.inl rfl)
      | succ depth =>
        have hinside := (hmembers depth (skipSpace rest)).inside (b := '\x7b') (.inl rfl)
        simp only
        split
        · rename_i hs
          exact hinside.1 _ _ hs
        · rename_i hs
          exact hinside.2 _ hs
  · rename_i rest
    split
    · rename_i hclosed
      exact closed_suffix hclosed
    · cases depth with
      | zero => exact ground_opened "array" (.inr rfl)
      | succ depth =>
        have hinside := (hitems depth (skipSpace rest)).inside (b := '[') (.inr rfl)
        simp only
        split
        · rename_i hs
          exact hinside.1 _ _ hs
        · rename_i hs
          exact hinside.2 _ hs
  · exact ⟨"null".toList, rfl⟩
  · exact ⟨"true".toList, rfl⟩
  · exact ⟨"false".toList, rfl⟩
  · exact ⟨"NaN".toList, rfl⟩
  · exact ⟨"Infinity".toList, rfl⟩
  · exact ⟨"-Infinity".toList, rfl⟩
  · exact readNumber_grounded rules hr depth _

theorem readMembers_grounded
    (hvalue : ∀ depth cs, Grounded depth cs (readValue rules fuel depth cs))
    (hmembers : ∀ depth cs, Grounded depth cs (readMembers rules fuel depth cs)) (depth : Nat)
    (cs : List Char) : Grounded depth cs (readMembers rules (fuel + 1) depth cs) := by
  unfold readMembers
  split
  · rename_i rest
    have hstring := readString_grounded rules ('"' :: rest).length (fuel + 1) depth rest
    split
    · rename_i hs
      exact hstring.ground (List.suffix_cons _ rest) hs
    · rename_i key after hs
      have hafter : after <:+ '"' :: rest := hstring.left (List.suffix_cons _ rest) hs
      have hcolon := (skipSpace_suffix after).trans hafter
      split
      · rename_i value hc
        rw [hc] at hcolon
        have hstart := (skipSpace_suffix value).trans (suffix_of_cons hcolon)
        split
        · rename_i hv
          exact (hvalue depth _).ground hstart hv
        · rename_i v behind hv
          have hbehind : behind <:+ '"' :: rest := (hvalue depth _).left hstart hv
          have hnext := (skipSpace_suffix behind).trans hbehind
          split
          · rename_i hend
            rw [hend] at hnext
            exact suffix_of_cons hnext
          · rename_i more hmore
            rw [hmore] at hnext
            have hrest := (skipSpace_suffix more).trans (suffix_of_cons hnext)
            split
            · rename_i hs
              exact (hmembers depth _).left hrest hs
            · rename_i hs
              exact (hmembers depth _).ground hrest hs
          · trivial
      · trivial
  · trivial

theorem readItems_grounded
    (hvalue : ∀ depth cs, Grounded depth cs (readValue rules fuel depth cs))
    (hitems : ∀ depth cs, Grounded depth cs (readItems rules fuel depth cs)) (depth : Nat)
    (cs : List Char) : Grounded depth cs (readItems rules (fuel + 1) depth cs) := by
  unfold readItems
  split
  · rename_i hv
    exact (hvalue depth cs).ground List.suffix_rfl hv
  · rename_i v behind hv
    have hbehind : behind <:+ cs := (hvalue depth cs).left List.suffix_rfl hv
    have hnext := (skipSpace_suffix behind).trans hbehind
    split
    · rename_i hend
      rw [hend] at hnext
      exact suffix_of_cons hnext
    · rename_i more hmore
      rw [hmore] at hnext
      have hrest := (skipSpace_suffix more).trans (suffix_of_cons hnext)
      split
      · rename_i hs
        exact (hitems depth _).left hrest hs
      · rename_i hs
        exact (hitems depth _).ground hrest hs
    · trivial

end Fuel

/-- Values, members and items are read with less fuel from one another, so all three are grounded at
once. -/
theorem read_grounded {rules : Rules} (hr : rules.wholeLength = none) (fuel : Nat) :
    (∀ depth cs, Grounded depth cs (readValue rules fuel depth cs)) ∧
      (∀ depth cs, Grounded depth cs (readMembers rules fuel depth cs)) ∧
        ∀ depth cs, Grounded depth cs (readItems rules fuel depth cs) := by
  induction fuel with
  | zero =>
    refine ⟨fun depth cs => ?_, fun depth cs => ?_, fun depth cs => ?_⟩
    · unfold readValue
      trivial
    · unfold readMembers
      trivial
    · unfold readItems
      trivial
  | succ fuel ih =>
    obtain ⟨hvalue, hmembers, hitems⟩ := ih
    exact ⟨readValue_grounded hr hmembers hitems, readMembers_grounded hvalue hmembers,
      readItems_grounded hvalue hitems⟩

/-- A document is refused for its size only where its text has the ground for it. -/
theorem read_ground {rules : Rules} (hr : rules.wholeLength = none) (s : String) (f : Fault)
    (h : Json.read rules s = .error f) : Ground rules.depth s.toList f.problem := by
  unfold Json.read readChars at h
  split at h
  · cases h
    trivial
  · split at h
    · rename_i hv
      cases h
      exact ((read_grounded hr _).1 _ _).ground (skipSpace_suffix _) hv
    · split at h
      · cases h
      · cases h
        trivial

end LayerQuota.Json
