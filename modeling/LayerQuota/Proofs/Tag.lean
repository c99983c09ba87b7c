import LayerQuota.Launch
import LayerQuota.Proofs.Number.Digits
import Mathlib.Data.List.TakeWhile
/-!
# The report that counts

A report of a project ID is the word, an equals sign with nothing but blanks around it, and all the
digits that stand behind. The first report of a text is the one that is read: what only begins like
a report is passed over, and its digits are taken to the end of their run. A directory is read by
the first report of what the tool wrote, even if that is in the path of the directory.
-/

namespace LayerQuota

namespace Text

theorem dropWhile_eq_iff (p : Char → Bool) (cs rest : List Char) :
    cs.dropWhile p = rest ↔ ∃ front, cs = front ++ rest ∧ (∀ c ∈ front, p c = true) ∧
      ∀ c ∈ rest.head?, p c = false := by
  constructor
  · rintro rfl
    refine ⟨cs.takeWhile p, List.takeWhile_append_dropWhile.symm,
      fun c => List.mem_takeWhile_imp, fun c hc => ?_⟩
    have hhead := List.head?_dropWhile_not p cs
    rw [Option.mem_def.mp hc] at hhead
    simpa using hhead
  · rintro ⟨front, rfl, hfront, hrest⟩
    rw [List.dropWhile_append_of_pos hfront]
    cases rest with
    | nil => rfl
    | cons c rest => exact List.dropWhile_cons_of_neg (by simp [hrest c rfl])

end Text

namespace Tag

open LayerQuota.Text LayerQuota.Number

/-! ### Reports -/

/-- A text starts with a report of these digits. -/
def Starts (cs : List Char) (vs : List Nat) : Prop :=
  ∃ before after digits rest,
    cs = "projid".toList ++ before ++ ['='] ++ after ++ digits ++ rest ∧
    (∀ c ∈ before, isBlank c = true) ∧ (∀ c ∈ after, isBlank c = true) ∧
    vs ≠ [] ∧ List.Forall₂ DigitOf digits vs ∧ ∀ c ∈ rest.head?, isDigit c = false

/-- A report of these digits stands in a text, behind `front`. -/
def ReportAt (cs front : List Char) (vs : List Nat) : Prop :=
  ∃ back, cs = front ++ back ∧ Starts back vs

/-- No report of a text starts earlier than the one of these digits. -/
def FirstReport (cs : List Char) (vs : List Nat) : Prop :=
  ∃ front, ReportAt cs front vs ∧
    ∀ earlier ws, ReportAt cs earlier ws → front.length ≤ earlier.length

theorem Starts.word_prefix {cs : List Char} {vs : List Nat} (h : Starts cs vs) : word <+: cs := by
  obtain ⟨before, after, digits, rest, rfl, -⟩ := h
  exact ⟨before ++ ['='] ++ after ++ digits ++ rest, by simp [word]⟩

theorem sign_behind_iff (cs rest : List Char) :
    cs.dropWhile isBlank = '=' :: rest ↔
      ∃ before, cs = before ++ '=' :: rest ∧ ∀ c ∈ before, isBlank c = true := by
  rw [dropWhile_eq_iff]
  constructor
  · rintro ⟨before, hcs, hbefore, -⟩
    exact ⟨before, hcs, hbefore⟩
  · rintro ⟨before, hcs, hbefore⟩
    refine ⟨before, hcs, hbefore, ?_⟩
    rintro _ ⟨⟩
    decide

/-- Blanks in front of a run of digits are skipped, and no digit is. -/
theorem digits_behind_iff (cs rest : List Char) (vs : List Nat) (hvs : vs ≠ []) :
    spanDigits (cs.dropWhile isBlank) = (vs, rest) ↔
      ∃ after digits, cs = after ++ digits ++ rest ∧ (∀ c ∈ after, isBlank c = true) ∧
        List.Forall₂ DigitOf digits vs ∧ ∀ c ∈ rest.head?, isDigit c = false := by
  rw [spanDigits_eq_iff]
  constructor
  · rintro ⟨digits, hdrop, hvalues, hrest⟩
    obtain ⟨after, hcs, hafter, -⟩ := (dropWhile_eq_iff _ _ _).mp hdrop
    exact ⟨after, digits, by rw [hcs, List.append_assoc], hafter, hvalues, hrest⟩
  · rintro ⟨after, digits, rfl, hafter, hvalues, hrest⟩
    refine ⟨digits, (dropWhile_eq_iff _ _ _).mpr ⟨after, List.append_assoc .., hafter, ?_⟩,
      hvalues, hrest⟩
    cases hvalues with
    | nil => exact absurd rfl hvs
    | cons hv _ =>
      rintro _ ⟨⟩
      exact isBlank_of_digitOf hv

theorem starts_of_digitsAt? {cs : List Char} {vs : List Nat} (h : digitsAt? cs = some vs) :
    Starts cs vs := by
  unfold digitsAt? at h
  split at h
  · rename_i hword
    obtain ⟨tail, rfl⟩ := List.isPrefixOf_iff_prefix.mp hword
    rw [List.drop_left] at h
    split at h
    · rename_i rest hsign
      obtain ⟨before, rfl, hbefore⟩ := (sign_behind_iff tail rest).mp hsign
      cases hspan : spanDigits (rest.dropWhile isBlank) with
      | mk ds rest' =>
        rw [hspan] at h
        cases ds with
        | nil => cases h
        | cons d ds =>
          cases h
          obtain ⟨after, digits, rfl, hafter, hvalues, hrest⟩ :=
            (digits_behind_iff rest rest' _ (List.cons_ne_nil d ds)).mp hspan
          exact ⟨before, after, digits, rest', by simp [word], hbefore, hafter,
            List.cons_ne_nil d ds, hvalues, hrest⟩
    · cases h
  · cases h

theorem Starts.digitsAt?_eq {cs : List Char} {vs : List Nat} (h : Starts cs vs) :
    digitsAt? cs = some vs := by
  have hword := List.isPrefixOf_iff_prefix.mpr h.word_prefix
  obtain ⟨before, after, digits, rest, rfl, hbefore, hafter, hvs, hvalues, hrest⟩ := h
  have hsign := (sign_behind_iff (before ++ '=' :: (after ++ digits ++ rest)) _).mpr
    ⟨before, rfl, hbefore⟩
  have hspan := (digits_behind_iff (after ++ digits ++ rest) rest vs hvs).mpr
    ⟨after, digits, rfl, hafter, hvalues, hrest⟩
  have hshape : "projid".toList ++ before ++ ['='] ++ after ++ digits ++ rest =
      word ++ (before ++ '=' :: (after ++ digits ++ rest)) := by simp [word]
  obtain ⟨v, vs, rfl⟩ := List.exists_cons_of_ne_nil hvs
  unfold digitsAt?
  rw [if_pos hword, hshape, List.drop_left, hsign]
  simp only [hspan]

theorem Starts.unique {cs : List Char} {vs ws : List Nat} (hv : Starts cs vs) (hw : Starts cs ws) :
    vs = ws := Option.some.inj (hv.digitsAt?_eq.symm.trans hw.digitsAt?_eq)

/-! ### The first report -/

theorem FirstReport.unique {cs : List Char} {vs ws : List Nat} (hv : FirstReport cs vs)
    (hw : FirstReport cs ws) : vs = ws := by
  obtain ⟨front, ⟨back, hcs, hback⟩, hleast⟩ := hv
  obtain ⟨front', ⟨back', hcs', hback'⟩, hleast'⟩ := hw
  have hlength : front.length = front'.length :=
    Nat.le_antisymm (hleast front' ws ⟨back', hcs', hback'⟩)
      (hleast' front vs ⟨back, hcs, hback⟩)
  obtain ⟨rfl, rfl⟩ := List.append_inj (hcs.symm.trans hcs') hlength
  exact hback.unique hback'

theorem not_reportAt_nil (front : List Char) (vs : List Nat) : ¬ReportAt [] front vs := by
  rintro ⟨back, hnil, hback⟩
  obtain ⟨-, rfl⟩ := List.append_eq_nil_iff.mp hnil.symm
  exact absurd (List.prefix_nil.mp hback.word_prefix) (by decide)

theorem Starts.firstReport {cs : List Char} {vs : List Nat} (h : Starts cs vs) :
    FirstReport cs vs := ⟨[], ⟨cs, rfl, h⟩, fun _ _ _ => Nat.zero_le _⟩

/-- Where no report starts, those of the text are those of its rest. -/
theorem reportAt_cons {c : Char} {cs front : List Char} {vs : List Nat}
    (hno : ∀ ws, ¬Starts (c :: cs) ws) (h : ReportAt (c :: cs) front vs) :
    ∃ front', front = c :: front' ∧ ReportAt cs front' vs := by
  obtain ⟨back, hcs, hback⟩ := h
  cases front with
  | nil => exact absurd (hcs ▸ hback) (hno vs)
  | cons d front =>
    obtain ⟨rfl, rfl⟩ := List.cons.inj hcs
    exact ⟨front, rfl, back, rfl, hback⟩

theorem FirstReport.cons {c : Char} {cs : List Char} {vs : List Nat}
    (hno : ∀ ws, ¬Starts (c :: cs) ws) (h : FirstReport cs vs) : FirstReport (c :: cs) vs := by
  obtain ⟨front, ⟨back, hcs, hback⟩, hleast⟩ := h
  refine ⟨c :: front, ⟨back, by rw [hcs, List.cons_append], hback⟩, fun earlier ws hreport => ?_⟩
  obtain ⟨inner, rfl, hinner⟩ := reportAt_cons hno hreport
  exact Nat.succ_le_succ (hleast inner ws hinner)

/-- What the search has of a text: its first report, or nothing as there is none. -/
def Found (cs : List Char) : Option (List Nat) → Prop
  | some vs => FirstReport cs vs
  | none => ∀ front vs, ¬ReportAt cs front vs

theorem digits?_found (cs : List Char) : Found cs (digits? cs) := by
  induction cs with
  | nil => exact not_reportAt_nil
  | cons c cs ih =>
    unfold digits?
    cases hat : digitsAt? (c :: cs) with
    | some ds => exact (starts_of_digitsAt? hat).firstReport
    | none =>
      have hno : ∀ ws, ¬Starts (c :: cs) ws := fun ws hws => by
        cases hat.symm.trans hws.digitsAt?_eq
      cases hrest : digits? cs with
      | some ds =>
        rw [hrest] at ih
        exact FirstReport.cons hno ih
      | none =>
        rw [hrest] at ih
        intro front vs hreport
        obtain ⟨front, -, hreport⟩ := reportAt_cons hno hreport
        exact ih front vs hreport

theorem digits?_eq_some_iff (cs : List Char) (vs : List Nat) :
    digits? cs = some vs ↔ FirstReport cs vs := by
  have hfound := digits?_found cs
  constructor
  · intro h
    rwa [h] at hfound
  · intro h
    cases hds : digits? cs with
    | some ds =>
      rw [hds] at hfound
      exact congrArg some (FirstReport.unique hfound h)
    | none =>
      rw [hds] at hfound
      obtain ⟨front, hreport, -⟩ := h
      exact absurd hreport (hfound front vs)

theorem digits?_eq_none_iff (cs : List Char) :
    digits? cs = none ↔ ¬∃ front vs, ReportAt cs front vs := by
  have hfound := digits?_found cs
  constructor
  · rintro h ⟨front, vs, hreport⟩
    rw [h] at hfound
    exact hfound front vs hreport
  · intro hnone
    cases hds : digits? cs with
    | none => rfl
    | some ds =>
      rw [hds] at hfound
      obtain ⟨front, hreport, -⟩ := hfound
      exact absurd ⟨front, ds, hreport⟩ hnone

/-! ### The ID -/

theorem parse_of_firstReport {s : String} {vs : List Nat} (h : FirstReport s.toList vs) :
    parse s = if vs.length ≤ digitLimit then .ok (some (Nat.ofDigits 10 vs.reverse))
      else .error ⟨vs.length⟩ := by
  unfold parse
  rw [(digits?_eq_some_iff _ _).mpr h]
  simp only [convert, ofDigits_eq]
  split
  · rfl
  · rfl

theorem parse_of_no_report {s : String} (h : ¬∃ front vs, ReportAt s.toList front vs) :
    parse s = .ok none := by
  unfold parse
  rw [(digits?_eq_none_iff _).mpr h]

/-- The three answers, each with what it says of the text. -/
theorem parse_cases (s : String) :
    (∃ vs, FirstReport s.toList vs ∧ vs.length ≤ digitLimit ∧
        parse s = .ok (some (Nat.ofDigits 10 vs.reverse))) ∨
      (∃ vs, FirstReport s.toList vs ∧ digitLimit < vs.length ∧ parse s = .error ⟨vs.length⟩) ∨
      (¬∃ front vs, ReportAt s.toList front vs) ∧ parse s = .ok none := by
  cases hds : digits? s.toList with
  | some vs =>
    have hfirst := (digits?_eq_some_iff _ _).mp hds
    rcases Nat.lt_or_ge digitLimit vs.length with hlen | hlen
    · refine .inr (.inl ⟨vs, hfirst, hlen, ?_⟩)
      rw [parse_of_firstReport hfirst, if_neg (Nat.not_le.mpr hlen)]
    · refine .inl ⟨vs, hfirst, hlen, ?_⟩
      rw [parse_of_firstReport hfirst, if_pos hlen]
  | none =>
    have hno := (digits?_eq_none_iff _).mp hds
    exact .inr (.inr ⟨hno, parse_of_no_report hno⟩)

theorem parse_eq_some_iff (s : String) (n : Nat) :
    parse s = .ok (some n) ↔ ∃ vs, FirstReport s.toList vs ∧ vs.length ≤ digitLimit ∧
      n = Nat.ofDigits 10 vs.reverse := by
  constructor
  · intro h
    rcases parse_cases s with ⟨vs, hfirst, hlen, hparse⟩ | ⟨vs, -, -, hparse⟩ | ⟨-, hparse⟩
    · cases hparse.symm.trans h
      exact ⟨vs, hfirst, hlen, rfl⟩
    · cases hparse.symm.trans h
    · cases hparse.symm.trans h
  · rintro ⟨vs, hfirst, hlen, rfl⟩
    rw [parse_of_firstReport hfirst, if_pos hlen]

theorem parse_eq_none_iff (s : String) :
    parse s = .ok none ↔ ¬∃ front vs, ReportAt s.toList front vs := by
  refine ⟨fun h => ?_, parse_of_no_report⟩
  rcases parse_cases s with ⟨vs, -, -, hparse⟩ | ⟨vs, -, -, hparse⟩ | ⟨hno, -⟩
  · cases hparse.symm.trans h
  · cases hparse.symm.trans h
  · exact hno

theorem parse_eq_error_iff (s : String) (e : TooLong) :
    parse s = .error e ↔
      ∃ vs, FirstReport s.toList vs ∧ digitLimit < vs.length ∧ e = ⟨vs.length⟩ := by
  constructor
  · intro h
    rcases parse_cases s with ⟨vs, -, -, hparse⟩ | ⟨vs, hfirst, hlen, hparse⟩ | ⟨-, hparse⟩
    · cases hparse.symm.trans h
    · cases hparse.symm.trans h
      exact ⟨vs, hfirst, hlen, rfl⟩
    · cases hparse.symm.trans h
  · rintro ⟨vs, hfirst, hlen, rfl⟩
    rw [parse_of_firstReport hfirst, if_neg (Nat.not_le.mpr hlen)]

example : parse "projidprojid =\n projid\u2003= 1\u0663x projid=2" = .ok (some 13) := by
  decide +kernel

/-! ### A report behind other text -/

/-- The word has no end that it also starts with. -/
theorem word_apart : ∀ k < word.length, 0 < k → ¬word.drop k <+: word := by
  decide

/-- Where the word is not in the text in front, no report starts in front of one. -/
theorem firstReport_behind {front back : List Char} {vs : List Nat} (hfront : ¬word <:+: front)
    (h : Starts back vs) : FirstReport (front ++ back) vs := by
  refine ⟨front, ⟨back, rfl, h⟩, ?_⟩
  rintro earlier ws ⟨back', hcs, hback'⟩
  by_contra hlt
  obtain ⟨middle, rfl⟩ : earlier <+: front :=
    List.prefix_of_prefix_length_le ⟨back', hcs.symm⟩ (List.prefix_append front back) (by omega)
  rw [List.append_assoc, List.append_cancel_left_eq] at hcs
  have hword : word <+: middle ++ back := hcs ▸ hback'.word_prefix
  rcases Nat.lt_or_ge middle.length word.length with hlen | hlen
  · -- The word would start in front and end in the word that stands behind.
    have hmiddle : middle <+: word :=
      List.prefix_of_prefix_length_le (List.prefix_append middle back) hword (by omega)
    obtain ⟨tail, htail⟩ := hmiddle
    rw [← htail, List.prefix_append_right_inj] at hword
    have hdrop : word.drop middle.length = tail := by rw [← htail, List.drop_left]
    have hback : tail <+: word :=
      List.prefix_of_prefix_length_le hword h.word_prefix (by rw [← hdrop]; simp)
    refine word_apart middle.length hlen ?_ (hdrop ▸ hback)
    rw [List.length_append] at hlt
    omega
  · have hinside : word <+: middle :=
      List.prefix_of_prefix_length_le hword (List.prefix_append middle back) hlen
    exact hfront (hinside.isInfix.trans (List.suffix_append earlier middle).isInfix)

/-- A number that is reported is read back if nothing in front of it holds the word, whatever
stands behind. -/
theorem parse_written (front rest : String) (n : Nat) (hfront : ¬word <:+: front.toList)
    (hrest : ∀ c ∈ rest.toList.head?, isDigit c = false)
    (hn : (toString n).length ≤ digitLimit) :
    parse (front ++ ("projid = " ++ toString n ++ rest)) = .ok (some n) := by
  have hstarts : Starts ("projid = " ++ toString n ++ rest).toList
      ((Nat.toDigits 10 n).map asciiDigit) :=
    ⟨[' '], [' '], Nat.toDigits 10 n, rest.toList, by simp [Nat.toString_eq_repr],
      List.forall_mem_singleton.mpr rfl, List.forall_mem_singleton.mpr rfl, by simp,
      digits_written n, hrest⟩
  refine (parse_eq_some_iff _ n).mpr ⟨(Nat.toDigits 10 n).map asciiDigit, ?_, ?_, ?_⟩
  · rw [String.toList_append]
    exact firstReport_behind hfront hstarts
  · rwa [length_written]
  · exact (ofDigits_written n).symm

example : parse "fd.path = /u/projid = 5\nfsxattr.projid = 17\n" = .ok (some 5) := by
  decide +kernel

/-! ### The tag of a directory -/

section

variable (t : Tools) (dir : Layer) (s stderr : String)

theorem reported_exited :
    t.reported dir (.exited 0 s stderr) =
      match parse s with
      | .error e => .error (.tooLong e)
      | .ok none =>
        .error (.enforcement s!"projid not found in {t.ioTool} output for {dir.label}" [] s)
      | .ok (some n) => .ok (n : Int) := rfl

theorem reported_eq_ok_iff (n : Int) :
    t.reported dir (.exited 0 s stderr) = .ok n ↔ ∃ m : Nat, parse s = .ok (some m) ∧ n = m := by
  rw [reported_exited]
  rcases parse s with e | _ | m
  · simp
  · simp
  · simp [eq_comm]

theorem reported_eq_enforcement_iff :
    t.reported dir (.exited 0 s stderr) =
        .error (.enforcement s!"projid not found in {t.ioTool} output for {dir.label}" [] s) ↔
      parse s = .ok none := by
  rw [reported_exited]
  rcases parse s with e | _ | m
  · simp
  · simp
  · simp

theorem reported_eq_tooLong_iff (e : TooLong) :
    t.reported dir (.exited 0 s stderr) = .error (.tooLong e) ↔ parse s = .error e := by
  rw [reported_exited]
  rcases parse s with e' | _ | m
  · simp
  · simp
  · simp

end

/-- The tag of a directory is what the tool's answer to the command for it reports. -/
theorem readTag_fst {τ : Type} (around : Surroundings τ) (t : Tools) (dir : Layer) (w : τ) :
    ((around.equipped t).readTag dir w).1 =
      (t.reported dir (around.execute (t.statCommand dir) t.timeout w).1, []) := rfl

/-- A text reports the number that the digits of its first report make, if they are at most 4300;
it reports none just where no report stands in it, and it is a bad value just where the first report
has more digits. The tag of a directory is the number that is reported by a tool that succeeds, and
the tool counts as failed if its text reports none. -/
theorem first_report_read (s : String) :
    (∀ n, parse s = .ok (some n) ↔ ∃ vs, FirstReport s.toList vs ∧ vs.length ≤ 4300 ∧
        n = Nat.ofDigits 10 vs.reverse) ∧
      (parse s = .ok none ↔ ¬∃ front vs, ReportAt s.toList front vs) ∧
      (∀ e, (parse s = .error e ↔
          ∃ vs, FirstReport s.toList vs ∧ 4300 < vs.length ∧ e = ⟨vs.length⟩) ∧
        (Failure.tooLong e).isBadValue = true) ∧
      ∀ {τ : Type} (around : Surroundings τ) (t : Tools) (dir : Layer) (w : τ) (stderr : String),
        (around.execute (t.statCommand dir) t.timeout w).1 = .exited 0 s stderr →
          ∃ answer, ((around.equipped t).readTag dir w).1 = (answer, []) ∧
            (∀ n : Int, answer = .ok n ↔ ∃ m : Nat, parse s = .ok (some m) ∧ n = m) ∧
            (answer = .error (.enforcement
                s!"projid not found in {t.ioTool} output for {dir.label}" [] s) ↔
              parse s = .ok none) ∧
            ∀ e, answer = .error (.tooLong e) ↔ parse s = .error e := by
  refine ⟨parse_eq_some_iff s, parse_eq_none_iff s, fun e => ⟨parse_eq_error_iff s e, rfl⟩, ?_⟩
  intro τ around t dir w stderr hrun
  refine ⟨t.reported dir (.exited 0 s stderr), ?_, reported_eq_ok_iff t dir s stderr,
    reported_eq_enforcement_iff t dir s stderr, reported_eq_tooLong_iff t dir s stderr⟩
  rw [readTag_fst, hrun]

end Tag

end LayerQuota
