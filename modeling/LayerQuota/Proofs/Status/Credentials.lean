import LayerQuota.Proofs.Accepted
import LayerQuota.Status.Credentials
/-!
# Credentials that are sent are read

A client sends a user and a password in base64, in a header of the scheme Basic. What the header is
read as are the user and the password that were sent, unless the user has a colon, at the first of
which the password begins.
-/

namespace LayerQuota

namespace Credentials

/-! ### Letters -/

/-- The letter of a number below 64. -/
def letter (n : Nat) : Char :=
  if n < 26 then Char.ofNat (n + 65)
  else if n < 52 then Char.ofNat (n + 71)
  else if n < 62 then Char.ofNat (n - 4)
  else if n = 62 then '+'
  else '/'

theorem sextet?_letter (n : Nat) (h : n < 64) : sextet? (letter n) = some n := by
  have hall : ∀ k : Fin 64, sextet? (letter k) = some k.val := by decide
  exact hall ⟨n, h⟩

/-- A letter is printable, and no padding. -/
structure IsLetter (c : Char) : Prop where
  noPadding : c ≠ '='
  noBlank : isPad c = false
  ascii : c.toNat < 128

instance (c : Char) : Decidable (IsLetter c) :=
  decidable_of_iff (c ≠ '=' ∧ isPad c = false ∧ c.toNat < 128)
    ⟨fun h => ⟨h.1, h.2.1, h.2.2⟩, fun h => ⟨h.noPadding, h.noBlank, h.ascii⟩⟩

theorem isLetter_letter (n : Nat) (h : n < 64) : IsLetter (letter n) := by
  have hall : ∀ k : Fin 64, IsLetter (letter k) := by decide
  exact hall ⟨n, h⟩

/-! ### Groups -/

/-- Bytes in base64: three bytes in four letters, and a rest of one or two padded to four. -/
def encodeBase64 : List UInt8 → List Char
  | [] => []
  | [a] => [letter (a.toNat / 4), letter (a.toNat % 4 * 16), '=', '=']
  | [a, b] =>
    [letter (a.toNat / 4), letter (a.toNat % 4 * 16 + b.toNat / 16), letter (b.toNat % 16 * 4), '=']
  | a :: b :: c :: rest =>
    letter (a.toNat / 4) :: letter (a.toNat % 4 * 16 + b.toNat / 16) ::
      letter (b.toNat % 16 * 4 + c.toNat / 64) :: letter (c.toNat % 64) :: encodeBase64 rest

/-- A letter joins the group that is under way, as long as that is not full with it. -/
theorem decodeGroups_open (group : List Nat) (n : Nat) (rest : List Char) (h : n < 64)
    (hlen : group.length < 3) :
    decodeGroups group (letter n :: rest) = decodeGroups (group ++ [n]) rest := by
  have hopen : ((group ++ [n]).length == 4) = false := by
    rw [List.length_append, List.length_singleton, beq_eq_false_iff_ne]
    omega
  rw [decodeGroups, if_neg (isLetter_letter n h).noPadding, sextet?_letter n h]
  simp only [hopen, Bool.false_eq_true, if_false]

theorem decodeGroups_full (group : List Nat) (n : Nat) (rest : List Char) (h : n < 64)
    (hlen : group.length = 3) :
    decodeGroups group (letter n :: rest) =
      (decodeGroups [] rest).map (groupBytes (group ++ [n]) ++ ·) := by
  have hfull : ((group ++ [n]).length == 4) = true := by
    rw [List.length_append, List.length_singleton, hlen]
    rfl
  rw [decodeGroups, if_neg (isLetter_letter n h).noPadding, sextet?_letter n h]
  simp only [hfull, if_true]

theorem ofNat_eq (n : Nat) (a : UInt8) (h : n = a.toNat) : UInt8.ofNat n = a := by
  rw [h, UInt8.ofNat_toNat]

section Groups

variable (a b c : UInt8)

theorem groupBytes_four :
    groupBytes [a.toNat / 4, a.toNat % 4 * 16 + b.toNat / 16, b.toNat % 16 * 4 + c.toNat / 64,
      c.toNat % 64] = [a, b, c] := by
  have hb := b.toNat_lt
  have hc := c.toNat_lt
  simp only [groupBytes]
  rw [ofNat_eq _ a (by omega), ofNat_eq _ b (by omega), ofNat_eq _ c (by omega)]

theorem groupBytes_three :
    groupBytes [a.toNat / 4, a.toNat % 4 * 16 + b.toNat / 16, b.toNat % 16 * 4] = [a, b] := by
  have hb := b.toNat_lt
  simp only [groupBytes]
  rw [ofNat_eq _ a (by omega), ofNat_eq _ b (by omega)]

theorem groupBytes_two : groupBytes [a.toNat / 4, a.toNat % 4 * 16] = [a] := by
  simp only [groupBytes]
  rw [ofNat_eq _ a (by omega)]

end Groups

theorem decodeGroups_encode (bs : List UInt8) : decodeGroups [] (encodeBase64 bs) = some bs := by
  induction bs using encodeBase64.induct with
  | case1 => rfl
  | case2 a =>
    have ha := a.toNat_lt
    rw [encodeBase64, decodeGroups_open _ _ _ (by omega) (by simp),
      decodeGroups_open _ _ _ (by omega) (by simp)]
    show some (groupBytes [a.toNat / 4, a.toNat % 4 * 16]) = some [a]
    rw [groupBytes_two]
  | case3 a b =>
    have ha := a.toNat_lt
    have hb := b.toNat_lt
    rw [encodeBase64, decodeGroups_open _ _ _ (by omega) (by simp),
      decodeGroups_open _ _ _ (by omega) (by simp),
      decodeGroups_open _ _ _ (by omega) (by simp)]
    show some (groupBytes [a.toNat / 4, a.toNat % 4 * 16 + b.toNat / 16, b.toNat % 16 * 4]) =
      some [a, b]
    rw [groupBytes_three]
  | case4 a b c rest ih =>
    have ha := a.toNat_lt
    have hb := b.toNat_lt
    have hc := c.toNat_lt
    rw [encodeBase64, decodeGroups_open _ _ _ (by omega) (by simp),
      decodeGroups_open _ _ _ (by omega) (by simp),
      decodeGroups_open _ _ _ (by omega) (by simp),
      decodeGroups_full _ _ _ (by omega) (by simp), ih]
    show some (groupBytes [a.toNat / 4, a.toNat % 4 * 16 + b.toNat / 16,
      b.toNat % 16 * 4 + c.toNat / 64, c.toNat % 64] ++ rest) = some (a :: b :: c :: rest)
    rw [groupBytes_four]
    rfl

theorem encodeBase64_printable (bs : List UInt8) :
    ∀ c ∈ encodeBase64 bs, isPad c = false ∧ c.toNat < 128 := by
  have hletter : ∀ n, n < 64 → isPad (letter n) = false ∧ (letter n).toNat < 128 :=
    fun n hn => ⟨(isLetter_letter n hn).noBlank, (isLetter_letter n hn).ascii⟩
  have hpadding : isPad '=' = false ∧ '='.toNat < 128 := by decide
  induction bs using encodeBase64.induct with
  | case1 => exact fun c hc => absurd hc List.not_mem_nil
  | case2 a =>
    have ha := a.toNat_lt
    simp only [encodeBase64, List.forall_mem_cons]
    exact ⟨hletter _ (by omega), hletter _ (by omega), hpadding, hpadding, nofun⟩
  | case3 a b =>
    have ha := a.toNat_lt
    have hb := b.toNat_lt
    simp only [encodeBase64, List.forall_mem_cons]
    exact ⟨hletter _ (by omega), hletter _ (by omega), hletter _ (by omega), hpadding, nofun⟩
  | case4 a b c rest ih =>
    have ha := a.toNat_lt
    have hb := b.toNat_lt
    have hc := c.toNat_lt
    simp only [encodeBase64, List.forall_mem_cons]
    exact ⟨hletter _ (by omega), hletter _ (by omega), hletter _ (by omega), hletter _ (by omega),
      ih⟩

theorem decodeBase64_encode (bs : List UInt8) :
    decodeBase64 (encodeBase64 bs) = some ⟨bs.toArray⟩ := by
  unfold decodeBase64
  split
  · rename_i rest h
    -- no letter is padding, so the text does not begin with any
    cases bs using encodeBase64.fun_cases with
    | case1 => cases h
    | case2 a =>
      have ha := a.toNat_lt
      exact absurd (List.cons.inj h).1 (isLetter_letter _ (by omega)).noPadding
    | case3 a b =>
      have ha := a.toNat_lt
      exact absurd (List.cons.inj h).1 (isLetter_letter _ (by omega)).noPadding
    | case4 a b c rest =>
      have ha := a.toNat_lt
      exact absurd (List.cons.inj h).1 (isLetter_letter _ (by omega)).noPadding
  · rw [decodeGroups_encode]
    rfl

/-! ### Headers -/

/-- The header of a user and a password in the scheme Basic. -/
def basic (user password : String) : String :=
  "Basic " ++ String.ofList (encodeBase64 (user ++ ":" ++ password).toUTF8.data.toList)

/-- A text is divided where the character comes first. -/
theorem splitAt_first (p : Char → Bool) (front rest : List Char) (c : Char)
    (hfront : ∀ d ∈ front, p d = false) (hc : p c = true) :
    splitAt p (front ++ c :: rest) = (front, rest) := by
  have hkeep : ∀ d ∈ front, (!p d) = true := fun d hd => by rw [hfront d hd]; rfl
  unfold splitAt
  rw [List.takeWhile_append_of_pos hkeep, List.dropWhile_append_of_pos hkeep,
    List.takeWhile_cons_of_neg (by simp [hc]), List.dropWhile_cons_of_neg (by simp [hc]),
    List.append_nil]
  rfl

theorem trimList_of_none (p : Char → Bool) (cs : List Char) (h : ∀ c ∈ cs, p c = false) :
    Text.trimList p cs = cs := by
  have hkeep : ∀ ds : List Char, (∀ c ∈ ds, p c = false) → ds.dropWhile p = ds := by
    intro ds hds
    cases ds with
    | nil => rfl
    | cons d ds => exact List.dropWhile_cons_of_neg (by simp [hds d List.mem_cons_self])
  unfold Text.trimList
  rw [hkeep cs h, hkeep cs.reverse fun c hc => h c (List.mem_reverse.mp hc), List.reverse_reverse]

theorem ofBasic_encode (user password : String) (h : ':' ∉ user.toList) :
    ofBasic (encodeBase64 (user ++ ":" ++ password).toUTF8.data.toList) =
      some ⟨some user, some password⟩ := by
  have hsplit : splitAt (· == ':') (user ++ ":" ++ password).toList =
      (user.toList, password.toList) := by
    rw [String.toList_append, String.toList_append, List.append_assoc]
    refine splitAt_first _ _ _ ':' (fun d hd => ?_) rfl
    rw [beq_eq_false_iff_ne]
    rintro rfl
    exact h hd
  unfold ofBasic
  rw [decodeBase64_encode]
  have hbytes : (⟨(user ++ ":" ++ password).toUTF8.data.toList.toArray⟩ : ByteArray) =
      (user ++ ":" ++ password).toUTF8 := rfl
  simp only [hbytes, Document.decodeUtf8_toUTF8, hsplit, String.ofList_toList]

/-- What is sent is read. -/
theorem ofHeader_basic (user password : String) (h : ':' ∉ user.toList) :
    ofHeader (some (basic user password)) = .named ⟨some user, some password⟩ := by
  have hprintable := encodeBase64_printable (user ++ ":" ++ password).toUTF8.data.toList
  have hchars : (basic user password).toList =
      "Basic".toList ++ ' ' :: encodeBase64 (user ++ ":" ++ password).toUTF8.data.toList := by
    unfold basic
    simp only [String.toList_append, String.toList_ofList, String.reduceToList, List.cons_append,
      List.nil_append]
  have hsplit : splitAt (· == ' ') (basic user password).toList =
      ("Basic".toList, encodeBase64 (user ++ ":" ++ password).toUTF8.data.toList) := by
    rw [hchars]
    have hletters : ∀ d ∈ "Basic".toList, (d == ' ') = false := by simp
    exact splitAt_first _ _ _ ' ' hletters rfl
  have hfilled : (basic user password).isEmpty = false := by
    refine Bool.eq_false_iff.mpr fun hempty => ?_
    rw [String.isEmpty_iff.mp hempty] at hchars
    cases hchars
  have hscheme : String.ofList ("Basic".toList.map Char.toLower) = "basic" := by decide
  have hascii : isAscii
      (String.ofList (encodeBase64 (user ++ ":" ++ password).toUTF8.data.toList)) = true := by
    unfold isAscii
    rw [String.toList_ofList, List.all_eq_true]
    exact fun c hc => decide_eq_true (hprintable c hc).2
  unfold ofHeader
  simp only [hfilled, Bool.false_eq_true, if_false, hsplit, hscheme,
    trimList_of_none isPad _ fun c hc => (hprintable c hc).1]
  unfold ofScheme
  simp only [BEq.rfl, if_true, hascii, Bool.not_true, Bool.false_eq_true, if_false,
    ofBasic_encode user password h]

end Credentials

end LayerQuota
