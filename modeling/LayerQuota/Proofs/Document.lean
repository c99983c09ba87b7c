import LayerQuota.Proofs.Accepted
import LayerQuota.Proofs.Json.Reader
/-!
# Documents are read back

The document of a table that can be stored is read as that table.
-/

namespace LayerQuota.Document

open LayerQuota.Json LayerQuota.Text

/-! ### The values that are written -/

def entryValue (e : Entry) : Value :=
  .object [(Str.ofString "container_id", .text e.container),
    (Str.ofString "project_id", .int e.projectId), (Str.ofString "upperdir", .text e.upperdir)]

def entryMembers (t : Table) : List (Str × Value) :=
  t.map fun e => (Str.ofString e.container, entryValue e)

def tableValue (t : Table) : Value :=
  .object [(Str.ofString "entries", .object (entryMembers t))]

/-- The object of an entry, from its opening brace on. -/
def objectChars (e : Entry) : List Char :=
  '\x7b' :: (newline 3 ++ (stringChars "container_id" ++ ':' :: ' ' ::
    (stringChars e.container ++ ',' :: (newline 3 ++ (stringChars "project_id" ++ ':' :: ' ' ::
      (Nat.toDigits 10 e.projectId.toNat ++ ',' :: (newline 3 ++ (stringChars "upperdir" ++
        ':' :: ' ' :: (stringChars e.upperdir ++ (newline 2 ++ ['\x7d']))))))))))

theorem toList_toString (id : Int) (h : 0 ≤ id) :
    (toString id).toList = Nat.toDigits 10 id.toNat := by
  obtain ⟨n, rfl⟩ := Int.eq_ofNat_of_zero_le h
  exact Nat.toList_repr

theorem entryChars_eq (e : Entry) (h : 0 ≤ e.projectId) :
    entryChars e = newline 2 ++ (stringChars e.container ++ ':' :: ' ' :: objectChars e) := by
  have h₁ : ": \x7b".toList = [':', ' ', '\x7b'] := rfl
  have h₂ : "\"container_id\": ".toList = stringChars "container_id" ++ [':', ' '] := rfl
  have h₃ : "\"project_id\": ".toList = stringChars "project_id" ++ [':', ' '] := rfl
  have h₄ : "\"upperdir\": ".toList = stringChars "upperdir" ++ [':', ' '] := rfl
  unfold entryChars objectChars
  rw [h₁, h₂, h₃, h₄, toList_toString e.projectId h]
  simp only [List.append_assoc, List.cons_append, List.nil_append]

theorem skipSpace_string (s : String) (cs : List Char) :
    skipSpace (stringChars s ++ cs) = stringChars s ++ cs := rfl

theorem skipSpace_toDigits (n : Nat) (cs : List Char) :
    skipSpace (Nat.toDigits 10 n ++ cs) = Nat.toDigits 10 n ++ cs := by
  cases hds : Nat.toDigits 10 n with
  | nil => exact absurd hds Nat.toDigits_ne_nil
  | cons d ds =>
    have hd : Number.isAsciiDigit d = true := isAsciiDigit_of_mem n d (by simp [hds])
    refine skipSpace_cons d (ds ++ cs) ?_
    unfold isSpace
    simp only [Bool.or_eq_false_iff, beq_eq_false_iff_ne]
    refine ⟨⟨⟨?_, ?_⟩, ?_⟩, ?_⟩
    all_goals
      rintro rfl
      exact absurd hd (by decide)

/-! ### Reading entries -/

theorem readValue_entry (e : Entry) (hid : Entry.Recordable e.projectId) (fuel depth : Nat)
    (tail : List Char) (hf : e.container.toList.length + e.upperdir.toList.length + 20 ≤ fuel) :
    readValue .strict fuel (depth + 1) (objectChars e ++ tail) = .ok (entryValue e, tail) := by
  obtain ⟨k, rfl⟩ : ∃ k, fuel = k + 5 := ⟨fuel - 5, by omega⟩
  have hn : e.projectId.toNat < 10000000000 := by
    have hmax : e.projectId ≤ 0xFFFFFFFF := hid.2
    omega
  have hint : (e.projectId.toNat : Int) = e.projectId := Int.toNat_of_nonneg hid.1
  have hupper : "upperdir".toList.length < k + 2 := by
    show 8 < k + 2
    omega
  have hproject : "project_id".toList.length < k + 3 := by
    show 10 < k + 3
    omega
  have hcontainer : "container_id".toList.length < k + 4 := by
    show 12 < k + 4
    omega
  have h₃ := readMembers_last .strict (k + 1) depth "upperdir" (.text e.upperdir)
    (stringChars e.upperdir ++ (newline 2 ++ '\x7d' :: tail)) _ tail hupper rfl
    (readValue_string .strict k depth e.upperdir _ (by omega)) rfl
  have h₂ := readMembers_more .strict (k + 2) depth "project_id" (.int e.projectId.toNat) _ _ tail
    _ _ _ hproject (skipSpace_toDigits _ _) (readValue_toDigits (k + 1) depth _ hn _) rfl
    ((skipSpace_newline 3 _).trans (skipSpace_string "upperdir" _)) h₃
  have h₁ := readMembers_more .strict (k + 3) depth "container_id" (.text e.container) _ _ tail
    _ _ _ hcontainer rfl (readValue_string .strict (k + 2) depth e.container _ (by omega))
    (skipSpace_cons ',' _ rfl) ((skipSpace_newline 3 _).trans (skipSpace_string "project_id" _)) h₂
  have h₀ := readValue_object (k + 4) depth _ _ tail _
    ((skipSpace_newline 3 _).trans (skipSpace_string "container_id" _)) rfl h₁
  rw [hint] at h₀
  unfold objectChars
  simp only [List.cons_append, List.append_assoc, List.nil_append]
  exact h₀

theorem length_le_stringChars (s : String) : s.toList.length + 2 ≤ (stringChars s).length := by
  have hescape : ∀ c : Char, 1 ≤ (escapeChar c).length := by
    intro c
    unfold escapeChar
    split
    · simp
    · split
      · simp
      · simp
  have hall : ∀ cs : List Char, cs.length ≤ (cs.flatMap escapeChar).length := by
    intro cs
    induction cs with
    | nil => exact Nat.le_refl 0
    | cons c cs ih =>
      have hc := hescape c
      rw [List.flatMap_cons, List.length_append, List.length_cons]
      omega
  have hs := hall s.toList
  unfold stringChars
  rw [List.length_cons, List.length_append, List.length_singleton]
  omega

theorem length_le_entryChars (e : Entry) :
    e.container.toList.length + e.upperdir.toList.length + 30 ≤ (entryChars e).length := by
  have hc := length_le_stringChars e.container
  have hu := length_le_stringChars e.upperdir
  have h₂ : (newline 2).length = 5 := rfl
  have h₃ : (newline 3).length = 7 := rfl
  unfold entryChars
  simp only [List.length_append, h₂, h₃, List.length_singleton]
  omega

theorem skipSpace_entryChars (e : Entry) (hid : Entry.Recordable e.projectId) (cs : List Char) :
    skipSpace (entryChars e ++ cs) =
      stringChars e.container ++ ':' :: ' ' :: (objectChars e ++ cs) := by
  rw [entryChars_eq e hid.1, List.append_assoc, skipSpace_newline, List.append_assoc,
    skipSpace_string]
  rfl

theorem readMembers_entries (e : Entry) (t : Table)
    (hid : ∀ x ∈ e :: t, Entry.Recordable x.projectId) (fuel depth : Nat) (tail : List Char)
    (hf : (entryChars e ++ moreEntries t).length ≤ fuel) :
    readMembers .strict fuel (depth + 1)
      (skipSpace (entryChars e ++ (moreEntries t ++ (newline 1 ++ '\x7d' :: tail)))) =
        .ok (entryMembers (e :: t), tail) := by
  have he : Entry.Recordable e.projectId := hid e List.mem_cons_self
  have hlen := length_le_entryChars e
  rw [List.length_append] at hf
  obtain ⟨k, rfl⟩ : ∃ k, fuel = k + 1 := ⟨fuel - 1, by omega⟩
  have hkey : e.container.toList.length < k + 1 := by omega
  rw [skipSpace_entryChars e he]
  induction t generalizing e k with
  | nil =>
    have hv := readValue_entry e he k depth (newline 1 ++ '\x7d' :: tail) (by omega)
    exact readMembers_last .strict k (depth + 1) e.container (entryValue e) _ _ tail hkey
      (skipSpace_cons '\x7b' _ rfl) hv rfl
  | cons f t ih =>
    have hv := readValue_entry e he k depth
      (moreEntries (f :: t) ++ (newline 1 ++ '\x7d' :: tail)) (by omega)
    have hflen := length_le_entryChars f
    simp only [moreEntries, List.length_cons, List.length_append] at hf
    obtain ⟨j, rfl⟩ : ∃ j, k = j + 1 := ⟨k - 1, by omega⟩
    have hfid : Entry.Recordable f.projectId := hid f (by simp)
    have hmore := ih f (fun x hx => hid x (List.mem_cons_of_mem e hx)) hfid hflen j (by omega)
      (by omega)
    have hnext : skipSpace (entryChars f ++ moreEntries t ++ (newline 1 ++ '\x7d' :: tail)) =
        stringChars f.container ++ ':' :: ' ' ::
          (objectChars f ++ (moreEntries t ++ (newline 1 ++ '\x7d' :: tail))) := by
      rw [List.append_assoc]
      exact skipSpace_entryChars f hfid _
    exact readMembers_more .strict (j + 1) (depth + 1) e.container (entryValue e) _ _ tail _ _ _
      hkey (skipSpace_cons '\x7b' _ rfl) hv (skipSpace_cons ',' _ rfl) hnext hmore

/-! ### Reading a document -/

theorem readValue_entries (t : Table) (hid : ∀ e ∈ t, Entry.Recordable e.projectId)
    (fuel depth : Nat) (tail : List Char) (hf : (entriesChars t).length ≤ fuel) :
    readValue .strict fuel (depth + 2) (entriesChars t ++ tail) =
      .ok (.object (entryMembers t), tail) := by
  cases t with
  | nil =>
    simp only [entriesChars, List.length_cons] at hf
    obtain ⟨k, rfl⟩ : ∃ k, fuel = k + 1 := ⟨fuel - 1, by omega⟩
    exact readValue_empty .strict k (depth + 2) tail
  | cons e t =>
    simp only [entriesChars, List.length_cons, List.length_append] at hf
    obtain ⟨k, rfl⟩ : ∃ k, fuel = k + 1 := ⟨fuel - 1, by omega⟩
    have hms := readMembers_entries e t hid k depth tail (by rw [List.length_append]; omega)
    simp only [entriesChars, List.cons_append, List.append_assoc, List.nil_append]
    refine readValue_object k (depth + 1) _ _ tail _ rfl ?_ hms
    rw [skipSpace_entryChars e (hid e List.mem_cons_self)]
    rfl

theorem readChars_chars (t : Table) (hid : ∀ e ∈ t, Entry.Recordable e.projectId) :
    readChars .strict (chars t) = .ok (tableValue t) := by
  have hkey : "\"entries\": ".toList = stringChars "entries" ++ [':', ' '] := rfl
  have hchars : chars t = '\x7b' :: (newline 1 ++ (stringChars "entries" ++ ':' :: ' ' ::
      (entriesChars t ++ (newline 0 ++ ['\x7d'])))) := by
    unfold chars
    rw [hkey]
    simp only [List.append_assoc, List.cons_append, List.nil_append]
  have hlen : (chars t).length = (entriesChars t).length + 17 := by
    have h₀ : (newline 0).length = 1 := rfl
    have h₁ : (newline 1).length = 3 := rfl
    have hs : (stringChars "entries").length = 9 := rfl
    simp only [hchars, List.length_append, List.length_cons, h₀, h₁, hs, List.length_nil]
    omega
  have hentries : "entries".toList.length < (entriesChars t).length + 17 := by
    show 7 < (entriesChars t).length + 17
    omega
  have hopen : skipSpace (entriesChars t ++ (newline 0 ++ ['\x7d'])) =
      entriesChars t ++ (newline 0 ++ ['\x7d']) := by
    cases t with
    | nil => rfl
    | cons e t => exact skipSpace_cons '\x7b' _ rfl
  have hv := readValue_entries t hid ((entriesChars t).length + 16) 197 (newline 0 ++ ['\x7d'])
    (by omega)
  have hms := readMembers_last .strict ((entriesChars t).length + 16) 199 "entries"
    (.object (entryMembers t)) _ _ [] hentries hopen hv rfl
  have hvalue := readValue_object ((entriesChars t).length + 17) 199 _ _ [] _
    ((skipSpace_newline 1 _).trans (skipSpace_string "entries" _)) rfl hms
  have hdepth : Rules.strict.depth = 199 + 1 := rfl
  have hskip : skipSpace (chars t) = chars t := skipSpace_cons '\x7b' _ rfl
  have hbom : ∀ cs, chars t ≠ '\uFEFF' :: cs := by
    intro cs heq
    exact absurd (List.cons.inj heq).1 (by decide)
  unfold readChars
  split
  · rename_i cs heq
    exact absurd heq (hbom cs)
  · rw [hskip, hlen, hdepth, hchars, hvalue]
    rfl

/-! ### What was read spells the table -/

theorem spelled_entryValue (e : Entry) (hid : Entry.Recordable e.projectId) :
    Entry.Spelled (entryValue e) e :=
  ⟨rfl, ⟨.int e.projectId, rfl, rfl⟩, hid, rfl⟩

theorem keys_entryMembers (t : Table) :
    keys (entryMembers t) = t.containers.map Str.ofString := by
  simp only [keys, entryMembers, Table.containers, List.map_map]
  rfl

theorem spells_tableValue (t : Table) (h : t.Storable) : Spells (tableValue t) t := by
  have hnodup : (keys (entryMembers t)).Nodup := by
    rw [keys_entryMembers]
    exact h.containers.map Str.ofString_inj
  have hself := uniqueMembers_eq_self _ hnodup
  refine ⟨entryMembers t, .given _ rfl, ?_, ?_, ?_⟩
  · intro v hv
    obtain ⟨e, he, rfl⟩ := List.mem_map.mp hv
    exact ⟨e, spelled_entryValue e (h.recordable e he)⟩
  · rw [← keys_uniqueMembers, hself, keys_entryMembers]
  · intro e he
    have hmem : (Str.ofString e.container, entryValue e) ∈ uniqueMembers (entryMembers t) := by
      rw [hself]
      exact List.mem_map.mpr ⟨e, he, rfl⟩
    exact ⟨entryValue e, (mem_uniqueMembers_iff _ _).mp hmem,
      spelled_entryValue e (h.recordable e he)⟩

/-! ### Bytes -/

/-- The document of a table is read back. -/
theorem ofBytes_render (t : Table) (h : t.Storable) : ofBytes (render t).toUTF8 = .valid t := by
  have hread : Json.read .strict (render t) = .ok (tableValue t) := by
    unfold Json.read render
    rw [String.toList_ofList]
    exact readChars_chars t h.recordable
  exact (ofBytes_eq_valid _ t).mpr ⟨render t, tableValue t, rfl, hread, spells_tableValue t h⟩

theorem mem_toList_loop (bytes : ByteArray) (i : Nat) (bs : List UInt8) (b : UInt8) (h : b ∈ bs) :
    b ∈ ByteArray.toList.loop bytes i bs := by
  fun_induction ByteArray.toList.loop bytes i bs with
  | case1 i bs hi ih => exact ih (List.mem_cons_of_mem _ h)
  | case2 i bs hi => exact List.mem_reverse.mpr h

theorem get!_eq (bytes : ByteArray) (i : Nat) : bytes.get! i = bytes.data[i]! := rfl

theorem head_mem_toList (bytes : ByteArray) (h : 0 < bytes.size) : bytes.get! 0 ∈ bytes.toList := by
  unfold ByteArray.toList ByteArray.toList.loop
  rw [if_pos h]
  exact mem_toList_loop bytes 1 _ _ List.mem_cons_self

theorem not_blank_of_brace (cs : List Char) :
    isBlankBytes (String.ofList ('\x7b' :: cs)).toUTF8 = false := by
  have hbytes : (String.ofList ('\x7b' :: cs)).toUTF8 = ['\x7b'].utf8Encode ++ cs.utf8Encode :=
    String.toByteArray_ofList.trans List.utf8Encode_cons
  have hone : ['\x7b'].utf8Encode = ⟨#[123]⟩ := by decide +kernel
  have hsize : 0 < (String.ofList ('\x7b' :: cs)).toUTF8.size := by
    rw [hbytes, hone, ByteArray.size_append]
    exact Nat.lt_of_lt_of_le Nat.one_pos (Nat.le_add_right 1 _)
  have hget : (String.ofList ('\x7b' :: cs)).toUTF8.get! 0 = 123 := by
    rw [hbytes, hone]
    have hpos : 0 < (#[(123 : UInt8)] ++ cs.utf8Encode.data).size := by
      rw [Array.size_append]
      exact Nat.lt_of_lt_of_le Nat.one_pos (Nat.le_add_right 1 _)
    rw [get!_eq, ByteArray.data_append, getElem!_pos _ 0 hpos,
      Array.getElem_append_left Nat.one_pos]
    rfl
  unfold isBlankBytes
  rw [List.all_eq_false]
  refine ⟨123, ?_, by decide⟩
  rw [← hget]
  exact head_mem_toList _ hsize
theorem not_blank_render (t : Table) : isBlankBytes (render t).toUTF8 = false :=
  not_blank_of_brace _

end LayerQuota.Document
