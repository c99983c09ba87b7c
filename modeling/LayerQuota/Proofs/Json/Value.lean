import LayerQuota.Json.Value
import Mathlib.Data.List.Forall2
import Mathlib.Data.List.Induction
import Mathlib.Data.List.Nodup
/-!
# Strings and members

A string without an unpaired surrogate is a text, and a text is found again in the string that is
made of it. The unique members of an object have each key once.
-/

namespace LayerQuota.Json

/-! ### Strings -/

theorem charOf?_toNat (c : Char) : charOf? c.toNat = some c := by
  have hv := c.valid
  have hn : c.toNat < 0xD800 ∨ (0xDFFF < c.toNat ∧ c.toNat < 0x110000) := hv
  unfold charOf?
  rw [if_pos (by simpa using hn), Char.ofNat_toNat]

theorem charOf?_eq_some (n : Nat) (c : Char) (h : charOf? n = some c) : c.toNat = n := by
  unfold charOf? at h
  split at h
  · rename_i hn
    cases h
    have hv : n.isValidChar := by simpa using hn
    have hof : Char.ofNat n = Char.ofNatAux n hv := dif_pos hv
    rw [hof]
    rfl
  · cases h

theorem exists_toNat_eq (n : Nat) (h : n < 0xD800 ∨ (0xDFFF < n ∧ n < 0x110000)) :
    ∃ c : Char, c.toNat = n :=
  ⟨Char.ofNat n, charOf?_eq_some n _ (if_pos (by simpa using h))⟩

namespace Str

theorem ofString_inj (s t : String) (h : ofString s = ofString t) : s = t := by
  have hmap : s.toList.map Char.toNat = t.toList.map Char.toNat := congrArg Str.points h
  have hl : s.toList = t.toList :=
    (List.map_inj_right fun a b hab => Char.toNat_inj.mp hab).mp hmap
  exact String.toList_inj.mp hl

@[simp]
theorem text_ofString (s : String) : (ofString s).text = s := by
  simp only [text, replaced, ofString, List.flatMap_map, charOf?_toNat, List.flatMap_singleton',
    String.ofList_toList]

@[simp]
theorem toString?_ofString (s : String) : (ofString s).toString? = some s := by
  have hchars : ∀ cs : List Char, (cs.map Char.toNat).mapM charOf? = some cs := by
    intro cs
    induction cs with
    | nil => rfl
    | cons c cs ih =>
      rw [List.map_cons, List.mapM_cons, charOf?_toNat, ih]
      rfl
  unfold toString? ofString
  rw [hchars, Option.map_some, String.ofList_toList]

end Str

@[simp]
theorem text?_text (s : String) : (Value.text s).text? = some s := Str.toString?_ofString s

/-! ### Members -/

variable {α β : Type}

def keys (ms : List (Str × α)) : List Str := ms.map (·.1)

theorem getMember_mem (k : Str) (v : Value) (ms : List (Str × Value))
    (h : getMember k ms = some v) : (k, v) ∈ ms := by
  induction ms with
  | nil => cases h
  | cons m ms ih =>
    obtain ⟨l, w⟩ := m
    unfold getMember at h
    split at h
    · rename_i x hx
      rw [h] at hx
      exact List.mem_cons_of_mem _ (ih hx)
    · split at h
      · rename_i hk
        cases h
        subst hk
        exact List.mem_cons_self
      · cases h

theorem keys_cons (m : Str × α) (ms : List (Str × α)) : keys (m :: ms) = m.1 :: keys ms := rfl

theorem keys_append (ms ns : List (Str × α)) : keys (ms ++ ns) = keys ms ++ keys ns :=
  List.map_append

theorem keys_setMember (k : Str) (v : α) (ms : List (Str × α)) :
    keys (setMember k v ms) = if k ∈ keys ms then keys ms else keys ms ++ [k] := by
  induction ms with
  | nil => rfl
  | cons m ms ih =>
    obtain ⟨l, w⟩ := m
    unfold setMember
    by_cases hk : k = l
    · subst hk
      simp [keys]
    · rw [if_neg hk]
      have hmem : k ∈ keys ((l, w) :: ms) ↔ k ∈ keys ms :=
        List.mem_cons.trans (or_iff_right hk)
      rw [keys_cons, ih]
      by_cases hm : k ∈ keys ms
      · rw [if_pos hm, if_pos (hmem.mpr hm), keys_cons]
      · rw [if_neg hm, if_neg fun h => hm (hmem.mp h), keys_cons, List.cons_append]

theorem setMember_absent (k : Str) (v : α) (ms : List (Str × α)) (h : k ∉ keys ms) :
    setMember k v ms = ms ++ [(k, v)] := by
  induction ms with
  | nil => rfl
  | cons m ms ih =>
    obtain ⟨l, w⟩ := m
    have hl : k ≠ l := fun heq => h (heq ▸ List.mem_cons_self)
    unfold setMember
    rw [if_neg hl, ih fun hm => h (List.mem_cons_of_mem l hm)]
    rfl

/-! ### Repeated keys -/

theorem uniqueMembers_append (ms : List (Str × α)) (m : Str × α) :
    uniqueMembers (ms ++ [m]) = setMember m.1 m.2 (uniqueMembers ms) :=
  List.foldl_append

theorem uniqueMembers_keys_nodup (ms : List (Str × α)) : (keys (uniqueMembers ms)).Nodup := by
  induction ms using List.reverseRecOn with
  | nil => exact List.nodup_nil
  | append_singleton ms m ih =>
    rw [uniqueMembers_append, keys_setMember]
    split
    · exact ih
    · rename_i hm
      rw [List.nodup_append]
      refine ⟨ih, List.nodup_singleton _, ?_⟩
      rintro a ha b hb rfl
      exact hm (List.mem_singleton.mp hb ▸ ha)

theorem uniqueMembers_eq_self (ms : List (Str × α)) (h : (keys ms).Nodup) :
    uniqueMembers ms = ms := by
  induction ms using List.reverseRecOn with
  | nil => rfl
  | append_singleton ms m ih =>
    rw [keys_append, List.nodup_append] at h
    have habsent : m.1 ∉ keys ms := fun hm => h.2.2 m.1 hm m.1 (List.mem_singleton_self _) rfl
    rw [uniqueMembers_append, ih h.1, setMember_absent m.1 m.2 ms habsent]

/-- Each key stands where it first came. -/
theorem keys_uniqueMembers (ms : List (Str × α)) :
    keys (uniqueMembers ms) = (keys ms).eraseDups := by
  induction ms using List.reverseRecOn with
  | nil => rfl
  | append_singleton ms m ih =>
    have hm : keys [m] = [m.1] := rfl
    rw [uniqueMembers_append, keys_setMember, ih, keys_append, hm, List.eraseDups_append]
    by_cases hk : m.1 ∈ keys ms
    · rw [if_pos (List.mem_eraseDups.mpr hk)]
      simp [List.removeAll, hk]
    · rw [if_neg (mt List.mem_eraseDups.mp hk)]
      have hnew : [m.1].removeAll (keys ms) = [m.1] := by simp [List.removeAll, hk]
      rw [hnew]
      rfl

theorem mem_setMember_iff (k : Str) (v : α) (ms : List (Str × α)) (hn : (keys ms).Nodup)
    (m : Str × α) : m ∈ setMember k v ms ↔ m = (k, v) ∨ m ∈ ms ∧ m.1 ≠ k := by
  induction ms with
  | nil => simp [setMember]
  | cons n ms ih =>
    obtain ⟨l, w⟩ := n
    obtain ⟨hl, hn⟩ := List.nodup_cons.mp hn
    unfold setMember
    by_cases hk : k = l
    · subst hk
      have hrest : m ∈ ms → m.1 ≠ k := fun hm heq => hl (heq ▸ List.mem_map.mpr ⟨m, hm, rfl⟩)
      rw [if_pos rfl, List.mem_cons, List.mem_cons]
      constructor
      · rintro (rfl | hm)
        · exact .inl rfl
        · exact .inr ⟨.inr hm, hrest hm⟩
      · rintro (rfl | ⟨rfl | hm, hne⟩)
        · exact .inl rfl
        · exact absurd rfl hne
        · exact .inr hm
    · rw [if_neg hk, List.mem_cons, List.mem_cons, ih hn]
      constructor
      · rintro (rfl | rfl | ⟨hm, hne⟩)
        · exact .inr ⟨.inl rfl, Ne.symm hk⟩
        · exact .inl rfl
        · exact .inr ⟨.inr hm, hne⟩
      · rintro (rfl | ⟨rfl | hm, hne⟩)
        · exact .inr (.inl rfl)
        · exact .inl rfl
        · exact .inr (.inr ⟨hm, hne⟩)

theorem getMember_append (k : Str) (ms : List (Str × Value)) (m : Str × Value) :
    getMember k (ms ++ [m]) = if k = m.1 then some m.2 else getMember k ms := by
  induction ms with
  | nil => rfl
  | cons n ms ih =>
    rw [List.cons_append, getMember, ih]
    by_cases hk : k = m.1
    · simp only [if_pos hk]
    · simp only [if_neg hk, getMember]

/-- The member that is left of each key is the one that `getMember` finds. -/
theorem mem_uniqueMembers_iff (ms : List (Str × Value)) (m : Str × Value) :
    m ∈ uniqueMembers ms ↔ getMember m.1 ms = some m.2 := by
  induction ms using List.reverseRecOn with
  | nil => simp [uniqueMembers, getMember]
  | append_singleton ms n ih =>
    rw [uniqueMembers_append, mem_setMember_iff _ _ _ (uniqueMembers_keys_nodup ms), ih,
      getMember_append]
    by_cases hk : m.1 = n.1
    · rw [if_pos hk, Option.some.injEq]
      constructor
      · rintro (rfl | ⟨-, hne⟩)
        · rfl
        · exact absurd hk hne
      · intro hv
        exact .inl (Prod.ext hk hv.symm)
    · rw [if_neg hk]
      constructor
      · rintro (rfl | ⟨hm, -⟩)
        · exact absurd rfl hk
        · exact hm
      · exact fun hm => .inr ⟨hm, hk⟩

/-- Two members of one key whose values are related. -/
def Paired (r : α → β → Prop) (a : Str × α) (b : Str × β) : Prop := a.1 = b.1 ∧ r a.2 b.2

theorem keys_paired {r : α → β → Prop} {as : List (Str × α)} {bs : List (Str × β)}
    (h : List.Forall₂ (Paired r) as bs) : keys as = keys bs := by
  induction h with
  | nil => rfl
  | cons hab _ ih => rw [keys_cons, keys_cons, hab.1, ih]

theorem paired_mem {r : α → β → Prop} {as : List (Str × α)} {bs : List (Str × β)}
    (h : List.Forall₂ (Paired r) as bs) (b : Str × β) (hb : b ∈ bs) : ∃ a ∈ as, Paired r a b := by
  induction h with
  | nil => cases hb
  | @cons a c as bs hac _ ih =>
    rcases List.mem_cons.mp hb with rfl | hb
    · exact ⟨a, List.mem_cons_self, hac⟩
    · obtain ⟨a', ha', hab⟩ := ih hb
      exact ⟨a', List.mem_cons_of_mem a ha', hab⟩

theorem exists_paired (r : α → β → Prop) (as : List (Str × α)) :
    (∃ bs, List.Forall₂ (Paired r) as bs) ↔ ∀ a ∈ as, ∃ b, r a.2 b := by
  induction as with
  | nil => exact iff_of_true ⟨[], .nil⟩ nofun
  | cons a as ih =>
    rw [List.forall_mem_cons, ← ih]
    constructor
    · rintro ⟨bs, hbs⟩
      cases hbs with
      | @cons _ b _ bs hab hrest => exact ⟨⟨b.2, hab.2⟩, bs, hrest⟩
    · rintro ⟨⟨b, hab⟩, bs, hrest⟩
      exact ⟨(a.1, b) :: bs, .cons ⟨rfl, hab⟩ hrest⟩

theorem setMember_paired (r : α → β → Prop) (as : List (Str × α)) (bs : List (Str × β))
    (h : List.Forall₂ (Paired r) as bs) (k : Str) (a : α) (b : β) (hab : r a b) :
    List.Forall₂ (Paired r) (setMember k a as) (setMember k b bs) := by
  induction h with
  | nil => exact .cons ⟨rfl, hab⟩ .nil
  | @cons c d as bs hcd hrest ih =>
    obtain ⟨l, c⟩ := c
    obtain ⟨l', d⟩ := d
    obtain ⟨rfl : l = l', hr⟩ := hcd
    unfold setMember
    by_cases hk : k = l
    · rw [if_pos hk, if_pos hk]
      exact .cons ⟨rfl, hab⟩ hrest
    · rw [if_neg hk, if_neg hk]
      exact .cons ⟨rfl, hr⟩ ih

theorem uniqueMembers_paired (r : α → β → Prop) (as : List (Str × α)) (bs : List (Str × β))
    (h : List.Forall₂ (Paired r) as bs) :
    List.Forall₂ (Paired r) (uniqueMembers as) (uniqueMembers bs) :=
  List.rel_foldl (fun as bs hs a b hab => hab.1 ▸ setMember_paired r as bs hs a.1 a.2 b.2 hab.2)
    .nil h

end LayerQuota.Json
