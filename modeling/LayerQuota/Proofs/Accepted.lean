import LayerQuota.Proofs.Entry
import LayerQuota.Proofs.Json.Scalar
import LayerQuota.State.Document
/-!
# Documents that are accepted

What it means that a value spells an entry and that a document spells a table is said without the
checks, and the checks accept just such values and documents. The table that a document spells has
each container once and no ID but such as can be recorded.
-/

namespace LayerQuota

open LayerQuota.Json

/-! ### Fields -/

theorem Field.required_eq_valid {α : Type} (doc : Value) (key : String)
    (check : Value → Checked α) (a : α) :
    Field.required doc key check = .valid a ↔ ∃ w, doc.get? key = some w ∧ check w = .valid a := by
  unfold Field.required
  rw [Checked.under_eq_valid]
  constructor
  · intro h
    split at h
    · rename_i w hw
      exact ⟨w, hw, h⟩
    · cases h
  · rintro ⟨w, hw, h⟩
    simp only [hw, h]

/-- Of the values that are found in a document only a text passes for one. -/
theorem Field.text_eq_valid (v : Value) (hv : v.Found) (s : String) :
    Field.text v = .valid s ↔ v = .text s := by
  constructor
  · intro h
    obtain ⟨x, hx, rfl⟩ := Checked.map_eq_valid _ _ _ h
    cases v with
    | str y =>
      cases hx
      obtain ⟨t, rfl⟩ := hv.isText
      rw [Str.text_ofString]
      rfl
    | _ => cases hx
  · rintro rfl
    exact Entry.text_text s

/-! ### Entries -/

namespace Entry

/-- A value spells an entry: an object that gives the container and the directory as texts, and the
ID as something that counts as an integer. It may have other members as well. -/
structure Spelled (v : Value) (e : Entry) : Prop where
  container : v.get? "container_id" = some (.text e.container)
  projectId : ∃ w, v.get? "project_id" = some w ∧ Field.integer w = .valid e.projectId
  recordable : Recordable e.projectId
  upperdir : v.get? "upperdir" = some (.text e.upperdir)

theorem text_inj (s t : String) (h : Value.text s = .text t) : s = t :=
  Str.ofString_inj s t (Value.str.inj h)

theorem Spelled.unique {v : Value} {e f : Entry} (he : Spelled v e) (hf : Spelled v f) : e = f := by
  obtain ⟨w, hw, hid⟩ := he.projectId
  obtain ⟨w', hw', hid'⟩ := hf.projectId
  have hc := text_inj _ _ (Option.some.inj (he.container.symm.trans hf.container))
  have hu := text_inj _ _ (Option.some.inj (he.upperdir.symm.trans hf.upperdir))
  cases hw.symm.trans hw'
  have hn := Checked.valid.inj (hid.symm.trans hid')
  obtain ⟨c, n, u⟩ := e
  obtain ⟨c', n', u'⟩ := f
  cases hc
  cases hn
  cases hu
  rfl

theorem check_eq_valid (v : Value) (hv : v.Found) (e : Entry) :
    check .text v = .valid e ↔ Spelled v e := by
  constructor
  · intro h
    unfold check at h
    split at h
    · rename_i ms
      obtain ⟨f, u, hf, hu, rfl⟩ := Checked.ap_eq_valid _ _ _ h
      obtain ⟨g, n, hg, hn, rfl⟩ := Checked.ap_eq_valid _ _ _ hf
      obtain ⟨c, hc, rfl⟩ := Checked.map_eq_valid _ _ _ hg
      obtain ⟨w₁, hw₁, hc⟩ := (Field.required_eq_valid _ _ _ _).mp hc
      obtain ⟨w₂, hw₂, hn⟩ := (Field.required_eq_valid _ _ _ _).mp hn
      obtain ⟨w₃, hw₃, hu⟩ := (Field.required_eq_valid _ _ _ _).mp hu
      rw [Field.text_eq_valid _ (hv.get? hw₁)] at hc
      rw [Field.text_eq_valid _ (hv.get? hw₃)] at hu
      obtain ⟨hn, hid⟩ := (recordableId_eq_valid _ _).mp hn
      exact ⟨hc ▸ hw₁, ⟨w₂, hw₂, hn⟩, hid, hu ▸ hw₃⟩
    · cases h
  · intro h
    obtain ⟨w, hw, hn⟩ := h.projectId
    have hc := (Field.required_eq_valid v "container_id" Field.text e.container).mpr
      ⟨_, h.container, text_text _⟩
    have hn := (Field.required_eq_valid v "project_id" recordableId e.projectId).mpr
      ⟨w, hw, (recordableId_eq_valid _ _).mpr ⟨hn, h.recordable⟩⟩
    have hu := (Field.required_eq_valid v "upperdir" Field.text e.upperdir).mpr
      ⟨_, h.upperdir, text_text _⟩
    cases v with
    | object ms =>
      simp only [check, hc, hn, hu]
      rfl
    | _ => cases hw

end Entry

namespace Document

/-! ### Members -/

def Stands (v : Value) (m : Member) : Prop :=
  Entry.Spelled v m.entry ∧ m.container = Str.ofString m.entry.container

theorem checkMember_eq_valid (v : Value) (hv : v.Found) (m : Member) :
    checkMember .text v = .valid m ↔ Stands v m := by
  unfold checkMember
  constructor
  · intro h
    obtain ⟨e, he, rfl⟩ := Checked.map_eq_valid _ _ _ h
    have hs := (Entry.check_eq_valid v hv e).mp he
    rw [hs.container]
    exact ⟨hs, rfl⟩
  · rintro ⟨hs, hm⟩
    obtain ⟨c, e⟩ := m
    rw [(Entry.check_eq_valid v hv _).mpr hs, hs.container]
    exact congrArg (fun c => Checked.valid (Member.mk c e)) hm.symm

theorem checkMembers_eq_valid (vs : List (Str × Value)) (hvs : ∀ v ∈ vs, v.2.Found)
    (ms : List (Str × Member)) :
    checkMembers .text vs = .valid ms ↔ List.Forall₂ (Paired Stands) vs ms := by
  induction vs generalizing ms with
  | nil =>
    rw [List.forall₂_nil_left_iff]
    exact ⟨fun h => (Checked.valid.inj h).symm, fun h => congrArg _ h.symm⟩
  | cons v vs ih =>
    have hv := hvs v List.mem_cons_self
    have hrest := ih fun w hw => hvs w (List.mem_cons_of_mem v hw)
    constructor
    · intro h
      obtain ⟨f, ms', hf, hms, rfl⟩ := Checked.ap_eq_valid _ _ _ h
      obtain ⟨m, hm, rfl⟩ := Checked.map_eq_valid _ _ _ hf
      rw [Checked.under_eq_valid, checkMember_eq_valid v.2 hv] at hm
      exact .cons ⟨rfl, hm⟩ ((hrest ms').mp hms)
    · intro h
      cases h with
      | @cons _ m _ ms' hm hms =>
        obtain ⟨k, m⟩ := m
        obtain ⟨hk, hm⟩ := hm
        have hcheck := (checkMember_eq_valid v.2 hv m).mpr hm
        have hchecks := (hrest ms').mpr hms
        cases hk
        unfold checkMembers
        rw [hcheck, hchecks]
        rfl

theorem mismatch?_eq_none (ms : List (Str × Member)) :
    mismatch? ms = none ↔ ∀ m ∈ ms, m.1 = m.2.container := by
  unfold mismatch?
  rw [List.find?_eq_none]
  exact forall₂_congr fun m _ => by simp

/-! ### Tables -/

/-- The members of a document that stand for entries; none where it has no such key. -/
inductive Lists (v : Value) : List (Str × Value) → Prop
  | absent (ms : List (Str × Value)) (hv : v = .object ms) (h : v.get? "entries" = none) :
    Lists v []
  | given (vs : List (Str × Value)) (h : v.get? "entries" = some (.object vs)) : Lists v vs

/-- Members that spell a table. Each of them spells some entry. Of a key the last member counts, its
container is the key, and its place is where the key came first. -/
structure SpelledBy (vs : List (Str × Value)) (t : Table) : Prop where
  each : ∀ v ∈ vs, ∃ e, Entry.Spelled v.2 e
  order : t.containers.map Str.ofString = (keys vs).eraseDups
  last : ∀ e ∈ t, ∃ w, getMember (Str.ofString e.container) vs = some w ∧ Entry.Spelled w e

/-- A document spells a table. -/
def Spells (v : Value) (t : Table) : Prop := ∃ vs, Lists v vs ∧ SpelledBy vs t

theorem SpelledBy.storable {vs : List (Str × Value)} {t : Table} (h : SpelledBy vs t) :
    t.Storable := by
  constructor
  · have hn := uniqueMembers_keys_nodup vs
    rw [keys_uniqueMembers, ← h.order] at hn
    exact hn.of_map _
  · intro e he
    obtain ⟨w, -, hw⟩ := h.last e he
    exact hw.recordable

/-- What is left of members that were checked, once no key is repeated. -/
theorem left_of_paired (vs : List (Str × Value)) (ms : List (Str × Member))
    (h : List.Forall₂ (Paired Stands) vs ms) :
    keys (uniqueMembers ms) = (keys vs).eraseDups ∧
      ∀ m ∈ uniqueMembers ms, ∃ w, getMember m.1 vs = some w ∧ Stands w m.2 := by
  have hleft := uniqueMembers_paired Stands vs ms h
  refine ⟨(keys_paired hleft).symm.trans (keys_uniqueMembers vs), fun m hm => ?_⟩
  obtain ⟨v, hv, hk, hstands⟩ := paired_mem hleft m hm
  exact ⟨v.2, hk ▸ (mem_uniqueMembers_iff vs v).mp hv, hstands⟩

theorem spelledBy_of_paired (vs : List (Str × Value)) (ms : List (Str × Member))
    (h : List.Forall₂ (Paired Stands) vs ms)
    (hmatch : ∀ m ∈ uniqueMembers ms, m.1 = m.2.container) :
    SpelledBy vs ((uniqueMembers ms).map (·.2.entry)) := by
  obtain ⟨hkeys, hleft⟩ := left_of_paired vs ms h
  have hcontainer : ∀ m ∈ uniqueMembers ms, Str.ofString m.2.entry.container = m.1 := by
    intro m hm
    obtain ⟨w, -, -, hc⟩ := hleft m hm
    exact ((hmatch m hm).trans hc).symm
  refine ⟨fun v hv => ?_, ?_, fun e he => ?_⟩
  · obtain ⟨m, hs, -⟩ := (exists_paired Stands vs).mp ⟨ms, h⟩ v hv
    exact ⟨m.entry, hs⟩
  · rw [← hkeys, Table.containers, List.map_map, List.map_map]
    exact List.map_congr_left hcontainer
  · obtain ⟨m, hm, rfl⟩ := List.mem_map.mp he
    obtain ⟨w, hw, hs, -⟩ := hleft m hm
    exact ⟨w, by rw [hcontainer m hm, hw], hs⟩

/-- Members that spell a table are left with its entries, each under its container. -/
theorem entries_of_spelledBy (vs : List (Str × Value)) (t : Table) (ms : List (Str × Member))
    (hs : SpelledBy vs t) (h : List.Forall₂ (Paired Stands) vs ms) :
    (∀ m ∈ uniqueMembers ms, m.1 = m.2.container) ∧ (uniqueMembers ms).map (·.2.entry) = t := by
  obtain ⟨hkeys, hleft⟩ := left_of_paired vs ms h
  have hentry : ∀ m ∈ uniqueMembers ms, m.2.entry ∈ t ∧ m.1 = m.2.container := by
    intro m hm
    obtain ⟨w, hw, hspelled, hc⟩ := hleft m hm
    have hkey : m.1 ∈ t.containers.map Str.ofString := by
      rw [hs.order, ← hkeys]
      exact List.mem_map.mpr ⟨m, hm, rfl⟩
    obtain ⟨c, hct, hcm⟩ := List.mem_map.mp hkey
    obtain ⟨e, he, rfl⟩ := List.mem_map.mp hct
    obtain ⟨w', hw', hspelled'⟩ := hs.last e he
    rw [hcm, hw] at hw'
    cases hw'
    -- one value spells the entry that is left and the entry of the table
    have heq := hspelled.unique hspelled'
    rw [hc, heq]
    exact ⟨he, hcm.symm⟩
  refine ⟨fun m hm => (hentry m hm).2, ?_⟩
  refine Table.eq_of_containers t _ hs.storable.containers ?_ fun e he => ?_
  · refine (List.map_inj_right Str.ofString_inj).mp ?_
    rw [hs.order, ← hkeys, Table.containers, List.map_map, List.map_map]
    refine List.map_congr_left fun m hm => ?_
    obtain ⟨w, -, -, hc⟩ := hleft m hm
    exact (hc.symm.trans (hentry m hm).2.symm)
  · obtain ⟨m, hm, rfl⟩ := List.mem_map.mp he
    exact (hentry m hm).1

/-! ### Documents -/

theorem lists_of_check (v : Value) (t : Table) (h : check .text v = .valid t) :
    ∃ vs ms, Lists v vs ∧ checkMembers .text vs = .valid ms ∧
      mismatch? (uniqueMembers ms) = none ∧ (uniqueMembers ms).map (·.2.entry) = t := by
  unfold check at h
  split at h
  · rename_i members
    obtain ⟨left, hleft, h⟩ := Checked.andThen_eq_valid _ _ _ h
    have hend : mismatch? left = none ∧ left.map (·.2.entry) = t := by
      split at h
      · cases h
      · rename_i hmatch
        exact ⟨hmatch, Checked.valid.inj h⟩
    unfold Field.defaulted at hleft
    split at hleft
    · rename_i w hw
      rw [Checked.under_eq_valid] at hleft
      cases w with
      | object vs =>
        obtain ⟨ms, hms, rfl⟩ := Checked.map_eq_valid _ _ _ hleft
        exact ⟨vs, ms, .given vs hw, hms, hend⟩
      | _ => cases hleft
    · rename_i hw
      cases hleft
      exact ⟨[], [], .absent members rfl hw, rfl, hend⟩
  · cases h

theorem check_of_lists (v : Value) (vs : List (Str × Value)) (ms : List (Str × Member))
    (hl : Lists v vs) (hms : checkMembers .text vs = .valid ms)
    (hmatch : mismatch? (uniqueMembers ms) = none) :
    check .text v = .valid ((uniqueMembers ms).map (·.2.entry)) := by
  cases hl with
  | absent members hv h =>
    cases hms
    cases hv
    simp only [check, Field.defaulted, h]
    rfl
  | given _ h =>
    cases v with
    | object members =>
      simp only [check, Field.defaulted, h, hms, Checked.map, Checked.under, Checked.andThen,
        hmatch]
    | _ => cases h

/-- A document passes its check as the table that it spells. -/
theorem check_eq_valid (v : Value) (hv : v.Found) (t : Table) :
    check .text v = .valid t ↔ Spells v t := by
  have hfound : ∀ vs, Lists v vs → ∀ m ∈ vs, m.2.Found := by
    intro vs hl m hm
    cases hl with
    | absent => cases hm
    | given _ h => exact ((hv.get? h).members m hm).2
  constructor
  · intro h
    obtain ⟨vs, ms, hl, hms, hmatch, rfl⟩ := lists_of_check v t h
    rw [checkMembers_eq_valid vs (hfound vs hl)] at hms
    exact ⟨vs, hl, spelledBy_of_paired vs ms hms ((mismatch?_eq_none _).mp hmatch)⟩
  · rintro ⟨vs, hl, hs⟩
    have heach : ∀ m ∈ vs, ∃ n, Stands m.2 n := by
      intro m hm
      obtain ⟨e, he⟩ := hs.each m hm
      exact ⟨⟨Str.ofString e.container, e⟩, he, rfl⟩
    obtain ⟨ms, hms⟩ := (exists_paired Stands vs).mpr heach
    obtain ⟨hmatch, rfl⟩ := entries_of_spelledBy vs t ms hs hms
    exact check_of_lists v vs ms hl ((checkMembers_eq_valid vs (hfound vs hl) ms).mpr hms)
      ((mismatch?_eq_none _).mpr hmatch)

/-! ### Bytes -/

theorem decodeUtf8_toUTF8 (s : String) : Text.decodeUtf8 s.toUTF8 = .ok s := by
  have hvalid : s.toUTF8.IsValidUTF8 := s.isValidUTF8
  have hs : String.fromUTF8? s.toUTF8 = some s := by
    unfold String.fromUTF8?
    rw [dif_pos hvalid]
    rfl
  simp only [Text.decodeUtf8, hs]

theorem decodeUtf8_eq_ok (bytes : ByteArray) (s : String) :
    Text.decodeUtf8 bytes = .ok s ↔ bytes = s.toUTF8 := by
  constructor
  · intro h
    unfold Text.decodeUtf8 String.fromUTF8? at h
    split at h
    · rename_i x hx
      split at hx
      · cases hx
        cases h
        rfl
      · cases hx
    · split at h
      · cases h
      · cases h
  · rintro rfl
    exact decodeUtf8_toUTF8 s

/-- Bytes hold a table where they are the text of a document that spells it. -/
theorem ofBytes_eq_valid (bytes : ByteArray) (t : Table) :
    ofBytes bytes = .valid t ↔
      ∃ s v, bytes = s.toUTF8 ∧ Json.read .strict s = .ok v ∧ Spells v t := by
  unfold ofBytes ofText
  constructor
  · intro h
    split at h
    · rename_i s hs
      split at h
      · rename_i v hv
        exact ⟨s, v, (decodeUtf8_eq_ok bytes s).mp hs, hv,
          (check_eq_valid v (found_of_read s v hv) t).mp h⟩
      · cases h
    · cases h
  · rintro ⟨s, v, hs, hv, ht⟩
    rw [(decodeUtf8_eq_ok bytes s).mpr hs]
    simp only [hv]
    exact (check_eq_valid v (found_of_read s v hv) t).mpr ht

/-- The table that bytes hold can be stored again. -/
theorem storable_of_ofBytes (bytes : ByteArray) (t : Table) (h : ofBytes bytes = .valid t) :
    t.Storable := by
  obtain ⟨s, v, -, -, vs, -, hspelled⟩ := (ofBytes_eq_valid bytes t).mp h
  exact hspelled.storable

end Document

end LayerQuota
