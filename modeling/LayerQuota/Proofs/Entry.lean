import LayerQuota.Proofs.Json.Value
import LayerQuota.Proofs.Table
/-!
# Entries that pass their check

An entry that is made of a container and an ID is of that container and has that ID, which a file
system can record.
-/

namespace LayerQuota

namespace Checked

theorem map_eq_valid {α β : Type} (f : α → β) (x : Checked α) (b : β) (h : x.map f = .valid b) :
    ∃ a, x = .valid a ∧ f a = b := by
  cases x with
  | valid a => exact ⟨a, rfl, Checked.valid.inj h⟩
  | invalid vs => cases h

theorem andThen_eq_valid {α β : Type} (x : Checked α) (f : α → Checked β) (b : β)
    (h : x.andThen f = .valid b) : ∃ a, x = .valid a ∧ f a = .valid b := by
  cases x with
  | valid a => exact ⟨a, rfl, h⟩
  | invalid vs => cases h

theorem ap_eq_valid {α β : Type} (f : Checked (α → β)) (x : Checked α) (b : β)
    (h : f.ap x = .valid b) : ∃ g a, f = .valid g ∧ x = .valid a ∧ g a = b := by
  cases f with
  | valid g =>
    cases x with
    | valid a => exact ⟨g, a, rfl, rfl, Checked.valid.inj h⟩
    | invalid vs => cases h
  | invalid us =>
    cases x with
    | valid a => cases h
    | invalid vs => cases h

theorem under_eq_valid {α : Type} (step : String) (x : Checked α) (a : α) :
    x.under step = .valid a ↔ x = .valid a := by
  cases x with
  | valid b => rfl
  | invalid vs => simp [under]

theorem ensure_eq_valid {α : Type} (p : α → Bool) (rule : Rule) (v : Json.Value) (x : Checked α)
    (a : α) : x.ensure p rule v = .valid a ↔ x = .valid a ∧ p a = true := by
  constructor
  · intro h
    obtain ⟨b, hb, h⟩ := andThen_eq_valid x _ a h
    split at h
    · rename_i hp
      cases h
      exact ⟨hb, hp⟩
    · cases h
  · rintro ⟨rfl, ha⟩
    exact if_pos ha

end Checked

namespace Entry

open LayerQuota.Json

def Recordable (id : Int) : Prop := 0 ≤ id ∧ id ≤ maxProjectId

instance (id : Int) : Decidable (Recordable id) := inferInstanceAs (Decidable (_ ∧ _))

theorem recordableId_eq_valid (v : Value) (id : Int) :
    recordableId v = .valid id ↔ Field.integer v = .valid id ∧ Recordable id := by
  unfold recordableId Config.between Recordable
  rw [Checked.ensure_eq_valid, Checked.ensure_eq_valid, decide_eq_true_eq, decide_eq_true_eq,
    and_assoc, and_comm (a := id ≤ maxProjectId)]

theorem recordableId_int (id : Int) (h : Recordable id) : recordableId (.int id) = .valid id :=
  (recordableId_eq_valid (.int id) id).mpr ⟨rfl, h⟩

theorem text_text (s : String) : Field.text (.text s) = .valid s := by
  simp only [Field.text, Value.text, Field.string, Checked.map, Str.text_ofString]

theorem make_eq_valid (c : String) (id : Int) (dir : Value) (e : Entry)
    (h : make (.text c) (.int id) dir = .valid e) :
    e.container = c ∧ e.projectId = id ∧ Recordable id := by
  unfold make at h
  obtain ⟨f, u, hf, -, rfl⟩ := Checked.ap_eq_valid _ _ _ h
  obtain ⟨g, n, hg, hn, rfl⟩ := Checked.ap_eq_valid _ _ _ hf
  obtain ⟨s, hs, rfl⟩ := Checked.map_eq_valid _ _ _ hg
  rw [Checked.under_eq_valid, text_text] at hs
  rw [Checked.under_eq_valid] at hn
  obtain ⟨heq, hid⟩ := (recordableId_eq_valid _ n).mp hn
  cases heq
  exact ⟨(Checked.valid.inj hs).symm, rfl, hid⟩

theorem make_text (c : String) (id : Int) (path : String) (h : Recordable id) :
    make (.text c) (.int id) (.text path) = .valid ⟨c, id, path⟩ := by
  unfold make
  rw [text_text, recordableId_int id h, text_text]
  rfl

end Entry

/-- A table that a document can hold. -/
structure Table.Storable (t : Table) : Prop where
  containers : t.containers.Nodup
  recordable : ∀ e ∈ t, Entry.Recordable e.projectId

theorem Table.Storable.append {t : Table} (h : t.Storable) (e : Entry)
    (hc : t.get? e.container = none) (hid : Entry.Recordable e.projectId) :
    Table.Storable (t ++ [e]) := by
  refine ⟨Table.containers_append_nodup t h.containers e hc, fun x hx => ?_⟩
  rcases List.mem_append.mp hx with hx | hx
  · exact h.recordable x hx
  · rw [List.mem_singleton.mp hx]
    exact hid

theorem Table.Storable.put {t : Table} (h : t.Storable) (e : Entry)
    (hid : Entry.Recordable e.projectId) : (t.put e).Storable := by
  cases he : t.get? e.container with
  | none =>
    rw [Table.put_absent t e he]
    exact h.append e he hid
  | some f =>
    refine ⟨?_, fun x hx => ?_⟩
    · rw [Table.containers_put t e (by rw [he]; exact Option.some_ne_none f)]
      exact h.containers
    · rcases Table.mem_put t e x hx with hx | rfl
      · exact h.recordable x hx
      · exact hid

theorem Table.Storable.perm {t u : Table} (h : t.Storable) (hp : u.Perm t) : u.Storable :=
  ⟨(hp.map _).nodup_iff.mpr h.containers, fun e he => h.recordable e (hp.mem_iff.mp he)⟩

theorem Table.Storable.remove {t : Table} (h : t.Storable) (c : String) : (t.remove c).Storable :=
  ⟨(List.filter_sublist.map _).nodup h.containers,
    fun e he => h.recordable e ((Table.mem_remove t c e).mp he).1⟩

end LayerQuota
