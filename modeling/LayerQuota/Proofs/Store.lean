import LayerQuota.Proofs.Table
import LayerQuota.State.Store
/-!
# What becomes of a table

The outcomes of a change of the store: it was written, it was taken back because the document could
not be written, or it stands although nothing was written, where the path can name no file. Loading
leaves a table in which no project ID is repeated.
-/

namespace LayerQuota.Store

variable {σ : Type}

/-! ### Changes -/

inductive PutOutcome (s : Store) (e : Entry) : Except Failure Unit → Store → Prop
  | written : PutOutcome s e (.ok ()) { s with table := s.table.put e }
  | undone (f : Failure) (hf : f.isUnsaved = true) : PutOutcome s e (.error f) s
  | unwritten (f : Failure) (hf : f.isUnsaved = false) :
    PutOutcome s e (.error f) { s with table := s.table.put e }

theorem put_outcome (d : Disk σ) (s s' : Store) (e : Entry) (w w' : σ) (r : Except Failure Unit)
    (h : s.put d e w = (r, s', w')) : PutOutcome s e r s' := by
  rcases hs : save d s (s.table.put e) w with ⟨f | _, w₁⟩
  · simp only [put, hs] at h
    cases hf : f.isUnsaved with
    | true =>
      simp only [hf, if_true] at h
      cases h
      exact .undone f hf
    | false =>
      simp only [hf, Bool.false_eq_true, if_false] at h
      cases h
      exact .unwritten f hf
  · simp only [put, hs] at h
    cases h
    exact .written

inductive RemoveOutcome (s : Store) (c : String) : Except Failure Unit → Store → Prop
  | absent (h : s.table.get? c = none) : RemoveOutcome s c (.ok ()) s
  | written (e : Entry) (h : s.table.get? c = some e) :
    RemoveOutcome s c (.ok ()) { s with table := s.table.remove c }
  | undone (e : Entry) (h : s.table.get? c = some e) (f : Failure) (hf : f.isUnsaved = true) :
    RemoveOutcome s c (.error f) { s with table := s.table.remove c ++ [e] }
  | unwritten (e : Entry) (h : s.table.get? c = some e) (f : Failure) (hf : f.isUnsaved = false) :
    RemoveOutcome s c (.error f) { s with table := s.table.remove c }

theorem remove_outcome (d : Disk σ) (s s' : Store) (c : String) (w w' : σ)
    (r : Except Failure Unit) (h : s.remove d c w = (r, s', w')) : RemoveOutcome s c r s' := by
  cases he : s.table.get? c with
  | none =>
    simp only [remove, he] at h
    cases h
    exact .absent he
  | some e =>
    rcases hs : save d s (s.table.remove c) w with ⟨f | _, w₁⟩
    · simp only [remove, he, hs] at h
      cases hf : f.isUnsaved with
      | true =>
        simp only [hf, if_true] at h
        cases h
        exact .undone e he f hf
      | false =>
        simp only [hf, Bool.false_eq_true, if_false] at h
        cases h
        exact .unwritten e he f hf
    · simp only [remove, he, hs] at h
      cases h
      exact .written e he

theorem PutOutcome.path {s s' : Store} {e : Entry} {r : Except Failure Unit}
    (ho : PutOutcome s e r s') : s'.path = s.path := by
  cases ho <;> rfl

theorem RemoveOutcome.path {s s' : Store} {c : String} {r : Except Failure Unit}
    (ho : RemoveOutcome s c r s') : s'.path = s.path := by
  cases ho <;> rfl

theorem PutOutcome.sameBut {s s' : Store} {e : Entry} {r : Except Failure Unit}
    (ho : PutOutcome s e r s') (h : s.table.get? e.container = none) :
    Table.SameBut e.container s.table s'.table := by
  cases ho with
  | written => exact Table.sameBut_put s.table e h
  | undone f hf => exact .refl _ _
  | unwritten f hf => exact Table.sameBut_put s.table e h

theorem RemoveOutcome.sameBut {s s' : Store} {c : String} {r : Except Failure Unit}
    (ho : RemoveOutcome s c r s') : Table.SameBut c s.table s'.table := by
  cases ho with
  | absent h => exact .refl _ _
  | written e h => exact Table.sameBut_remove s.table c
  | undone e h f hf => exact Table.sameBut_remove_append s.table c e h
  | unwritten e h f hf => exact Table.sameBut_remove s.table c

theorem save_eq_ok (d : Disk σ) (s : Store) (t : Table) (w w' : σ)
    (h : save d s t w = (.ok (), w')) : d.save s.path (Document.render t) w = (.ok (), w') := by
  unfold save at h
  split at h
  · rename_i w₁ hs
    cases h
    exact hs
  · cases h
  · cases h

theorem save_fails (d : Disk σ) (s : Store) (t : Table) (w w' : σ) (f : Failure)
    (h : save d s t w = (.error f, w')) :
    f = .os .embeddedNull ∨ ∃ fault, f = .unsaved s.path fault := by
  unfold save at h
  split at h
  · cases h
  · cases h
    exact .inl rfl
  · rename_i fault w₁ _ hs
    cases h
    exact .inr ⟨fault, rfl⟩

/-- A change fails as its save does. -/
theorem put_eq_error (d : Disk σ) (s s' : Store) (e : Entry) (w w' : σ) (f : Failure)
    (h : s.put d e w = (.error f, s', w')) : save d s (s.table.put e) w = (.error f, w') := by
  rcases hs : save d s (s.table.put e) w with ⟨g | _, w₁⟩
  · simp only [put, hs] at h
    cases h
    rfl
  · simp only [put, hs] at h
    cases h

theorem remove_eq_error (d : Disk σ) (s s' : Store) (c : String) (w w' : σ) (f : Failure)
    (h : s.remove d c w = (.error f, s', w')) : save d s (s.table.remove c) w = (.error f, w') := by
  cases he : s.table.get? c with
  | none => simp [remove, he] at h
  | some e =>
    rcases hs : save d s (s.table.remove c) w with ⟨g | _, w₁⟩
    · simp only [remove, he, hs] at h
      cases h
      rfl
    · simp [remove, he, hs] at h

/-- What a put asks of the disk: to write the new table, and perhaps a line after that. -/
theorem put_calls (d : Disk σ) (s s' : Store) (e : Entry) (w w' : σ) (r : Except Failure Unit)
    (h : s.put d e w = (r, s', w')) :
    ∃ a w₁, d.save s.path (Document.render (s.table.put e)) w = (a, w₁) ∧
      (w' = w₁ ∨ ∃ l, w' = d.log l w₁) ∧
      ((r = .ok () ∧ a = .ok ()) ∨
        (∃ fault, r = .error (.unsaved s.path fault) ∧ a = .error fault) ∨
        (r = .error (.os .embeddedNull) ∧ a = .error .embeddedNull)) := by
  rcases hs : d.save s.path (Document.render (s.table.put e)) w with ⟨f | u, w₁⟩
  · cases f with
    | embeddedNull =>
      simp only [put, save, hs] at h
      cases h
      exact ⟨_, _, rfl, .inl rfl, .inr (.inr ⟨rfl, rfl⟩)⟩
    | system code text names =>
      simp only [put, save, hs] at h
      cases h
      exact ⟨_, _, rfl, .inr ⟨_, rfl⟩, .inr (.inl ⟨_, rfl, rfl⟩)⟩
    | plain m =>
      simp only [put, save, hs] at h
      cases h
      exact ⟨_, _, rfl, .inr ⟨_, rfl⟩, .inr (.inl ⟨_, rfl, rfl⟩)⟩
  · simp only [put, save, hs] at h
    cases h
    exact ⟨_, _, rfl, .inl rfl, .inl ⟨rfl, rfl⟩⟩

/-! ### A path that can name a file -/

/-- A path that no save refuses, as it does where the path can name no file. -/
def Nameable (d : Disk σ) (path : String) : Prop :=
  ∀ text w w', d.save path text w ≠ (.error .embeddedNull, w')

theorem save_eq_error (d : Disk σ) (s : Store) (t : Table) (w w' : σ) (f : Failure)
    (hn : Nameable d s.path) (h : save d s t w = (.error f, w')) :
    ∃ fault, f = .unsaved s.path fault := by
  unfold save at h
  split at h
  · cases h
  · rename_i w₁ hs
    exact absurd hs (hn _ _ _)
  · rename_i fault w₁ _ hs
    cases h
    exact ⟨fault, rfl⟩

/-- A put is written or taken back. -/
theorem put_settled (d : Disk σ) (s s' : Store) (e : Entry) (w w' : σ) (r : Except Failure Unit)
    (hn : Nameable d s.path) (h : s.put d e w = (r, s', w')) :
    (r = .ok () ∧ s' = { s with table := s.table.put e }) ∨
      ((∃ fault, r = .error (.unsaved s.path fault)) ∧ s' = s) := by
  rcases hs : save d s (s.table.put e) w with ⟨f | _, w₁⟩
  · obtain ⟨fault, rfl⟩ := save_eq_error d s _ w w₁ f hn hs
    simp only [put, hs, Failure.isUnsaved, if_true] at h
    cases h
    exact .inr ⟨⟨fault, rfl⟩, rfl⟩
  · simp only [put, hs] at h
    cases h
    exact .inl ⟨rfl, rfl⟩

section Saved

variable (d : Disk σ) (s : Store) (hs : ∀ text w, (d.save s.path text w).1 = .ok ())

include hs

theorem save_ok (t : Table) (w : σ) : (save d s t w).1 = .ok () := by
  have hok := hs (Document.render t) w
  unfold save
  generalize d.save s.path (Document.render t) w = a at hok
  obtain ⟨r, w₁⟩ := a
  cases hok
  rfl

/-- Where every save goes through, so does every change. -/
theorem put_saved (s' : Store) (e : Entry) (w w' : σ) (r : Except Failure Unit)
    (h : s.put d e w = (r, s', w')) : r = .ok () ∧ s' = { s with table := s.table.put e } := by
  have hok := save_ok d s hs (s.table.put e) w
  simp only [put] at h
  generalize save d s (s.table.put e) w = a at hok h
  obtain ⟨r₁, w₁⟩ := a
  cases hok
  cases h
  exact ⟨rfl, rfl⟩

theorem remove_saved (s' : Store) (c : String) (w w' : σ) (r : Except Failure Unit)
    (h : s.remove d c w = (r, s', w')) :
    r = .ok () ∧ s' = { s with table := s.table.remove c } := by
  unfold remove at h
  cases he : s.table.get? c with
  | none =>
    rw [he] at h
    cases h
    rw [Table.remove_absent _ c he]
    exact ⟨rfl, rfl⟩
  | some e =>
    have hok := save_ok d s hs (s.table.remove c) w
    rw [he] at h
    simp only at h
    generalize save d s (s.table.remove c) w = a at hok h
    obtain ⟨r₁, w₁⟩ := a
    cases hok
    cases h
    exact ⟨rfl, rfl⟩

end Saved

/-! ### What lies outside -/

section Keeps

variable (d : Disk σ) (P : σ → Prop)
  (hlog : ∀ l w, l.level = .error → P w → P (d.log l w))
  (hsave : ∀ path text w, P w → P (d.save path text w).2)

include hlog hsave

theorem save_keeps (s : Store) (t : Table) (w : σ) (hw : P w) : P (save d s t w).2 := by
  have h₁ := hsave s.path (Document.render t) w hw
  unfold save
  generalize d.save s.path (Document.render t) w = a at h₁
  obtain ⟨f | _, w₁⟩ := a
  · cases f with
    | embeddedNull => exact h₁
    | system code text names => exact hlog _ _ rfl h₁
    | plain m => exact hlog _ _ rfl h₁
  · exact h₁

/-- What neither a line of an error nor a save changes outlasts a change of the store. -/
theorem put_keeps (s : Store) (e : Entry) (w : σ) (hw : P w) : P (s.put d e w).2.2 := by
  have h₁ := save_keeps d P hlog hsave s (s.table.put e) w hw
  simp only [put]
  generalize save d s (s.table.put e) w = a at h₁
  obtain ⟨f | _, w₁⟩ := a
  · exact h₁
  · exact h₁

theorem remove_keeps (s : Store) (c : String) (w : σ) (hw : P w) : P (s.remove d c w).2.2 := by
  unfold remove
  cases s.table.get? c with
  | none => exact hw
  | some e =>
    have h₁ := save_keeps d P hlog hsave s (s.table.remove c) w hw
    simp only
    generalize save d s (s.table.remove c) w = a at h₁
    obtain ⟨f | _, w₁⟩ := a
    · exact h₁
    · exact h₁

end Keeps

/-! ### Loading -/

theorem sharedId?_eq_none (seen : List (Int × String)) (t : Table) (h : sharedId? seen t = none) :
    t.ids.Nodup ∧ ∀ e ∈ t, seen.lookup e.projectId = none := by
  induction t generalizing seen with
  | nil => exact ⟨List.nodup_nil, fun e he => absurd he List.not_mem_nil⟩
  | cons f t ih =>
    unfold sharedId? at h
    split at h
    · cases h
    · rename_i hf
      obtain ⟨hn, hseen⟩ := ih _ h
      -- an entry behind `f` has neither its ID nor one that was seen before it
      have hrest : ∀ e ∈ t, e.projectId ≠ f.projectId ∧ seen.lookup e.projectId = none := by
        intro e he
        have hl := hseen e he
        rw [List.lookup_cons] at hl
        split at hl
        · cases hl
        · rename_i hb
          exact ⟨by simpa using hb, hl⟩
      refine ⟨List.nodup_cons.mpr ⟨?_, hn⟩, ?_⟩
      · intro hm
        obtain ⟨e, he, hid⟩ := List.mem_map.mp hm
        exact (hrest e he).1 hid
      · intro e he
        rcases List.mem_cons.mp he with rfl | he
        · exact hf
        · exact (hrest e he).2

theorem sharedId?_of_nodup (seen : List (Int × String)) (t : Table) (hn : t.ids.Nodup)
    (hs : ∀ e ∈ t, seen.lookup e.projectId = none) : sharedId? seen t = none := by
  induction t generalizing seen with
  | nil => rfl
  | cons f t ih =>
    obtain ⟨hf, ht⟩ := List.nodup_cons.mp hn
    unfold sharedId?
    rw [hs f List.mem_cons_self]
    refine ih _ ht fun e he => ?_
    have hne : e.projectId ≠ f.projectId := fun heq => hf (List.mem_map.mpr ⟨e, he, heq⟩)
    rw [List.lookup_cons, beq_false_of_ne hne]
    exact hs e (List.mem_cons_of_mem f he)

theorem accept_eq_ok (bytes : ByteArray) (t : Table) (h : accept bytes = .ok t) :
    Document.ofBytes bytes = .valid t ∧ t.ids.Nodup := by
  unfold accept at h
  split at h
  · cases h
  · rename_i u hu
    split at h
    · cases h
    · rename_i hs
      cases h
      exact ⟨hu, (sharedId?_eq_none [] t hs).1⟩

/-- A document that can be read is refused exactly where it repeats an ID. -/
theorem accept_of_valid (bytes : ByteArray) (t : Table) (h : Document.ofBytes bytes = .valid t) :
    (t.ids.Nodup → accept bytes = .ok t) ∧
      (¬t.ids.Nodup → ∃ id a b, accept bytes = .error (.sharedId id a b)) := by
  unfold accept
  rw [h]
  constructor
  · intro hn
    have hnone : sharedId? [] t = none := sharedId?_of_nodup [] t hn fun _ _ => rfl
    simp only [hnone]
  · intro hn
    cases hs : sharedId? [] t with
    | none => exact absurd (sharedId?_eq_none [] t hs).1 hn
    | some x => exact ⟨x.1, x.2.1, x.2.2, by simp only [hs]⟩

/-- What a store and the outside can be after a load that succeeded. -/
inductive LoadOutcome (d : Disk σ) (s : Store) (w : σ) : Store → σ → Prop
  | created (f : OsFault) (w₁ w₂ : σ) (l : Line) (hr : d.read s.path w = (.error f, w₁))
    (hm : f.isMissing = true) (hs : save d { s with table := [] } [] (d.log l w₁) = (.ok (), w₂)) :
    LoadOutcome d s w { s with table := [] } w₂
  | blank (bytes : ByteArray) (w₁ : σ) (hr : d.read s.path w = (.ok bytes, w₁))
    (hb : Text.isBlankBytes bytes = true) : LoadOutcome d s w { s with table := [] } w₁
  | accepted (bytes : ByteArray) (w₁ : σ) (t : Table) (l : Line)
    (hr : d.read s.path w = (.ok bytes, w₁)) (hb : Text.isBlankBytes bytes = false)
    (ha : accept bytes = .ok t) : LoadOutcome d s w { s with table := t } (d.log l w₁)

theorem load_outcome (d : Disk σ) (s s' : Store) (w w' : σ)
    (h : s.load d w = (.ok (), s', w')) : LoadOutcome d s w s' w' := by
  rcases hr : d.read s.path w with ⟨f | bytes, w₁⟩
  · cases f with
    | embeddedNull => simp [load, hr] at h
    | plain m => simp [load, hr, OsFault.isMissing] at h
    | system code text names =>
      cases hm : (OsFault.system code text names).isMissing with
      | false => simp [load, hr, hm] at h
      | true =>
        rcases hs : save d { s with table := [] } []
          (d.log ⟨.info, s!"State file {s.path} not found, creating an empty one"⟩ w₁) with ⟨r, w₂⟩
        simp only [load, hr, hm, hs, if_true] at h
        cases h
        exact .created _ w₁ w' _ hr hm hs
  · cases hb : Text.isBlankBytes bytes with
    | true =>
      simp only [load, hr, hb, if_true] at h
      cases h
      exact .blank bytes w' hr hb
    | false =>
      rcases ha : accept bytes with c | t
      · simp [load, hr, hb, ha] at h
      · simp only [load, hr, hb, ha, Bool.false_eq_true, if_false] at h
        cases h
        exact .accepted bytes w₁ t _ hr hb ha

theorem load_path (d : Disk σ) (s s' : Store) (w w' : σ) (h : s.load d w = (.ok (), s', w')) :
    s'.path = s.path := by
  cases load_outcome d s s' w w' h <;> rfl

/-- A path from which a store was loaded can name a file, where those that cannot are refused
alike. -/
theorem load_nameable (d : Disk σ) (s s' : Store) (w w' : σ) (h : s.load d w = (.ok (), s', w'))
    (hr : ∀ path text v v', d.save path text v = (.error .embeddedNull, v') →
      ∀ u, (d.read path u).1 = .error .embeddedNull) : Nameable d s'.path := by
  intro text v v' hs
  have href := hr _ text v v' hs w
  rw [load_path d s s' w w' h] at href
  cases load_outcome d s s' w w' h with
  | created f w₁ w₂ l hread hm hsave =>
    rw [hread] at href
    cases href
    cases hm
  | blank bytes w₁ hread hb =>
    rw [hread] at href
    cases href
  | accepted bytes w₁ t l hread hb ha =>
    rw [hread] at href
    cases href

theorem load_ids_nodup (d : Disk σ) (s s' : Store) (w w' : σ)
    (h : s.load d w = (.ok (), s', w')) : s'.table.ids.Nodup := by
  cases load_outcome d s s' w w' h with
  | created => exact List.nodup_nil
  | blank => exact List.nodup_nil
  | accepted bytes _ t _ _ _ ha => exact (accept_eq_ok bytes t ha).2

end LayerQuota.Store
