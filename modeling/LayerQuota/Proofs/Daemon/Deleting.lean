import LayerQuota.Proofs.Daemon.Run
/-!
# A deletion frees one ID or changes nothing

The end of a container frees its own ID, or the one that its directory carries and no entry has, and
then the container is forgotten. However else a deletion ends, the record and the IDs in use are as
before. A directory that carries another ID than the recorded one is the only thing that counts as
inconsistent.
-/

namespace LayerQuota.Host

open LayerQuota.Act

variable {σ : Type} {h : Host σ} {c : String} {d d' : Daemon σ} {r : Except Failure (Option Int)}

/-- The same IDs are in use, and the same entries are found. -/
structure Unchanged (core core' : Core) : Prop where
  pool : core'.pool = core.pool
  entries : ∀ b, core'.store.table.get? b = core.store.table.get? b

/-- A container is forgotten and an ID is free, and nothing else is. -/
structure Freed (c : String) (id : Int) (core core' : Core) : Prop where
  forgotten : core'.store.table.get? c = none
  free : id ∉ core'.pool.used
  others : ∀ b, b ≠ c → core'.store.table.get? b = core.store.table.get? b
  inUse : ∀ n, n ≠ id → (n ∈ core'.pool.used ↔ n ∈ core.pool.used)

/-- The runtime reports a directory for the container, which is there, and its tag is read. -/
def ReadsTag (h : Host σ) (c : String) (w : σ) (found : Int) : Prop :=
  ∃ dir w₁ w₂ w₃, h.resolve c w = (.ok dir, w₁) ∧ h.isPresent dir w₁ = (.ok true, w₂) ∧
    h.readTag dir w₂ = (.ok found, w₃)

/-- No call of a deletion fails as one that finds an inconsistency. -/
structure NeverInconsistent (h : Host σ) : Prop where
  resolve : ∀ c w b n m w', h.resolve c w ≠ (.error (.inconsistent b n m), w')
  isPresent : ∀ dir w b n m w', h.isPresent dir w ≠ (.error (.inconsistent b n m), w')
  readTag : ∀ dir w b n m w', h.readTag dir w ≠ (.error (.inconsistent b n m), w')
  setLimit : ∀ id soft hard w b n m w',
    h.setLimit id soft hard w ≠ (.error (.inconsistent b n m), w')

theorem Unchanged.refl (core : Core) : Unchanged core core := ⟨rfl, fun _ => rfl⟩

/-! ### Forgetting -/

theorem freed_release (c : String) (id : Int) (core : Core) :
    Freed c id core { core with
      pool := core.pool.release id, store := ⟨core.store.path, core.store.table.remove c⟩ } := by
  refine ⟨Table.get?_remove_self _ c, fun hm => ?_, fun b hb => Table.get?_remove_other _ c b hb,
    fun n hn => ?_⟩
  · exact ((Pool.mem_release core.pool id id).mp hm).2 rfl
  · exact (Pool.mem_release core.pool id n).trans (and_iff_left hn)

theorem Forgetting.ends {id : Int} {core : Core} {w : σ} (hf : h.Forgetting c id core w r d')
    (hn : Store.Nameable h.toDisk core.store.path) :
    (r = .ok (some id) ∧ Freed c id core d'.core) ∨
      ((∃ f, r = .error f ∧ f.isUnsaved = true) ∧ Unchanged core d'.core) := by
  have hunsaved := hf.unsaved hn
  have ho := hf.forgotten
  generalize d'.core = core' at ho
  cases ho with
  | done => exact .inl ⟨rfl, freed_release c id core⟩
  | undone e he f hu =>
    exact .inr ⟨⟨f, rfl, hu⟩, rfl, fun b => Table.get?_remove_append _ c b e he⟩
  | unwritten e he f hu => exact absurd ((hunsaved f rfl).symm.trans hu) nofun

/-! ### The ID that is freed -/

/-- The ID of the entry, or one of the range that the directory carries and no entry has. -/
def FreeableId (h : Host σ) (c : String) (d : Daemon σ) (id : Int) : Prop :=
  (∃ e, d.core.store.table.get? c = some e ∧ e.projectId = id) ∨
    (d.core.store.table.get? c = none ∧ d.core.pool.inRange id = true ∧
      (∀ x ∈ d.core.store.table, x.projectId ≠ id) ∧ h.ReadsTag c d.outside id)

theorem DeleteOutcome.ends (ho : h.DeleteOutcome c d r d')
    (hn : Store.Nameable h.toDisk d.core.store.path) :
    (∃ id, r = .ok (some id) ∧ FreeableId h c d id ∧ Freed c id d.core d'.core) ∨
      ((∀ id, r ≠ .ok (some id)) ∧ Unchanged d.core d'.core) := by
  have hforget : ∀ id w, FreeableId h c d id → h.Forgetting c id d.core w r d' →
      (∃ id, r = .ok (some id) ∧ FreeableId h c d id ∧ Freed c id d.core d'.core) ∨
        ((∀ id, r ≠ .ok (some id)) ∧ Unchanged d.core d'.core) := by
    intro id w hid hf
    obtain ⟨hr, hfreed⟩ | ⟨⟨f, rfl, -⟩, hsame⟩ := hf.ends hn
    · exact .inl ⟨id, hr, hid, hfreed⟩
    · exact .inr ⟨nofun, hsame⟩
  cases ho with
  | overtaken hc => exact .inr ⟨nofun, .refl _⟩
  | unresolved f w' hr => exact .inr ⟨nofun, .refl _⟩
  | unseen dir f w₁ w' hr hp => exact .inr ⟨nofun, .refl _⟩
  | absent dir w₁ w₂ w' hr hp he hq => exact .inr ⟨nofun, .refl _⟩
  | unchosen dir r w₁ w₂ w' hr hp hc hno => exact .inr ⟨hno, .refl _⟩
  | unclear dir id f w₁ w₂ w₃ w' hr hp hc hl hf => exact .inr ⟨nofun, .refl _⟩
  | cleared dir id rl w₁ w₂ w₃ w₄ w₅ r d' hr hp hc hl hq hf =>
    refine hforget id w₅ ?_ hf
    cases hc with
    | own e rt v w' he ht hfound hq' => exact .inl ⟨e, he, rfl⟩
    | adopted _ v w' he ht hin hno hq' =>
      exact .inr ⟨he, hin, hno, dir, w₁, w₂, v, hr, hp, ht⟩
  | gone dir e w₁ w₂ r d' hr hp he hf => exact hforget e.projectId w₂ (.inl ⟨e, he, rfl⟩) hf

theorem run_handleDelete_cancelled (hc : h.cancelled d.outside = true) :
    Act.run (h.handleDelete c) d = (.error .cancelled, d) := by
  rw [handleDelete, run_bind, run_checkpoint, hc]
  rfl

/-- A directory without a tag frees nothing of a container without an entry. -/
theorem run_handleDelete_untagged (hc : h.cancelled d.outside = false)
    (he : d.core.store.table.get? c = none) (ht : h.ReadsTag c d.outside 0) :
    (Act.run (h.handleDelete c) d).1 = .ok none := by
  obtain ⟨dir, w₁, w₂, w₃, hr, hp, ht⟩ := ht
  have hjudge : (Act.run (h.idToClear c dir none) ⟨d.core, w₂⟩).1 = .ok none := by
    rw [idToClear, run_bind, run_attempt, run_call]
    simp only [ht, judge, if_true]
    rfl
  rw [handleDelete, run_bind, run_checkpoint, hc]
  simp only [Bool.false_eq_true, if_false]
  rw [run_bind, run_call, hr]
  simp only
  rw [run_bind, run_entry?]
  simp only
  rw [run_bind, run_call, hp, he]
  simp only [if_true, Option.map_none]
  rw [run_bind]
  generalize Act.run (h.idToClear c dir none) ⟨d.core, w₂⟩ = a at hjudge
  obtain ⟨r, d₁⟩ := a
  cases hjudge
  rfl

/-! ### What is inconsistent -/

theorem DeleteOutcome.mismatch {b : String} {n m : Int}
    (ho : h.DeleteOutcome c d (.error (.inconsistent b n m)) d') (hs : h.NeverInconsistent)
    (hn : Store.Nameable h.toDisk d.core.store.path) :
    ∃ e found, d.core.store.table.get? c = some e ∧ h.ReadsTag c d.outside found ∧ found ≠ 0 ∧
      found ≠ e.projectId := by
  have hforget : ∀ id w, ¬h.Forgetting c id d.core w (.error (.inconsistent b n m)) d' := by
    intro id w hf
    cases hf.unsaved hn _ rfl
  cases ho with
  | unresolved f w' hr => exact absurd hr (hs.resolve _ _ _ _ _ _)
  | unseen dir f w₁ w' hr hp => exact absurd hp (hs.isPresent _ _ _ _ _ _)
  | unchosen dir r w₁ w₂ w' hr hp hc hno =>
    cases hc with
    | unread f w' ht => exact absurd ht (hs.readTag _ _ _ _ _ _)
    | inconsistent e found w' he ht hne =>
      exact ⟨e, m, he, ⟨dir, w₁, w₂, w', hr, hp, ht⟩, hne⟩
  | unclear dir id f w₁ w₂ w₃ w' hr hp hc hl hf => exact absurd hl (hs.setLimit _ _ _ _ _ _ _ _)
  | cleared dir id rl w₁ w₂ w₃ w₄ w₅ r d' hr hp hc hl hq hf => exact absurd hf (hforget _ _)
  | gone dir e w₁ w₂ r d' hr hp he hf => exact absurd hf (hforget _ _)

theorem DeleteOutcome.of_mismatch (ho : h.DeleteOutcome c d r d')
    (hc : h.cancelled d.outside = false) {e : Entry} {found : Int}
    (he : d.core.store.table.get? c = some e) (ht : h.ReadsTag c d.outside found)
    (hne : found ≠ 0 ∧ found ≠ e.projectId) :
    r = .error (.inconsistent c e.projectId found) := by
  obtain ⟨dir, w₁, w₂, w₃, hr, hp, ht⟩ := ht
  -- With the calls answered, no choice but the refusal is left.
  have hchoice : ∀ rc w, h.ChoiceOutcome c dir d.core w₂ rc w →
      rc = .error (.inconsistent c e.projectId found) := by
    intro rc w hch
    cases hch with
    | own e' rt v w he' ht' hfound hq =>
      cases he.symm.trans he'
      cases ht.symm.trans ht'
      exact absurd (hfound found rfl) (not_or.mpr hne)
    | adopted id v w he' ht' hin hno hq => cases he.symm.trans he'
    | unclaimed found' v w he' ht' hno hq => cases he.symm.trans he'
    | unread f w ht' => cases ht.symm.trans ht'
    | inconsistent e' found' w he' ht' hne' =>
      cases he.symm.trans he'
      cases ht.symm.trans ht'
      rfl
  cases ho with
  | overtaken hc' => exact absurd (hc.symm.trans hc') nofun
  | unresolved f w' hr' => cases hr.symm.trans hr'
  | unseen dir' f v w' hr' hp' =>
    cases hr.symm.trans hr'
    cases hp.symm.trans hp'
  | absent dir' v v' w' hr' hp' he' hq => cases he.symm.trans he'
  | unchosen dir' r v v' w' hr' hp' hch hno =>
    cases hr.symm.trans hr'
    cases hp.symm.trans hp'
    exact hchoice r w' hch
  | unclear dir' id f v v' v'' w' hr' hp' hch hl hf =>
    cases hr.symm.trans hr'
    cases hp.symm.trans hp'
    cases hchoice _ _ hch
  | cleared dir' id rl v₁ v₂ v₃ v₄ v₅ r d' hr' hp' hch hl hq hf =>
    cases hr.symm.trans hr'
    cases hp.symm.trans hp'
    cases hchoice _ _ hch
  | gone dir' e' v v' r d' hr' hp' he' hf =>
    cases hr.symm.trans hr'
    cases hp.symm.trans hp'

/-- A deletion that fails, or answers no ID, changes neither the IDs in use nor the record. One that
answers an ID has forgotten the container and freed just that ID: its own, or one that is not zero,
is of the range, is carried by the directory that is still there, and is in no entry. It fails as
inconsistent exactly where the directory carries an ID, and not the recorded one. -/
theorem handleDelete_exact (h : Host σ) (c : String) (d : Daemon σ)
    (hn : Store.Nameable h.toDisk d.core.store.path) :
    let a := Act.run (h.handleDelete c) d
    ((∃ f, a.1 = .error f) ∨ a.1 = .ok none → Unchanged d.core a.2.core) ∧
      (∀ id, a.1 = .ok (some id) → Freed c id d.core a.2.core ∧
        ((∃ e, d.core.store.table.get? c = some e ∧ e.projectId = id) ∨
          (d.core.store.table.get? c = none ∧ id ≠ 0 ∧ d.core.pool.inRange id = true ∧
            (∀ x ∈ d.core.store.table, x.projectId ≠ id) ∧ h.ReadsTag c d.outside id))) ∧
      (h.NeverInconsistent →
        ((∃ b n m, a.1 = .error (.inconsistent b n m)) ↔
          h.cancelled d.outside = false ∧ ∃ e found, d.core.store.table.get? c = some e ∧
            h.ReadsTag c d.outside found ∧ found ≠ 0 ∧ found ≠ e.projectId)) := by
  intro a
  have ho : h.DeleteOutcome c d a.1 a.2 := h.handleDelete_outcome c d
  have hends := ho.ends hn
  refine ⟨fun hr => ?_, fun id hr => ?_, fun hs => ⟨?_, ?_⟩⟩
  · obtain ⟨id, hid, -⟩ | ⟨-, hsame⟩ := hends
    · obtain ⟨f, hr⟩ | hr := hr
      · cases hid.symm.trans hr
      · cases hid.symm.trans hr
    · exact hsame
  · obtain ⟨id', hid, hfreeable, hfreed⟩ | ⟨hno, -⟩ := hends
    · cases hr.symm.trans hid
      refine ⟨hfreed, hfreeable.imp_right ?_⟩
      rintro ⟨he, hin, hunowned, ht⟩
      refine ⟨he, ?_, hin, hunowned, ht⟩
      rintro rfl
      cases hc : h.cancelled d.outside with
      | true => cases hr.symm.trans (congrArg Prod.fst (run_handleDelete_cancelled hc))
      | false => cases hr.symm.trans (run_handleDelete_untagged hc he ht)
    · exact absurd hr (hno id)
  · rintro ⟨b, n, m, hr⟩
    refine ⟨?_, ?_⟩
    · cases hc : h.cancelled d.outside with
      | true => cases hr.symm.trans (congrArg Prod.fst (run_handleDelete_cancelled hc))
      | false => rfl
    · rw [hr] at ho
      exact ho.mismatch hs hn
  · rintro ⟨hc, e, found, he, ht, hne⟩
    exact ⟨c, e.projectId, found, ho.of_mismatch hc he ht hne⟩

/-- A host on which every directory carries the ID 2. -/
def mistagged : Host Unit := { smooth with readTag := fun _ w => (.ok 2, w) }

theorem mistagged_handleDelete_exact :
    let d : Daemon Unit :=
      ⟨Core.opening ⟨"10g", "12g", .ofInt 5, none⟩ ⟨1, 2, [1]⟩ ⟨"/s", [⟨"a", 1, "/u"⟩]⟩, ()⟩
    let a := Act.run (mistagged.handleDelete "a") d
    (∃ b n m, a.1 = .error (.inconsistent b n m)) ∧ Unchanged d.core a.2.core := by
  intro d a
  obtain ⟨hsame, -, hwhen⟩ := handleDelete_exact mistagged "a" d fun _ _ _ => nofun
  have hnever : mistagged.NeverInconsistent := ⟨nofun, nofun, nofun, nofun⟩
  have htag : mistagged.ReadsTag "a" () 2 := ⟨Layer.ofPath "a", (), (), (), rfl, rfl, rfl⟩
  have hraised := (hwhen hnever).mpr ⟨rfl, ⟨"a", 1, "/u"⟩, 2, rfl, htag, by decide, by decide⟩
  obtain ⟨b, n, m, hr⟩ := hraised
  exact ⟨⟨b, n, m, hr⟩, hsame (.inl ⟨_, hr⟩)⟩

end LayerQuota.Host
