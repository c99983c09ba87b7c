import LayerQuota.Proofs.Durable
/-!
# What a load accepts

The document of a table is read back as that table. Of all contents that a file can have, a load
accepts those that are blank and those that are the text of a document which spells a table without
a repeated ID; any other content leaves the store and the file as they were.
-/

namespace LayerQuota

open LayerQuota.Json LayerQuota.Text

namespace Store

/-! ### Reading back -/

/-- The bytes that a save of a table writes are loaded as that table, entry for entry and in its
order, whatever its texts are and whatever the store held before. -/
theorem load_saved (t : Table) (ht : t.Storable) (hn : t.ids.Nodup) :
    (∀ {σ : Type} (d : Disk σ) (faults : σ → SaveFaults) (s : Store) (w w' : σ × FileSystem),
      save (d.filed faults) s t w = (.ok (), w') →
        w'.2.read s.path = .ok (Document.render t).toUTF8) ∧
    ∀ {σ : Type} (d : Disk σ) (s : Store) (w w₁ : σ),
      d.read s.path w = (.ok (Document.render t).toUTF8, w₁) →
        ∃ w', s.load d w = (.ok (), { s with table := t }, w') := by
  constructor
  · intro σ d faults s w w' h
    exact Save.read_of_run_ok _ _ _ _ _ (run_of_save d faults _ _ _ _ (save_eq_ok _ _ _ _ _ h))
  · intro σ d s w w₁ hread
    have hblank := Document.not_blank_render t
    have haccept := (accept_of_valid _ t (Document.ofBytes_render t ht)).1 hn
    simp only [load, hread, hblank, haccept, Bool.false_eq_true, if_false]
    exact ⟨_, rfl⟩

/-- Texts that are empty, that hold quotes, backslashes, control characters and characters beyond
ASCII, and that look like documents, with the least ID and the greatest. -/
def oddTexts : Table :=
  [⟨"", 0, ""⟩, ⟨"\"\\", 4294967295, "/\n\t\u0000\u001f\u007f"⟩,
    ⟨"\x7b\"entries\": \x7b\x7d\x7d", 1, "null"⟩, ⟨"é😀", 7, "\u2028\uFEFF"⟩]

/-- A disk that keeps no journal. -/
def quiet : Disk Unit := ⟨fun _ w => w, fun _ _ w => (.ok (), w), fun _ w => (.ok .empty, w)⟩

/-- A directory that is empty. -/
def bareFiles : FileSystem := ⟨[(["d"], .directory)]⟩

theorem oddTexts_load_saved :
    let s : Store := ⟨"/d/s", []⟩
    oddTexts.Storable ∧ oddTexts.ids.Nodup ∧
    ∃ w', save (quiet.filed fun _ => []) s oddTexts ((), bareFiles) = (.ok (), w') ∧
      w'.2.read s.path = .ok (Document.render oddTexts).toUTF8 ∧
      ∃ w'', s.load (quiet.filed fun _ => []) w' = (.ok (), ⟨"/d/s", oddTexts⟩, w'') := by
  intro s
  have ht : oddTexts.Storable := ⟨by decide, by decide⟩
  have hn : oddTexts.ids.Nodup := by decide
  obtain ⟨hwritten, hload⟩ := load_saved oddTexts ht hn
  have hok : (save (quiet.filed fun _ => []) s oddTexts ((), bareFiles)).1.isOk = true := by
    decide +kernel
  rcases hsave : save (quiet.filed fun _ => []) s oddTexts ((), bareFiles) with ⟨f | u, w'⟩
  · rw [hsave] at hok
    cases hok
  · have hread := hwritten quiet _ s _ _ hsave
    have hfile : (quiet.filed fun _ => []).read s.path w' =
        (.ok (Document.render oddTexts).toUTF8, w') := Prod.ext hread rfl
    exact ⟨ht, hn, w', rfl, hread, hload _ s _ _ hfile⟩

/-! ### What is accepted -/

/-- A content from which a table can be loaded: blank bytes, or the text of a document that spells a
table without a repeated ID. -/
inductive Sound (bytes : ByteArray) : Table → Prop
  | blank (hb : isBlankBytes bytes = true) : Sound bytes []
  | document (text : String) (v : Value) (t : Table) (hb : isBlankBytes bytes = false)
    (htext : bytes = text.toUTF8) (hv : Json.read .strict text = .ok v)
    (ht : Document.Spells v t) (hn : t.ids.Nodup) : Sound bytes t

theorem sound_of_blank (bytes : ByteArray) (t : Table) (hb : isBlankBytes bytes = true) :
    Sound bytes t ↔ t = [] := by
  constructor
  · intro h
    cases h with
    | blank => rfl
    | document _ _ _ hb' =>
      rw [hb] at hb'
      cases hb'
  · rintro rfl
    exact .blank hb

theorem sound_iff_accept (bytes : ByteArray) (t : Table) (hb : isBlankBytes bytes = false) :
    Sound bytes t ↔ accept bytes = .ok t := by
  constructor
  · intro h
    cases h with
    | blank hb' =>
      rw [hb] at hb'
      cases hb'
    | document text v _ _ htext hv ht hn =>
      exact (accept_of_valid bytes t
        ((Document.ofBytes_eq_valid bytes t).mpr ⟨text, v, htext, hv, ht⟩)).1 hn
  · intro h
    obtain ⟨hvalid, hn⟩ := accept_eq_ok bytes t h
    obtain ⟨text, v, htext, hv, ht⟩ := (Document.ofBytes_eq_valid bytes t).mp hvalid
    exact .document text v t hb htext hv ht hn

/-- A load of a file that can be read succeeds just where its content is sound, and has the table
of that content then. Otherwise it names the path, and the store stays as it was. The files do in
any case. -/
theorem load_iff_sound {σ : Type} (d : Disk σ) (faults : σ → SaveFaults) (s : Store)
    (w : σ × FileSystem) (bytes : ByteArray) (hread : w.2.read s.path = .ok bytes) :
    let p := s.load (d.filed faults) w
    p.2.2.2 = w.2 ∧ (p.1 = .ok () ↔ ∃ t, Sound bytes t) ∧
      (∀ t, Sound bytes t → p.2.1 = { s with table := t }) ∧
      ((¬∃ t, Sound bytes t) → p.2.1 = s ∧ ∃ cause, p.1 = .error (.corrupt s.path cause)) := by
  have hcall : (d.filed faults).read s.path w = (.ok bytes, ((d.read s.path w.1).2, w.2)) :=
    Prod.ext hread rfl
  intro p
  cases hb : isBlankBytes bytes with
  | true =>
    have hp : p = (.ok (), { s with table := [] }, ((d.read s.path w.1).2, w.2)) := by
      simp only [p, load, hcall, hb, if_true]
    rw [hp]
    refine ⟨rfl, iff_of_true rfl ⟨[], .blank hb⟩, fun t ht => ?_, fun hnot => ?_⟩
    · rw [(sound_of_blank bytes t hb).mp ht]
    · exact absurd ⟨[], .blank hb⟩ hnot
  | false =>
    rcases ha : accept bytes with cause | t
    · have hp : p = (.error (.corrupt s.path cause), s, ((d.read s.path w.1).2, w.2)) := by
        simp only [p, load, hcall, hb, ha, Bool.false_eq_true, if_false]
      have hnone : ∀ t, ¬Sound bytes t := by
        intro t ht
        cases ha.symm.trans ((sound_iff_accept bytes t hb).mp ht)
      rw [hp]
      refine ⟨rfl, iff_of_false (fun hr => ?_) (not_exists.mpr hnone),
        fun t ht => absurd ht (hnone t), fun _ => ⟨rfl, cause, rfl⟩⟩
      cases hr
    · have hs : Sound bytes t := (sound_iff_accept bytes t hb).mpr ha
      obtain ⟨v, hp⟩ : ∃ v, p = (.ok (), { s with table := t }, (v, w.2)) := by
        simp only [p, load, hcall, hb, ha, Bool.false_eq_true, if_false]
        exact ⟨_, rfl⟩
      rw [hp]
      refine ⟨rfl, iff_of_true rfl ⟨t, hs⟩, fun t' ht' => ?_, fun hnot => absurd ⟨t, hs⟩ hnot⟩
      cases ha.symm.trans ((sound_iff_accept bytes t' hb).mp ht')
      rfl

/-- The document of one entry, which is also under that key before, and whose ID is a text. -/
def repeatedKey : String :=
  "\x7b\"entries\":\x7b" ++
    "\"a\":\x7b\"container_id\":\"b\",\"project_id\":1,\"upperdir\":\"/v\"\x7d," ++
    "\"a\":\x7b\"container_id\":\"a\",\"project_id\":\"7\",\"upperdir\":\"/u\"\x7d\x7d\x7d"

theorem repeatedKey_load_iff_sound :
    let fs : FileSystem := ⟨[(["s"], .file repeatedKey.toUTF8 0o644)]⟩
    let s : Store := ⟨"/s", [⟨"c", 1, "/w"⟩]⟩
    let p := s.load (quiet.filed fun _ => []) ((), fs)
    fs.read s.path = .ok repeatedKey.toUTF8 ∧ p.2.1.table = [⟨"a", 7, "/u"⟩] ∧
      p.2.2.2 = fs ∧ (p.1 = .ok () ↔ ∃ t, Sound repeatedKey.toUTF8 t) ∧
      (∀ t, Sound repeatedKey.toUTF8 t → p.2.1 = { s with table := t }) ∧
      ((¬∃ t, Sound repeatedKey.toUTF8 t) →
        p.2.1 = s ∧ ∃ cause, p.1 = .error (.corrupt s.path cause)) := by
  intro fs s p
  have hfile : ∀ bytes : ByteArray,
      (FileSystem.mk [(["s"], .file bytes 0o644)]).read "/s" = .ok bytes := fun _ => rfl
  have hread : fs.read s.path = .ok repeatedKey.toUTF8 := hfile _
  exact ⟨hread, by decide +kernel,
    load_iff_sound quiet (fun _ => []) s ((), fs) _ hread⟩

end Store

end LayerQuota
