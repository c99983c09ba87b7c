import LayerQuota.Launch
import LayerQuota.Proofs.Accepted
import LayerQuota.Proofs.Json.Limits
/-!
# How loading a configuration fails

Loading gives a configuration or fails as the daemon's own kind, which ends the launch with one. Four
contents of a file escape this: bytes that are no text, a numeral with too many digits, containers
that nest too deep, and a document that is no object. They are raised as they are and end the launch
without an exit code; so is a path that can name no file.
-/

namespace LayerQuota

open LayerQuota.Json LayerQuota.Number

/-- The document that a text holds: its lines end in line feeds. -/
def Config.document (s : String) : String := String.ofList (Text.unifyLines s.toList)

namespace Config

/-- What is raised as it is when a configuration is loaded from a content. -/
inductive Escapes : Except OsFault ByteArray → Failure → Prop
  | unnamed : Escapes (.error .embeddedNull) (.os .embeddedNull)
  | undecodable (bytes : ByteArray) (m : Text.Malformed) (h : Text.decodeUtf8 bytes = .error m) :
    Escapes (.ok bytes) (.bytes m)
  | numeral (s : String) (f : Fault) (t : TooLong)
      (h : Json.read .lenient (document s) = .error f) (hf : f.problem = .tooLong t) :
    Escapes (.ok s.toUTF8) (.tooLong t)
  | nesting (s : String) (f : Fault) (container : String)
      (h : Json.read .lenient (document s) = .error f) (hf : f.problem = .tooDeep container) :
    Escapes (.ok s.toUTF8) (.tooDeep container)
  | noObject (s : String) (v : Value) (h : Json.read .lenient (document s) = .ok v)
      (hv : ∀ ms, v ≠ .object ms) : Escapes (.ok s.toUTF8) (.noMember v.kind "items")

/-- A text without those faults: in its document no number has too many digits and no more containers
are opened than may nest, and it is an object if it is a document at all. -/
structure Plain (s : String) : Prop where
  short : ∀ run, run <:+: (document s).toList → (∀ c ∈ run, isAsciiDigit c = true) →
    run.length ≤ digitLimit
  shallow : (document s).toList.count '\x7b' + (document s).toList.count '[' ≤ Rules.lenient.depth
  object : ∀ v, Json.read .lenient (document s) = .ok v → ∃ ms, v = .object ms

/-! ### The text of a file -/

theorem load_toUTF8 (path s : String) :
    (load path (.ok s.toUTF8)).1 = (ofText path (document s)).1 := by
  simp only [load, Document.decodeUtf8_toUTF8, document]

theorem ofText_noObject (path text : String) (v : Value) (h : Json.read .lenient text = .ok v)
    (hv : ∀ ms, v ≠ .object ms) : (ofText path text).1 = .error (.noMember v.kind "items") := by
  unfold ofText
  cases v with
  | object ms => exact absurd rfl (hv ms)
  | _ => simp only [h]

/-- What a text is refused for: a cause of the daemon's own, or one that passes through. -/
theorem ofText_error (path s : String) (f : Failure)
    (h : (ofText path (document s)).1 = .error f) :
    (∃ cause, f = .config path cause) ∨ Escapes (.ok s.toUTF8) f := by
  unfold ofText at h
  split at h
  · rename_i fault hread
    split at h
    · rename_i t ht
      cases h
      exact .inr (.numeral s fault t hread ht)
    · rename_i container hc
      cases h
      exact .inr (.nesting s fault container hread hc)
    · cases h
      exact .inl ⟨_, rfl⟩
  · split at h
    · cases h
    · cases h
      exact .inl ⟨_, rfl⟩
  · rename_i v hv hread
    cases h
    exact .inr (.noObject s v hread fun ms heq => hv ms heq)

theorem lenient_ground (text : String) (f : Fault) (h : Json.read .lenient text = .error f) :
    Ground Rules.lenient.depth text.toList f.problem :=
  read_ground rfl text f h

/-! ### Loading -/

theorem load_error (path : String) (content : Except OsFault ByteArray) (f : Failure)
    (h : (load path content).1 = .error f) :
    (∃ cause, f = .config path cause) ∨ Escapes content f := by
  cases content with
  | error e =>
    cases e with
    | embeddedNull =>
      cases h
      exact .inr .unnamed
    | _ =>
      cases h
      exact .inl ⟨_, rfl⟩
  | ok bytes =>
    cases hb : Text.decodeUtf8 bytes with
    | error m =>
      simp only [load, hb] at h
      cases h
      exact .inr (.undecodable bytes m hb)
    | ok s =>
      obtain rfl := (Document.decodeUtf8_eq_ok bytes s).mp hb
      rw [load_toUTF8] at h
      exact ofText_error path s f h

namespace Escapes

variable {content : Except OsFault ByteArray} {f : Failure}

theorem load (h : Escapes content f) (path : String) : (load path content).1 = .error f := by
  cases h with
  | unnamed => rfl
  | undecodable bytes m h => simp only [Config.load, h]
  | numeral s fault t h hf => simp only [load_toUTF8, ofText, h, hf]
  | nesting s fault container h hf => simp only [load_toUTF8, ofText, h, hf]
  | noObject s v h hv =>
    rw [load_toUTF8]
    exact ofText_noObject path (document s) v h hv

theorem foreign (h : Escapes content f) : f.isOwn = false := by
  cases h with
  | _ => rfl

theorem not_config (h : Escapes content f) (path : String) (cause : ConfigCause) :
    f ≠ .config path cause := by
  rintro rfl
  cases h

/-- What escapes from the file of a text has its ground in the text. -/
theorem not_plain {s : String} (h : Escapes (.ok s.toUTF8) f) : ¬Plain s := by
  intro hp
  generalize hbytes : s.toUTF8 = bytes at h
  have hs := (Document.decodeUtf8_eq_ok bytes s).mpr hbytes.symm
  cases h with
  | undecodable _ m hm =>
    rw [hs] at hm
    cases hm
  | numeral s' fault t hread hf =>
    rw [Document.decodeUtf8_toUTF8] at hs
    cases hs
    have hground := lenient_ground (document s) fault hread
    rw [hf] at hground
    obtain ⟨hlong, run, hrun, hlen, hdigit⟩ := hground
    have hshort := hp.short run hrun hdigit
    omega
  | nesting s' fault container hread hf =>
    rw [Document.decodeUtf8_toUTF8] at hs
    cases hs
    have hground := lenient_ground (document s) fault hread
    rw [hf] at hground
    exact Nat.not_le.mpr hground hp.shallow
  | noObject s' v hread hv =>
    rw [Document.decodeUtf8_toUTF8] at hs
    cases hs
    obtain ⟨ms, hms⟩ := hp.object v hread
    exact hv ms hms

end Escapes

/-- Loading keeps to its own kind of failure just where nothing escapes. -/
theorem confined_iff (path : String) (content : Except OsFault ByteArray) :
    (¬∃ f, Escapes content f) ↔ (∃ c, (load path content).1 = .ok c) ∨
      ∃ cause, (load path content).1 = .error (.config path cause) := by
  constructor
  · intro hno
    cases hr : (load path content).1 with
    | ok c => exact .inl ⟨c, rfl⟩
    | error f =>
      rcases load_error path content f hr with ⟨cause, rfl⟩ | hesc
      · exact .inr ⟨cause, rfl⟩
      · exact absurd ⟨f, hesc⟩ hno
  · rintro (⟨c, hc⟩ | ⟨cause, hcause⟩) ⟨f, hesc⟩
    · have hload := hesc.load path
      rw [hc] at hload
      cases hload
    · have hload := hesc.load path
      rw [hcause] at hload
      exact hesc.not_config path cause (Except.error.inj hload).symm

end Config

/-! ### Launching -/

namespace Launch

variable {τ : Type} (s : Surroundings τ) (fuel : Nat) {args : List String} {path : String}
  (st : Station τ)

theorem log_outside (l : Line) : (st.log l).outside = st.outside := by
  unfold Station.log
  split <;> rfl

theorem configure_fst (path : String) :
    (configure s path st).1 = (Config.load path (s.read path st.outside).1).1 := by
  simp only [configure, log_outside]

theorem perform_error (h : CommandLine.parse args = .start path) (f : Failure)
    (hf : (Config.load path (s.read path st.outside).1).1 = .error f) :
    (perform s fuel args st).1 = if f.isOwn then .ok (.served 1) else .error f := by
  rw [← configure_fst s st path] at hf
  obtain ⟨r, st', hr⟩ : ∃ r st', configure s path st = (r, st') := ⟨_, _, rfl⟩
  rw [hr] at hf
  subst hf
  simp only [perform, h, start, hr]
  split <;> rfl

/-- Loading gives a configuration or fails as the daemon's own kind just where nothing escapes from
the content, and nothing escapes from a plain file. A failure of the daemon's own kind ends the
launch with one; what escapes ends it as it is. -/
theorem perform_refuses (h : CommandLine.parse args = .start path) :
    let content := (s.read path st.outside).1
    let loaded := (Config.load path content).1
    ((¬∃ f, Config.Escapes content f) ↔
        (∃ c, loaded = .ok c) ∨ ∃ cause, loaded = .error (.config path cause)) ∧
      (∀ text, content = .ok text.toUTF8 → Config.Plain text →
        (∃ c, loaded = .ok c) ∨ ∃ cause, loaded = .error (.config path cause)) ∧
      (∀ cause, loaded = .error (.config path cause) →
        (perform s fuel args st).1 = .ok (.served 1)) ∧
      ∀ f, Config.Escapes content f → loaded = .error f ∧ (perform s fuel args st).1 = .error f := by
  intro content loaded
  have hconfined := Config.confined_iff path content
  refine ⟨hconfined, fun text htext hplain => ?_, fun cause hcause => ?_, fun f hf => ?_⟩
  · refine hconfined.mp ?_
    rintro ⟨f, hf⟩
    rw [htext] at hf
    exact hf.not_plain hplain
  · exact perform_error s fuel st h _ hcause
  · have hload := hf.load path
    have hperform := perform_error s fuel st h f hload
    rw [hf.foreign] at hperform
    exact ⟨hload, hperform⟩

/-! ### A file that holds no object -/

/-- Surroundings in which one file can be read, and every call succeeds without doing anything. -/
def still (file : ByteArray) : Surroundings Unit where
  interrupt _ _ := (false, ())
  makeClient _ _ _ := (.ok 0, ())
  ping _ _ := (.ok (), ())
  closeClient _ _ := (.ok (), ())
  list _ _ := (.ok [], ())
  inspect _ _ _ := (.ok .null, ())
  info _ _ := (.ok .null, ())
  events _ _ := (.ok 0, ())
  closeStream _ _ := (.ok (), ())
  tag _ _ _ := ((.ok (), []), ())
  setLimit _ _ _ _ := ((.ok (), []), ())
  readTag _ _ := ((.ok 0, []), ())
  isPresent _ _ := (.ok true, ())
  read _ _ := (.ok file, ())
  save _ _ _ := (.ok (), ())
  execute _ _ _ := (.exited 0 "" "", ())
  partitions _ := ([], ())
  serve _ _ _ _ := (.ok (), ())
  pull _ _ d := (.ended, d)
  patience := 0

/-- An empty list is a document, but no object. -/
theorem list_escapes : Config.Escapes (.ok "[]".toUTF8) (.noMember "list" "items") :=
  .noObject "[]" (.array []) rfl nofun

theorem perform_refuses_list :
    CommandLine.parse ["--config", "config.json"] = .start "config.json" ∧
      (Config.load "config.json" (.ok "[]".toUTF8)).1 = .error (.noMember "list" "items") ∧
      (perform (still "[]".toUTF8) 0 ["--config", "config.json"] (opening ())).1 =
        .error (.noMember "list" "items") := by
  have hparse : CommandLine.parse ["--config", "config.json"] = .start "config.json" := by decide
  obtain ⟨-, -, -, hescape⟩ := perform_refuses (still "[]".toUTF8) 0 (opening ()) hparse
  exact ⟨hparse, hescape _ list_escapes⟩

/-- Not every failure to load a configuration is one of the daemon's own kinds. -/
theorem list_not_refused :
    ¬∀ content : Except OsFault ByteArray, (∃ c, (Config.load "config.json" content).1 = .ok c) ∨
      ∃ cause, (Config.load "config.json" content).1 = .error (.config "config.json" cause) := by
  intro hall
  have hnone := (Config.confined_iff "config.json" _).mpr (hall (.ok "[]".toUTF8))
  exact hnone ⟨_, list_escapes⟩

end Launch

end LayerQuota
