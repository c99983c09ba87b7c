import LayerQuota.Proofs.Accepted
import LayerQuota.Proofs.Config
import LayerQuota.Proofs.PoolHistory
import Mathlib.Data.List.DropRight
/-!
# What an accepted configuration is good for

A configuration that was loaded is what its document spells, however the fields are spelled: its IDs
are a range that can be recorded, its sizes are sizes, its level is a level. Those who use these
fields check them again on their own, and their checks pass: the pool is made, every ID that it ever
hands out makes an entry, and the journal is set up.
-/

namespace LayerQuota

open LayerQuota.Json

/-! ### Trimming -/

namespace Text

theorem trimList_eq (p : Char → Bool) (cs : List Char) :
    trimList p cs = (cs.dropWhile p).rdropWhile p := rfl

theorem dropWhile_of_prefix (p : Char → Bool) (cs front : List Char) (h : cs.dropWhile p = cs)
    (hfront : front <+: cs) : front.dropWhile p = front := by
  cases front with
  | nil => rfl
  | cons c front =>
    obtain ⟨rest, rfl⟩ := hfront
    have hc : ¬p c = true := List.dropWhile_eq_self_iff.mp h (Nat.succ_pos _)
    exact List.dropWhile_cons_of_neg hc

theorem trimList_idem (p : Char → Bool) (cs : List Char) :
    trimList p (trimList p cs) = trimList p cs := by
  have hfront : (trimList p cs).dropWhile p = trimList p cs :=
    dropWhile_of_prefix p (cs.dropWhile p) _ (List.dropWhile_idempotent p cs)
      (List.rdropWhile_prefix p _)
  rw [trimList_eq p (trimList p cs), hfront, trimList_eq, List.rdropWhile_idempotent]

theorem trim_idem (s : String) : trim (trim s) = trim s := by
  unfold trim
  rw [String.toList_ofList, trimList_idem]

end Text

/-- A size without the blanks around it is the same size. -/
theorem Size.parse_trim (s : String) (n : Nat) (h : Size.parse s = .ok n) :
    Size.parse (Text.trim s) = .ok n := by
  have htrim : Text.trimList Text.isBlank (Text.trim s).toList =
      Text.trimList Text.isBlank s.toList := by
    rw [Text.trim, String.toList_ofList, Text.trimList_idem]
  unfold Size.parse at h ⊢
  rw [htrim]
  cases hsplit : Size.split? (Text.trimList Text.isBlank s.toList) with
  | none =>
    rw [hsplit] at h
    cases h
  | some r =>
    rw [hsplit] at h
    exact h

/-! ### Values of fields -/

theorem Json.mapM_charOf? (ns : List Nat) (cs : List Char) (h : ns.mapM charOf? = some cs) :
    ns = cs.map Char.toNat := by
  induction ns generalizing cs with
  | nil =>
    cases h
    rfl
  | cons n ns ih =>
    simp only [List.mapM_cons, Option.bind_eq_bind, Option.bind_eq_some_iff, Option.pure_def,
      Option.some.injEq] at h
    obtain ⟨c, hc, cs', hcs, rfl⟩ := h
    rw [List.map_cons, charOf?_eq_some n c hc, ← ih cs' hcs]

theorem Json.Str.eq_ofString (s : Str) (t : String) (h : s.toString? = some t) :
    s = Str.ofString t := by
  obtain ⟨points⟩ := s
  obtain ⟨cs, hcs, rfl⟩ := Option.map_eq_some_iff.mp h
  unfold Str.ofString
  rw [String.toList_ofList, ← mapM_charOf? points cs hcs]

theorem Field.string_eq_valid (v : Value) (s : Str) (h : Field.string v = .valid s) :
    v = .str s := by
  cases v with
  | str t =>
    cases h
    rfl
  | _ => cases h

theorem Level.ofName?_eq_some (s : String) (l : Level) (h : Level.ofName? s = some l) :
    l.name = s := by
  have hfound := List.find?_some h
  exact beq_iff_eq.mp hfound

theorem Level.name_mem (l : Level) :
    l.name ∈ ["DEBUG", "INFO", "WARNING", "ERROR", "CRITICAL"] := by
  cases l with
  | _ => decide

theorem Outlets.configure_name (o : Outlets) (l : Level) :
    o.configure l.name = (.ok (), ⟨1, l.rank⟩) := by
  cases l with
  | _ => rfl

namespace Config

theorem filledText_eq_valid (v : Value) (t : String) (h : filledText v = .valid t) :
    v = .text t ∧ t ≠ "" := by
  obtain ⟨s, hs, ht⟩ := Checked.andThen_eq_valid _ _ _ h
  obtain rfl := Field.string_eq_valid v s hs
  unfold Field.wellFormed at ht
  split at ht
  · rename_i u hu
    simp only at ht
    split at ht
    · cases ht
    · rename_i hempty
      cases ht
      obtain rfl := Str.eq_ofString s t hu
      refine ⟨rfl, ?_⟩
      rintro rfl
      exact hempty rfl
  · cases ht

theorem projectId_eq_valid (v : Value) (n : Int) :
    projectId v = .valid n ↔ Field.integer v = .valid n ∧ 0 < n ∧ n ≤ maxProjectId := by
  unfold projectId
  rw [Checked.ensure_eq_valid, Checked.ensure_eq_valid, decide_eq_true_eq, decide_eq_true_eq,
    and_assoc, and_comm (a := n ≤ maxProjectId)]

/-- A size is kept without the blanks around it. -/
theorem size_eq_valid (v : Value) (t : String) (h : size v = .valid t) :
    ∃ s n, v = .text s ∧ Size.parse s = .ok n ∧ t = Text.trim s := by
  obtain ⟨s, hs, ht⟩ := Checked.andThen_eq_valid _ _ _ h
  obtain rfl := Field.string_eq_valid v s hs
  split at ht
  · cases ht
  · rename_i u hu
    obtain rfl := Str.eq_ofString s u hu
    split at ht
    · rename_i n hn
      cases ht
      exact ⟨u, n, rfl, hn, rfl⟩
    · cases ht

theorem levelName_eq_valid (v : Value) (l : Level) (h : levelName v = .valid l) :
    ∃ s, v = .str s ∧ Text.upper s.text = l.name := by
  obtain ⟨u, hu, hl⟩ := Checked.andThen_eq_valid _ _ _ h
  obtain ⟨s, hs, rfl⟩ := Checked.map_eq_valid _ _ _ hu
  obtain rfl := Field.string_eq_valid v s hs
  split at hl
  · rename_i k hk
    cases hl
    exact ⟨s, rfl, (Level.ofName?_eq_some _ _ hk).symm⟩
  · cases hl

/-- A document spells a configuration, as far as its users check it again. -/
structure Spelled (doc : Value) (c : Config) : Prop where
  leastId : ∃ w, doc.get? "project_id_min" = some w ∧ Field.integer w = .valid c.leastId
  greatestId : ∃ w, doc.get? "project_id_max" = some w ∧ Field.integer w = .valid c.greatestId
  softLimit : ∃ s n, doc.get? "default_quota_soft" = some (.text s) ∧ Size.parse s = .ok n ∧
    c.softLimit = Text.trim s
  hardLimit : ∃ s n, doc.get? "default_quota_hard" = some (.text s) ∧ Size.parse s = .ok n ∧
    c.hardLimit = Text.trim s
  runtimeSocket : c.runtimeSocket ≠ "" ∧
    (doc.get? "runtime_sock" = some (.text c.runtimeSocket) ∨
      doc.get? "runtime_sock" = none ∧ doc.get? "containerd_sock" = some (.text c.runtimeSocket))
  level : doc.get? "log_level" = none ∧ c.level = .info ∨
    ∃ s, doc.get? "log_level" = some (.str s) ∧ Text.upper s.text = c.level.name

/-- The bounds that hold in a configuration, field by field and between fields. -/
structure Bounded (c : Config) : Prop where
  positive : 0 < c.leastId
  range : c.leastId < c.greatestId
  recordable : c.greatestId ≤ maxProjectId
  sizes : ∃ soft hard, Size.parse c.softLimit = .ok soft ∧ Size.parse c.hardLimit = .ok hard ∧
    soft ≤ hard
  stripped : Text.trim c.softLimit = c.softLimit ∧ Text.trim c.hardLimit = c.hardLimit

/-! ### The fields of a configuration -/

/-- Each field of a configuration passed its own check. -/
structure Parts (doc : Value) (c : Config) : Prop where
  leastId : Field.required doc "project_id_min" projectId = .valid c.leastId
  greatestId : Field.required doc "project_id_max" projectId = .valid c.greatestId
  softLimit : Field.required doc "default_quota_soft" size = .valid c.softLimit
  hardLimit : Field.required doc "default_quota_hard" size = .valid c.hardLimit
  runtimeSocket : socket doc = .valid c.runtimeSocket
  reconnectDelay :
    Field.defaulted doc "reconnect_delay_seconds" (.ofInt 5) delay = .valid c.reconnectDelay
  level : Field.defaulted doc "log_level" .info levelName = .valid c.level

theorem parts_of_fields (doc : Value) (c : Config) (h : fields doc = .valid c) : Parts doc c := by
  -- from the last field to the first
  unfold fields at h
  obtain ⟨_, level, h₁₅, hlevel, rfl⟩ := Checked.ap_eq_valid _ _ _ h
  obtain ⟨_, toolTimeout, h₁₄, -, rfl⟩ := Checked.ap_eq_valid _ _ _ h₁₅
  obtain ⟨_, ioTool, h₁₃, -, rfl⟩ := Checked.ap_eq_valid _ _ _ h₁₄
  obtain ⟨_, quotaTool, h₁₂, -, rfl⟩ := Checked.ap_eq_valid _ _ _ h₁₃
  obtain ⟨_, apiKey, h₁₁, -, rfl⟩ := Checked.ap_eq_valid _ _ _ h₁₂
  obtain ⟨_, statusHost, h₁₀, -, rfl⟩ := Checked.ap_eq_valid _ _ _ h₁₁
  obtain ⟨_, statusPort, h₉, -, rfl⟩ := Checked.ap_eq_valid _ _ _ h₁₀
  obtain ⟨_, maxReconnects, h₈, -, rfl⟩ := Checked.ap_eq_valid _ _ _ h₉
  obtain ⟨_, reconnectDelay, h₇, hdelay, rfl⟩ := Checked.ap_eq_valid _ _ _ h₈
  obtain ⟨_, runtimeTimeout, h₆, -, rfl⟩ := Checked.ap_eq_valid _ _ _ h₇
  obtain ⟨_, runtimeSocket, h₅, hsocket, rfl⟩ := Checked.ap_eq_valid _ _ _ h₆
  obtain ⟨_, hardLimit, h₄, hhard, rfl⟩ := Checked.ap_eq_valid _ _ _ h₅
  obtain ⟨_, softLimit, h₃, hsoft, rfl⟩ := Checked.ap_eq_valid _ _ _ h₄
  obtain ⟨_, greatestId, h₂, hgreatest, rfl⟩ := Checked.ap_eq_valid _ _ _ h₃
  obtain ⟨_, leastId, h₁, hleast, rfl⟩ := Checked.ap_eq_valid _ _ _ h₂
  obtain ⟨stateFile, -, rfl⟩ := Checked.map_eq_valid _ _ _ h₁
  exact ⟨hleast, hgreatest, hsoft, hhard, hsocket, hdelay, hlevel⟩

theorem whole_eq_valid (doc : Value) (c d : Config) (h : whole doc c = .valid d) :
    d = c ∧ c.leastId < c.greatestId ∧ c.softExceedsHard = false := by
  unfold whole at h
  split at h
  · cases h
  · rename_i hrange
    split at h
    · cases h
    · rename_i hsizes
      cases h
      exact ⟨rfl, Int.not_le.mp hrange, Bool.eq_false_iff.mpr hsizes⟩

theorem parts_of_check (doc : Value) (c : Config) (h : check doc = .valid c) :
    Parts doc c ∧ c.leastId < c.greatestId ∧ c.softExceedsHard = false := by
  obtain ⟨d, hd, h⟩ := Checked.andThen_eq_valid _ _ _ h
  obtain ⟨rfl, hrange, hsizes⟩ := whole_eq_valid doc d c h
  exact ⟨parts_of_fields doc c hd, hrange, hsizes⟩

/-- The address is read under its name where that is there at all, else under its former one. -/
theorem socket_eq_valid (doc : Value) (t : String) (h : socket doc = .valid t) :
    t ≠ "" ∧ (doc.get? "runtime_sock" = some (.text t) ∨
      doc.get? "runtime_sock" = none ∧ doc.get? "containerd_sock" = some (.text t)) := by
  unfold socket at h
  split at h
  · rename_i hnames
    obtain ⟨w, hw, h⟩ := (Field.required_eq_valid _ _ _ _).mp h
    obtain ⟨rfl, hfilled⟩ := filledText_eq_valid w t h
    have hnone := Option.isNone_iff_eq_none.mp (Bool.and_eq_true _ _ ▸ hnames).1
    exact ⟨hfilled, .inr ⟨hnone, hw⟩⟩
  · obtain ⟨w, hw, h⟩ := (Field.required_eq_valid _ _ _ _).mp h
    obtain ⟨rfl, hfilled⟩ := filledText_eq_valid w t h
    exact ⟨hfilled, .inl hw⟩

theorem level_eq_valid (doc : Value) (l : Level)
    (h : Field.defaulted doc "log_level" .info levelName = .valid l) :
    doc.get? "log_level" = none ∧ l = .info ∨
      ∃ s, doc.get? "log_level" = some (.str s) ∧ Text.upper s.text = l.name := by
  unfold Field.defaulted at h
  split at h
  · rename_i v hv
    obtain ⟨s, rfl, hs⟩ := levelName_eq_valid v l ((Checked.under_eq_valid _ _ _).mp h)
    exact .inr ⟨s, hv, hs⟩
  · rename_i hv
    cases h
    exact .inl ⟨hv, rfl⟩

section Parts

variable {doc : Value} {c : Config}

theorem Parts.spelled (h : Parts doc c) : Spelled doc c := by
  obtain ⟨w₁, hw₁, hleast⟩ := (Field.required_eq_valid _ _ _ _).mp h.leastId
  obtain ⟨w₂, hw₂, hgreatest⟩ := (Field.required_eq_valid _ _ _ _).mp h.greatestId
  obtain ⟨w₃, hw₃, hsoft⟩ := (Field.required_eq_valid _ _ _ _).mp h.softLimit
  obtain ⟨w₄, hw₄, hhard⟩ := (Field.required_eq_valid _ _ _ _).mp h.hardLimit
  obtain ⟨s, n, rfl, hn, hs⟩ := size_eq_valid w₃ _ hsoft
  obtain ⟨t, m, rfl, hm, ht⟩ := size_eq_valid w₄ _ hhard
  exact ⟨⟨w₁, hw₁, ((projectId_eq_valid _ _).mp hleast).1⟩,
    ⟨w₂, hw₂, ((projectId_eq_valid _ _).mp hgreatest).1⟩, ⟨s, n, hw₃, hn, hs⟩, ⟨t, m, hw₄, hm, ht⟩,
    socket_eq_valid doc _ h.runtimeSocket, level_eq_valid doc _ h.level⟩

theorem Parts.bounded (h : Parts doc c) (hrange : c.leastId < c.greatestId)
    (hsizes : c.softExceedsHard = false) : Bounded c := by
  obtain ⟨w₁, -, hleast⟩ := (Field.required_eq_valid _ _ _ _).mp h.leastId
  obtain ⟨w₂, -, hgreatest⟩ := (Field.required_eq_valid _ _ _ _).mp h.greatestId
  obtain ⟨-, hpositive, -⟩ := (projectId_eq_valid _ _).mp hleast
  obtain ⟨-, -, hrecordable⟩ := (projectId_eq_valid _ _).mp hgreatest
  obtain ⟨s, soft, -, hs, hsoft⟩ := h.spelled.softLimit
  obtain ⟨t, hard, -, ht, hhard⟩ := h.spelled.hardLimit
  have hs' : Size.parse c.softLimit = .ok soft := hsoft ▸ Size.parse_trim s soft hs
  have ht' : Size.parse c.hardLimit = .ok hard := hhard ▸ Size.parse_trim t hard ht
  refine ⟨hpositive, hrange, hrecordable, ⟨soft, hard, hs', ht', ?_⟩, ?_, ?_⟩
  · unfold softExceedsHard at hsizes
    simp only [hs', ht', decide_eq_false_iff_not, Nat.not_lt] at hsizes
    exact hsizes
  · rw [hsoft, Text.trim_idem]
  · rw [hhard, Text.trim_idem]

theorem Parts.delay_nonnegative (h : Parts doc c) :
    c.reconnectDelay.isNonnegative = true := by
  have hdelay := h.reconnectDelay
  unfold Field.defaulted at hdelay
  split at hdelay
  · exact ((Checked.ensure_eq_valid _ _ _ _ _).mp ((Checked.under_eq_valid _ _ _).mp hdelay)).2
  · rw [← Checked.valid.inj hdelay]
    rfl

end Parts

/-! ### Those who use the fields -/

theorem Bounded.create {c : Config} (h : Bounded c) :
    Pool.create c.leastId c.greatestId = .ok ⟨c.leastId, c.greatestId, []⟩ := by
  have hpositive := h.positive
  have hrange := h.range
  exact if_neg (by omega)

/-- Whatever was done to the pool before, the ID that it hands out makes an entry. -/
theorem Bounded.allocated {c : Config} (h : Bounded c) (acts : List Rehearsal.PoolAct) (id : Int)
    (q : Pool)
    (hid : (Rehearsal.PoolAct.performAll ⟨c.leastId, c.greatestId, []⟩ acts).pool.allocate =
      .ok (id, q)) : Entry.Recordable id := by
  have htells := Rehearsal.performAll_tells c.leastId c.greatestId acts
  obtain ⟨-, hin, -⟩ := Pool.allocate_fresh _ q id hid
  obtain ⟨hlow, hhigh⟩ := (Pool.inRange_iff _ id).mp hin
  rw [htells.least] at hlow
  rw [htells.greatest] at hhigh
  have hpositive := h.positive
  have hrecordable := h.recordable
  exact ⟨by omega, by omega⟩

/-- A configuration is loaded only from a file that holds an object. -/
theorem holds_of_load (path : String) (content : Except OsFault ByteArray) (c : Config)
    (h : (load path content).1 = .ok c) :
    ∃ bytes ms, content = .ok bytes ∧ Holds bytes ms ∧ check (.object ms) = .valid c := by
  cases content with
  | error e => cases e <;> cases h
  | ok bytes =>
    cases hb : Text.decodeUtf8 bytes with
    | error m =>
      simp only [load, hb] at h
      cases h
    | ok s =>
      simp only [load, hb, ofText] at h
      split at h
      · split at h
        · cases h
        · cases h
        · cases h
      · rename_i ms hread
        split at h
        · rename_i d hcheck
          cases h
          exact ⟨bytes, ms, rfl, ⟨s, hb, hread⟩, hcheck⟩
        · cases h
      · cases h

/-- A configuration that is loaded is the one that the object in its file spells. Its IDs are a range
of two at least that can be recorded, its sizes are stripped and parse, the soft one as no more than
the hard one, and its level is one of the five. So the pool is made, every ID that is allocated after
any use of it makes an entry, and the journal is set up at the level. -/
theorem load_sound (path : String) (content : Except OsFault ByteArray) (c : Config)
    (h : (load path content).1 = .ok c) :
    (∃ bytes ms, content = .ok bytes ∧ Holds bytes ms ∧ Spelled (.object ms) c) ∧ Bounded c ∧
      c.level.name ∈ ["DEBUG", "INFO", "WARNING", "ERROR", "CRITICAL"] ∧
      (∀ o : Outlets, o.configure c.level.name = (.ok (), ⟨1, c.level.rank⟩)) ∧
      ∃ pool, Pool.create c.leastId c.greatestId = .ok pool ∧
        ∀ (acts : List Rehearsal.PoolAct) (id : Int) (q : Pool),
          (Rehearsal.PoolAct.performAll pool acts).pool.allocate = .ok (id, q) →
          ∀ container dir : String,
            Entry.make (.text container) (.int id) (.text dir) = .valid ⟨container, id, dir⟩ := by
  obtain ⟨bytes, ms, hbytes, hholds, hcheck⟩ := holds_of_load path content c h
  obtain ⟨hparts, hrange, hsizes⟩ := parts_of_check _ c hcheck
  have hbounded := hparts.bounded hrange hsizes
  refine ⟨⟨bytes, ms, hbytes, hholds, hparts.spelled⟩, hbounded, c.level.name_mem,
    fun o => o.configure_name c.level, _, hbounded.create, fun acts id q hid container dir => ?_⟩
  exact Entry.make_text container id dir (hbounded.allocated acts id q hid)

/-- A document that spells its fields in every lax way: a truth value and a text for integers, blanks
and a capital unit in a size, the former name of the address, a level in small letters. -/
def lax : List (Str × Value) :=
  [("state_file_path", .text "state.json"), ("project_id_min", .bool true),
    ("project_id_max", .text " +2.0 "), ("default_quota_soft", .text " 1G "),
    ("default_quota_hard", .text "2048m"), ("containerd_sock", .text "docker.sock"),
    ("log_level", .text "debug")]

def laxConfig : Config :=
  ⟨"state.json", 1, 2, "1G", "2048m", "docker.sock", .ofInt 10, .ofInt 5, none, none, "127.0.0.1",
    none, "xfs_quota", "xfs_io", .ofInt 30, .debug⟩

set_option maxRecDepth 20000 in
theorem load_lax : (load "config.json" (.ok (dump (.object lax)).toUTF8)).1 = .ok laxConfig := by
  rw [load_holds "config.json" _ lax (holds_dump lax rfl)]
  rfl

theorem load_sound_lax :
    (load "config.json" (.ok (dump (.object lax)).toUTF8)).1 = .ok laxConfig ∧ Bounded laxConfig ∧
      ∃ pool q, Pool.create 1 2 = .ok pool ∧
        (Rehearsal.PoolAct.performAll pool [.markUsed 1]).pool.allocate = .ok (2, q) ∧
        Entry.make (.text "c") (.int 2) (.text "/u") = .valid ⟨"c", 2, "/u"⟩ := by
  obtain ⟨-, hbounded, -, -, pool, hcreate, hallocated⟩ :=
    load_sound "config.json" _ laxConfig load_lax
  obtain rfl := Pool.create_used 1 2 pool hcreate
  have hid : (Rehearsal.PoolAct.performAll ⟨1, 2, []⟩ [.markUsed 1]).pool.allocate =
      .ok (2, ⟨1, 2, [2, 1]⟩) := rfl
  exact ⟨load_lax, hbounded, _, _, hcreate, hid, hallocated [.markUsed 1] 2 _ hid "c" "/u"⟩

end Config

end LayerQuota
