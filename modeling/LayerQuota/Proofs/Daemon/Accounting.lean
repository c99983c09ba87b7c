import LayerQuota.Proofs.Daemon.Regular
import LayerQuota.Proofs.Durable
import Mathlib.Data.List.Induction
/-!
# Every ID in use is accounted for

An ID is in use because an entry has it, or because it is retained: the creation that allocated it
could not be recorded, and its directory carries it. Retained IDs are read off the marks of a run,
which come from what creations and deletions answer, and not from the pool.
-/

namespace LayerQuota

namespace Mark

def apply (kept : List Int) : Mark → List Int
  | .retained _ _ id => id :: kept
  | .freed _ id => kept.filter (· != id)

/-- The IDs that marks leave retained. -/
def standing (ms : List Mark) : List Int := ms.foldl apply []

theorem standing_append (ms ms' : List Mark) :
    standing (ms ++ ms') = ms'.foldl apply (standing ms) := List.foldl_append

theorem standing_eq_nil (ms : List Mark) (h : ∀ c dir id, .retained c dir id ∉ ms) :
    standing ms = [] := by
  induction ms with
  | nil => rfl
  | cons m ms ih =>
    cases m with
    | retained c dir id => exact absurd List.mem_cons_self (h c dir id)
    | freed c id => exact ih fun c dir n hm => h c dir n (List.mem_cons_of_mem _ hm)

/-- An ID was retained for a container on its directory, and no deletion has freed it since. -/
def Retains (ms : List Mark) (c : String) (dir : Layer) (id : Int) : Prop :=
  ∃ before after, ms = before ++ .retained c dir id :: after ∧ ∀ b, .freed b id ∉ after

theorem Retains.mem {ms : List Mark} {c : String} {dir : Layer} {id : Int}
    (hr : Retains ms c dir id) : .retained c dir id ∈ ms := by
  obtain ⟨before, after, rfl, -⟩ := hr
  exact List.mem_append_right before List.mem_cons_self

theorem Retains.snoc {ms : List Mark} {c : String} {dir : Layer} {id : Int}
    (hr : Retains ms c dir id) (m : Mark) (hm : ∀ b, m ≠ .freed b id) :
    Retains (ms ++ [m]) c dir id := by
  obtain ⟨before, after, rfl, hafter⟩ := hr
  refine ⟨before, after ++ [m], by simp, fun b hb => ?_⟩
  rcases List.mem_append.mp hb with hb | hb
  · exact hafter b hb
  · exact hm b (List.mem_singleton.mp hb).symm

theorem retains_of_standing (ms : List Mark) (id : Int) (hs : id ∈ standing ms) :
    ∃ c dir, Retains ms c dir id := by
  induction ms using List.reverseRecOn with
  | nil => cases hs
  | append_singleton ms m ih =>
    rw [standing_append] at hs
    cases m with
    | retained c dir n =>
      rcases List.mem_cons.mp hs with rfl | hs
      · exact ⟨c, dir, ms, [], rfl, fun _ => List.not_mem_nil⟩
      · obtain ⟨c', dir', hr⟩ := ih hs
        exact ⟨c', dir', hr.snoc _ nofun⟩
    | freed c n =>
      obtain ⟨hs, hne⟩ := List.mem_filter.mp hs
      obtain ⟨c', dir', hr⟩ := ih hs
      refine ⟨c', dir', hr.snoc _ ?_⟩
      rintro b ⟨⟩
      exact bne_iff_ne.mp hne rfl

end Mark

/-- The IDs in use are the recorded ones of the range and the retained ones, and no ID is both. -/
structure Accounted (path : String) (kept : List Int) (core : Core) : Prop where
  sound : Sound core
  storable : core.store.table.Storable
  place : core.store.path = path
  recordable : ∀ n, core.pool.inRange n = true → Entry.Recordable n
  used : ∀ n, n ∈ core.pool.used ↔
    (n ∈ core.store.table.ids ∧ core.pool.inRange n = true) ∨ n ∈ kept
  apart : ∀ n ∈ kept, n ∉ core.store.table.ids

namespace Accounted

variable {path : String} {kept : List Int} {core : Core}

theorem congr (ha : Accounted path kept core) (core' : Core) (hp : core'.pool = core.pool)
    (hs : core'.store = core.store) : Accounted path kept core' :=
  ⟨ha.sound.congr core' hp (congrArg Store.table hs), hs ▸ ha.storable, hs ▸ ha.place,
    hp ▸ ha.recordable, hp ▸ hs ▸ ha.used, hs ▸ ha.apart⟩

theorem samePool (ha : Accounted path kept core) (p : Pool)
    (hin : ∀ n, p.inRange n = core.pool.inRange n) (hu : ∀ n, n ∈ p.used ↔ n ∈ core.pool.used) :
    Accounted path kept { core with pool := p } := by
  refine ⟨⟨ha.sound.distinct, fun e he hr => ?_, fun n hn => ?_⟩, ha.storable, ha.place,
    fun n hn => ?_, fun n => ?_, ha.apart⟩
  · rw [hin] at hr
    exact (hu _).mpr (ha.sound.reserved e he hr)
  · rw [hin]
    exact ha.sound.within n ((hu n).mp hn)
  · rw [hin] at hn
    exact ha.recordable n hn
  · rw [hu, hin]
    exact ha.used n

variable {id : Int} {p : Pool}

theorem unretained (ha : Accounted path kept core) (hal : core.pool.allocate = .ok (id, p)) :
    id ∉ kept := by
  obtain ⟨hfree, -, -⟩ := Pool.allocate_fresh core.pool p id hal
  exact fun hk => hfree ((ha.used id).mpr (.inr hk))

theorem unrecorded (ha : Accounted path kept core) (hal : core.pool.allocate = .ok (id, p)) :
    id ∉ core.store.table.ids := by
  intro hm
  obtain ⟨e, he, heq⟩ := List.mem_map.mp hm
  exact ha.sound.fresh id p hal e he heq

/-- An ID that is handed out and freed again leaves the pool as it was. -/
theorem giveBack (ha : Accounted path kept core) (hal : core.pool.allocate = .ok (id, p)) :
    Accounted path kept { core with pool := p.release id } := by
  obtain ⟨hfree, -, rfl⟩ := Pool.allocate_fresh core.pool p id hal
  refine ha.samePool _ (fun n => Pool.insert_inRange _ _ _) fun n => ?_
  rw [Pool.mem_release, Pool.mem_insert]
  constructor
  · rintro ⟨rfl | hn, hne⟩
    · exact absurd rfl hne
    · exact hn
  · exact fun hn => ⟨.inr hn, fun heq => hfree (heq ▸ hn)⟩

theorem retain (ha : Accounted path kept core) (hal : core.pool.allocate = .ok (id, p)) :
    Accounted path (id :: kept) { core with pool := p } := by
  have hfresh := ha.unrecorded hal
  have hsound := ha.sound.allocate id p hal
  obtain ⟨-, -, rfl⟩ := Pool.allocate_fresh core.pool p id hal
  refine ⟨hsound, ha.storable, ha.place, fun n hn => ?_, fun n => ?_, fun n hn => ?_⟩
  · rw [Pool.insert_inRange] at hn
    exact ha.recordable n hn
  · rw [Pool.mem_insert, Pool.insert_inRange, ha.used n, List.mem_cons]
    exact or_left_comm
  · rcases List.mem_cons.mp hn with rfl | hn
    · exact hfresh
    · exact ha.apart n hn

theorem record (ha : Accounted path kept core) (hal : core.pool.allocate = .ok (id, p)) (e : Entry)
    (hid : e.projectId = id) (hc : core.store.table.get? e.container = none) :
    Accounted path kept
      { core with pool := p, store := ⟨core.store.path, core.store.table ++ [e]⟩ } := by
  subst hid
  have hfresh := ha.sound.fresh _ p hal
  have hkept := ha.unretained hal
  have hsound := ha.sound.allocate _ p hal
  obtain ⟨-, hin, rfl⟩ := Pool.allocate_fresh core.pool p _ hal
  have hput := hsound.put e ((Pool.mem_insert _ _ _).mpr (.inl rfl)) hc hfresh core.store.path
  rw [Table.put_absent _ e hc] at hput
  refine ⟨hput, ha.storable.append e hc (ha.recordable _ hin), ha.place, fun n hn => ?_,
    fun n => ?_, fun n hn hm => ?_⟩
  · rw [Pool.insert_inRange] at hn
    exact ha.recordable n hn
  · rw [Pool.mem_insert, Pool.insert_inRange, ha.used n, Table.mem_ids_append]
    constructor
    · rintro (rfl | ⟨hm, hr⟩ | hk)
      · exact .inl ⟨.inr rfl, hin⟩
      · exact .inl ⟨.inl hm, hr⟩
      · exact .inr hk
    · rintro (⟨hm | rfl, hr⟩ | hk)
      · exact .inr (.inl ⟨hm, hr⟩)
      · exact .inl rfl
      · exact .inr (.inr hk)
  · rcases (Table.mem_ids_append _ e n).mp hm with hm | rfl
    · exact ha.apart n hn hm
    · exact hkept hn

theorem permute (ha : Accounted path kept core) (t : Table) (hp : t.Perm core.store.table) :
    Accounted path kept { core with store := ⟨core.store.path, t⟩ } := by
  have hids : ∀ n, n ∈ t.ids ↔ n ∈ core.store.table.ids := fun n => (hp.map _).mem_iff
  refine ⟨⟨(hp.map _).nodup_iff.mpr ha.sound.distinct, fun e he => ?_, ha.sound.within⟩,
    ⟨(hp.map _).nodup_iff.mpr ha.storable.containers, fun e he => ?_⟩, ha.place, ha.recordable,
    fun n => ?_, fun n hn hm => ha.apart n hn ((hids n).mp hm)⟩
  · exact ha.sound.reserved e (hp.mem_iff.mp he)
  · exact ha.storable.recordable e (hp.mem_iff.mp he)
  · rw [ha.used n]
    simp only [hids n]

/-- An ID is freed, and the container forgotten that had it. -/
theorem forget (ha : Accounted path kept core) (c : String) (hc : Host.Clearable core c id) :
    Accounted path (kept.filter (· != id))
      { core with
        pool := core.pool.release id, store := ⟨core.store.path, core.store.table.remove c⟩ } := by
  have hids := hc.ids_remove ha.sound.distinct ha.storable.containers
  have hsub : ∀ e ∈ core.store.table.remove c, e ∈ core.store.table ∧ e.projectId ≠ id := by
    intro e he
    have hm := (hids e.projectId).mp (List.mem_map_of_mem he)
    exact ⟨((Table.mem_remove _ c e).mp he).1, hm.2⟩
  refine ⟨⟨Table.ids_remove_nodup _ c ha.sound.distinct, fun e he hr => ?_, fun n hn => ?_⟩,
    ha.storable.remove c, ha.place, ha.recordable, fun n => ?_, fun n hn hm => ?_⟩
  · obtain ⟨hmem, hne⟩ := hsub e he
    exact (Pool.mem_release _ _ _).mpr ⟨ha.sound.reserved e hmem hr, hne⟩
  · exact ha.sound.within n ((Pool.mem_release _ _ _).mp hn).1
  · rw [Pool.mem_release, Pool.release_inRange, ha.used n, hids n, List.mem_filter, bne_iff_ne]
    constructor
    · rintro ⟨⟨hm, hr⟩ | hk, hne⟩
      · exact .inl ⟨⟨hm, hne⟩, hr⟩
      · exact .inr ⟨hk, hne⟩
    · rintro (⟨⟨hm, hne⟩, hr⟩ | ⟨hk, hne⟩)
      · exact ⟨.inl ⟨hm, hr⟩, hne⟩
      · exact ⟨.inr hk, hne⟩
  · exact ha.apart n (List.mem_filter.mp hn).1 ((hids n).mp hm).1

end Accounted

namespace Host

variable {σ : Type} {h : Host σ} {path c : String} {kept : List Int} {d d' : Daemon σ}

/-! ### Moves -/

theorem CreateOutcome.accounted {r : Except Failure Entry} {dir : Layer}
    (ho : h.CreateOutcome c dir d r d') (hr : h.Regular) (hn : Store.Nameable h.toDisk path)
    (hdir : ∃ path, dir = Layer.ofPath path) (ha : Accounted path kept d.core) :
    Accounted path ((Mark.ofCreate c dir d.core r).foldl Mark.apply kept) d'.core := by
  cases ho with
  | kept e p w' he hp hq =>
    rw [ha.sound.markUsed_eq c e p he hp]
    exact ha
  | refused e f he hp => exact ha
  | overtaken he hc => exact ha
  | exhausted f he hal => exact ha
  | abandoned id p f w' he hal hen =>
    obtain ⟨hfree, hsaved⟩ := hr.enforcing hdir hen
    have hmark : Mark.ofCreate c dir d.core (.error f) = [] := by
      refine List.eq_nil_iff_forall_not_mem.mpr fun m hm => ?_
      obtain ⟨place, fault, id, p, heq, -, -⟩ := Mark.mem_ofCreate hm
      exact hsaved place fault (Except.error.inj heq)
    rw [hmark, hfree]
    exact ha.giveBack hal
  | malformed id p vs w' he hal hen hm =>
    -- a text and an ID of the range make an entry
    obtain ⟨dirPath, rfl⟩ := hdir
    obtain ⟨-, hin, -⟩ := Pool.allocate_fresh d.core.pool p id hal
    have hvalid := Entry.make_text c id dirPath (ha.recordable id hin)
    cases hm.symm.trans hvalid
  | recorded id p e r s w₁ w₂ w' he hal hen hm hput hq =>
    obtain ⟨rfl, hid, -⟩ := Entry.make_eq_valid c id dir e hm
    have hname : Store.Nameable h.toDisk d.core.store.path := ha.place ▸ hn
    rcases Store.put_settled _ _ _ e _ _ r hname hput with ⟨rfl, rfl⟩ | ⟨⟨fault, rfl⟩, rfl⟩
    · rw [Table.put_absent _ e he]
      exact ha.record hal e hid he
    · have hmark : Mark.ofCreate e.container dir d.core
          ((Except.error (.unsaved d.core.store.path fault) : Except Failure Unit).map fun _ => e)
            = [.retained e.container dir id] := by
        simp only [Mark.ofCreate, Except.map, hal]
      rw [hmark]
      exact ha.retain hal

theorem Forgetting.accounted {r : Except Failure (Option Int)} {id : Int} {w : σ}
    (hf : h.Forgetting c id d.core w r d') (hn : Store.Nameable h.toDisk path)
    (hc : Clearable d.core c id) (ha : Accounted path kept d.core) :
    Accounted path ((Mark.ofDelete c r).foldl Mark.apply kept) d'.core := by
  have hunsaved := hf.unsaved (ha.place ▸ hn)
  have ho := hf.forgotten
  generalize d'.core = core' at ho ⊢
  cases ho with
  | done => exact ha.forget c hc
  | undone e he f hf =>
    exact ha.permute _ (Table.remove_append_perm _ ha.storable.containers c e he)
  | unwritten e he f hu => exact absurd ((hunsaved f rfl).symm.trans hu) nofun

theorem DeleteOutcome.accounted {r : Except Failure (Option Int)} (ho : h.DeleteOutcome c d r d')
    (hn : Store.Nameable h.toDisk path) (ha : Accounted path kept d.core) :
    Accounted path ((Mark.ofDelete c r).foldl Mark.apply kept) d'.core := by
  cases ho.deletion with
  | idle r w' hr hq =>
    have hmark : Mark.ofDelete c r = [] := by
      refine List.eq_nil_iff_forall_not_mem.mpr fun m hm => ?_
      obtain ⟨id, heq, -⟩ := Mark.mem_ofDelete hm
      exact hr id heq
    rw [hmark]
    exact ha
  | unclear id f w₁ w' hc hq hl => exact ha
  | cleared id rl w₁ w₂ w₃ r d' hc hq hl hq' hf => exact hf.accounted hn hc ha
  | gone e w₁ r d' he hq hf => exact hf.accounted hn (.inl ⟨e, he, rfl⟩) ha

theorem Move.accounted {k : EventKind} {ms : List Mark} (hm : h.Move k c d ms d') (hr : h.Regular)
    (hn : Store.Nameable h.toDisk path) (ha : Accounted path kept d.core) :
    Accounted path (ms.foldl Mark.apply kept) d'.core := by
  cases hm with
  | beside d' hb => exact ha.congr _ hb.pool hb.store
  | kept e p w' hk he hp hq =>
    rw [ha.sound.markUsed_eq c e p he hp]
    exact ha
  | created dir r d' hk hdir ho => exact ho.accounted hr hn (hr.resolve.names c dir hdir) ha
  | deleted r d' hk ho => exact ho.accounted hn ha

theorem Reserving.accounted (hv : h.Reserving d.core.store.table d d')
    (ha : Accounted path kept d.core) : Accounted path kept d'.core := by
  refine (ha.samePool d'.core.pool hv.inRange fun n => ?_).congr _ rfl hv.store
  rw [hv.used n]
  exact ⟨fun hm => hm.elim id fun hm => (ha.used n).mpr (.inl hm.symm), .inl⟩

theorem Regular.carried (hr : h.Regular) (hn : Store.Nameable h.toDisk path) :
    h.Carried fun ms d => Accounted path (Mark.standing ms) d.core := by
  refine ⟨fun k c ms ms' d d' ha hm => ?_, fun ms d d' ha hv => hv.accounted ha⟩
  rw [Mark.standing_append]
  exact hm.accounted hr hn ha

/-! ### Runs -/

/-- A daemon that has just started accounts for its IDs after it has reserved the recorded ones. -/
theorem Reserving.starts (hv : h.Reserving d.core.store.table d d') (hu : d.core.pool.used = [])
    (hs : d.core.store.table.Storable) (hd : d.core.store.table.ids.Nodup)
    (hin : ∀ n, d.core.pool.inRange n = true → Entry.Recordable n)
    (hp : d.core.store.path = path) : Accounted path [] d'.core := by
  refine ⟨hv.sound hd (by rw [hu]; exact nofun), hv.store ▸ hs, hv.store ▸ hp,
    fun n hn => hin n (hv.inRange n ▸ hn), fun n => ?_, nofun⟩
  rw [hv.used n, hv.store, hv.inRange n, hu]
  simp only [List.not_mem_nil, false_or, or_false]
  exact and_comm

theorem reconcile_accounted (hr : h.Regular) (hn : Store.Nameable h.toDisk path)
    (hu : d.core.pool.used = []) (hs : d.core.store.table.Storable)
    (hd : d.core.store.table.ids.Nodup)
    (hin : ∀ n, d.core.pool.inRange n = true → Entry.Recordable n)
    (hp : d.core.store.path = path) (qs : List (Request σ)) :
    Accounted path (Mark.standing (h.history d (.reconcile :: qs))) (h.session d qs).core := by
  have hc := hr.carried hn
  have hstart := hc.reconcile [] d fun d' hv => hv.starts hu hs hd hin hp
  rw [List.nil_append] at hstart
  exact hc.serveAll qs (fun _ _ _ _ ha => ha) _ _ hstart

theorem recordable_of_create {a b n : Int} {p : Pool} (hp : Pool.create a b = .ok p)
    (hb : b ≤ maxProjectId) (hin : p.inRange n = true) : Entry.Recordable n := by
  have hpos := Pool.create_least_pos a b p hp
  rw [Pool.create_used a b p hp] at hin
  have hin : a ≤ n ∧ n ≤ b := (Pool.inRange_iff _ n).mp hin
  exact ⟨by omega, by omega⟩

/-- In every session of a daemon with a loaded record and a fresh pool, the IDs in use are the
recorded ones of the range, and beside them those that a failure to record has retained and no
deletion has freed since. -/
theorem session_accounted (h : Host σ) (hr : h.Regular) (a b : Int) (p : Pool)
    (hp : Pool.create a b = .ok p) (hb : b ≤ maxProjectId) (settings : Settings) (s s' : Store)
    (v v' : σ) (hl : s.load h.toDisk v = (.ok (), s', v'))
    (href : ∀ path text v v', h.save path text v = (.error .embeddedNull, v') →
      ∀ u, (h.read path u).1 = .error .embeddedNull)
    (w : σ) (qs : List (Request σ)) :
    let start : Daemon σ := ⟨Core.opening settings p s', w⟩
    let core := (h.session start qs).core
    let ms := h.history start (.reconcile :: qs)
    (∀ n, n ∈ core.pool.used ↔
        (n ∈ core.store.table.ids ∧ a ≤ n ∧ n ≤ b) ∨ n ∈ Mark.standing ms) ∧
      (∀ n ∈ Mark.standing ms, n ∉ core.store.table.ids) ∧
      ((∀ c dir id, .retained c dir id ∉ ms) →
        ∀ n, n ∈ core.pool.used ↔ n ∈ core.store.table.ids ∧ a ≤ n ∧ n ≤ b) := by
  intro start core ms
  have hpool := Pool.create_used a b p hp
  have hrange : ∀ n, p.inRange n = true ↔ a ≤ n ∧ n ≤ b := by
    rw [hpool]
    exact Pool.inRange_iff _
  have ha : Accounted s'.path (Mark.standing ms) core :=
    reconcile_accounted hr (Store.load_nameable _ _ _ _ _ hl href)
      (congrArg Pool.used hpool) (Store.load_storable _ _ _ _ _ hl)
      (Store.load_ids_nodup _ _ _ _ _ hl) (fun _ => recordable_of_create hp hb) rfl qs
  have hcore : ∀ n, core.pool.inRange n = true ↔ a ≤ n ∧ n ≤ b := by
    intro n
    have hsame : core.pool.inRange n = p.inRange n := session_inRange start qs n
    rw [hsame]
    exact hrange n
  have hused : ∀ n, n ∈ core.pool.used ↔
      (n ∈ core.store.table.ids ∧ a ≤ n ∧ n ≤ b) ∨ n ∈ Mark.standing ms := by
    intro n
    rw [ha.used n, hcore]
  refine ⟨hused, ha.apart, fun hnone n => ?_⟩
  rw [hused n, Mark.standing_eq_nil ms hnone]
  simp only [List.not_mem_nil, or_false]

/-- A container is created when the disk is full, and another one when it is not; then the first is
deleted. -/
def loseRecord : List (Request (Bool × Memory)) :=
  [.handle ⟨.create, "b", []⟩, .meanwhile fun w => (false, w.2), .handle ⟨.create, "c", []⟩,
    .handle ⟨.delete, "b", []⟩]

theorem loseRecord_session_accounted :
    let host := onFullDisk.inMemory fun _ => []
    let start : Daemon (Bool × Memory) :=
      ⟨Core.opening ⟨"10g", "12g", .ofInt 5, none⟩ ⟨1, 2, []⟩ ⟨"", []⟩, true, .empty⟩
    let core := (host.session start loseRecord).core
    let ms := host.history start (.reconcile :: loseRecord)
    (∀ n, n ∈ core.pool.used ↔
        (n ∈ core.store.table.ids ∧ 1 ≤ n ∧ n ≤ 2) ∨ n ∈ Mark.standing ms) ∧
      (∀ n ∈ Mark.standing ms, n ∉ core.store.table.ids) ∧
      ((∀ c dir id, .retained c dir id ∉ ms) →
        ∀ n, n ∈ core.pool.used ↔ n ∈ core.store.table.ids ∧ 1 ≤ n ∧ n ≤ 2) := by
  refine session_accounted (onFullDisk.inMemory fun _ => []) (inMemory_regular onFullDisk_namesTexts)
    1 2 ⟨1, 2, []⟩ rfl (by decide) _ (Store.atPath "") ⟨"", []⟩ (false, .empty) (false, .empty) rfl ?_
    (true, .empty) loseRecord
  rintro path text ⟨full, m⟩ v hs
  cases full <;> cases hs

end Host

end LayerQuota
