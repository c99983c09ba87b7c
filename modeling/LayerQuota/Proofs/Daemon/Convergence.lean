import LayerQuota.Proofs.Daemon.Regular
import Mathlib.Data.List.Dedup
import Mathlib.Data.List.Induction
import Mathlib.Data.List.Infix
/-!
# Events settle

Where no call fails and the pool is large enough, the events of the containers come to what the last
of each container says: those that were created last are recorded, under an ID each that is in use
and limited, and nothing else is. The tags of containers that ended stay on their directories, and
none of them disturbs the container that has the ID now.
-/

namespace LayerQuota

/-! ### The last events -/

namespace Event

/-- The kind of the last event of a container. -/
def latest (es : List Event) (c : String) : Option EventKind :=
  (es.reverse.find? (·.container == c)).map (·.kind)

/-- The containers whose last event is their creation. -/
def living (es : List Event) : List String :=
  (es.map (·.container)).dedup.filter fun c => latest es c = some .create

theorem latest_snoc (es : List Event) (e : Event) (c : String) :
    latest (es ++ [e]) c = if e.container = c then some e.kind else latest es c := by
  simp only [latest, find?_reverse_snoc, beq_iff_eq]
  split
  · rfl
  · rfl

theorem latest_eq_none_iff (es : List Event) (c : String) :
    latest es c = none ↔ es.find? (·.container == c) = none := by
  simp [latest]

theorem mem_living (es : List Event) (c : String) :
    c ∈ living es ↔ latest es c = some .create := by
  simp only [living, List.mem_filter, List.mem_dedup, decide_eq_true_eq, and_iff_right_iff_imp]
  intro hc
  have hsome : latest es c ≠ none := by
    rw [hc]
    exact Option.some_ne_none _
  rw [Ne, latest_eq_none_iff, List.find?_eq_none] at hsome
  push Not at hsome
  obtain ⟨e, he, heq⟩ := hsome
  exact List.mem_map.mpr ⟨e, he, by simpa using heq⟩

end Event

namespace Host

variable {σ : Type} {h : Host σ} {dirOf : String → String} {w w₁ : σ × Memory}
  {d d' : Daemon (σ × Memory)} {c : String} {es : List Event}

/-! ### Hosts on which nothing fails -/

/-- A host on which nothing is cancelled, every save goes through, and each container has a directory
of its own, which is there. -/
structure Calm (h : Host σ) (dirOf : String → String) : Prop where
  cancelled : ∀ w, h.cancelled w = false
  save : ∀ path text w, (h.save path text w).1 = .ok ()
  resolve : ∀ c w, (h.resolve c w).1 = .ok (Layer.ofPath (dirOf c))
  present : ∀ c w, (h.isPresent (Layer.ofPath (dirOf c)) w).1 = .ok true
  distinct : Function.Injective dirOf

namespace Calm

variable (hc : h.Calm dirOf)

include hc

theorem resolve_eq {r : Except Failure Layer}
    (hr : (h.inMemory fun _ => []).resolve c w = (r, w₁)) : r = .ok (Layer.ofPath (dirOf c)) := by
  have hok := hc.resolve c w.1
  rw [onFirst_eq (h.resolve c) r w w₁ hr] at hok
  exact hok

theorem present_eq {r : Except Failure Bool}
    (hp : (h.inMemory fun _ => []).isPresent (Layer.ofPath (dirOf c)) w = (r, w₁)) :
    r = .ok true := by
  have hok := hc.present c w.1
  rw [onFirst_eq (h.isPresent _) r w w₁ hp] at hok
  exact hok

theorem saved (s : Store) (text : String) (w : σ × Memory) :
    ((h.inMemory fun _ => []).save s.path text w).1 = .ok () := hc.save s.path text w.1

omit hc in
theorem setLimit_eq {id : Int} {soft hard : String} {r : Except Failure Unit}
    (hl : (h.inMemory fun _ => []).setLimit id soft hard w = (r, w₁)) : r = .ok () := by
  have hok : ((h.inMemory fun _ => []).setLimit id soft hard w).1 = .ok () :=
    Memory.setLimit_unordered _ rfl id soft hard
  rw [hl] at hok
  exact hok

omit hc in
theorem readTag_eq {path : String} {n : Int} {r : Except Failure Int}
    (ht : (h.inMemory fun _ => []).readTag (Layer.ofPath path) w = (r, w₁))
    (hn : w.2.tags.lookup (Layer.ofPath path) = some n) : r = .ok n := by
  have hok : ((h.inMemory fun _ => []).readTag (Layer.ofPath path) w).1 = .ok n :=
    Memory.readTag_unordered _ rfl path n hn
  rw [ht] at hok
  exact hok

theorem enforcing {s : Settings} {path : String} {id : Int} {r : Except Failure Unit}
    (hn : (h.inMemory fun _ => []).Enforcing s (Layer.ofPath path) id w r w₁) : r = .ok () := by
  have htag : ∀ r w₁, (h.inMemory fun _ => []).tag (Layer.ofPath path) id w = (r, w₁) → r = .ok () := by
    intro r w₁ ht
    have hok : ((h.inMemory fun _ => []).tag (Layer.ofPath path) id w).1 = .ok () :=
      Memory.tag_unordered _ rfl path id
    rw [ht] at hok
    exact hok
  cases hn with
  | overtaken hcan => exact absurd (hcan.symm.trans (hc.cancelled w.1)) nofun
  | untagged f w' ht => cases htag _ _ ht
  | halted w' ht hcan => exact absurd (hcan.symm.trans (hc.cancelled w₁.1)) nofun
  | limited w₂ w' r ht hl => exact setLimit_eq hl

end Calm

/-! ### What holds between events -/

/-- The IDs in use are those of the entries, and exactly these are limited; each entry's directory
carries its ID. -/
structure Consistent (s : Settings) (a b : Int) (dirOf : String → String)
    (d : Daemon (σ × Memory)) : Prop where
  sound : Sound d.core
  settings : d.core.settings = s
  least : d.core.pool.least = a
  greatest : d.core.pool.greatest = b
  distinct : d.core.store.table.containers.Nodup
  once : d.core.pool.used.Nodup
  used : ∀ n, n ∈ d.core.pool.used ↔ n ∈ d.core.store.table.ids
  limits : ∀ n, limitsOf d.outside n =
    if n ∈ d.core.store.table.ids then some (s.softLimit, s.hardLimit) else none
  tags : ∀ e ∈ d.core.store.table,
    d.outside.2.tags.lookup (Layer.ofPath (dirOf e.container)) = some e.projectId

variable {s : Settings} {a b : Int}

theorem Consistent.congr (hv : Consistent s a b dirOf d) (hset : d'.core.settings = d.core.settings)
    (hp : d'.core.pool = d.core.pool) (hs : d'.core.store = d.core.store)
    (hm : d.outside.2.Reads d'.outside.2) : Consistent s a b dirOf d' := by
  refine ⟨hv.sound.congr _ hp (congrArg Store.table hs), hset.trans hv.settings, hp ▸ hv.least,
    hp ▸ hv.greatest, hs ▸ hv.distinct, hp ▸ hv.once, hp ▸ hs ▸ hv.used, fun n => ?_, fun e he => ?_⟩
  · unfold limitsOf
    rw [hm.limits, hs]
    exact hv.limits n
  · rw [hm.tags]
    exact hv.tags e (hs ▸ he)

theorem Consistent.record (hv : Consistent s a b dirOf d) (hinj : Function.Injective dirOf)
    (h0 : ¬(s.softLimit = "0" ∧ s.hardLimit = "0")) {id : Int} {p : Pool}
    (he : d.core.store.table.get? c = none) (ha : d.core.pool.allocate = .ok (id, p))
    (hn : (h.inMemory fun _ => []).Enforcing s (Layer.ofPath (dirOf c)) id d.outside (.ok ()) w) :
    Consistent s a b dirOf ⟨{ d.core with
      pool := p, store := ⟨d.core.store.path, d.core.store.table ++ [⟨c, id, dirOf c⟩]⟩ }, w⟩ := by
  have hfresh := hv.sound.fresh id p ha
  have hsound := hv.sound.allocate id p ha
  obtain ⟨hfree, -, rfl⟩ := Pool.allocate_fresh d.core.pool p id ha
  have hput := hsound.put ⟨c, id, dirOf c⟩ ((Pool.mem_insert _ _ _).mpr (.inl rfl)) he hfresh
    d.core.store.path
  rw [Table.put_absent _ _ he] at hput
  refine ⟨hput, hv.settings, (Pool.insert_least _ _).trans hv.least,
    (Pool.insert_greatest _ _).trans hv.greatest,
    Table.containers_append_nodup _ hv.distinct ⟨c, id, dirOf c⟩ he,
    Pool.insert_nodup _ _ hv.once, fun n => ?_, fun n => ?_, fun e hm => ?_⟩
  · rw [Pool.mem_insert, hv.used n, Table.mem_ids_append]
    exact or_comm
  · by_cases hid : n = id
    · subst hid
      rw [hn.limitsOf_self h0, if_pos ((Table.mem_ids_append _ _ n).mpr (.inr rfl))]
    · rw [hn.limitsOf_other n hid, hv.limits n]
      simp only [Table.mem_ids_append, hid, or_false]
  · rw [hn.tags]
    rcases List.mem_append.mp hm with hm | hm
    · have hne : dirOf e.container ≠ dirOf c := by
        intro heq
        exact (Table.get?_eq_none_iff _ c).mp he e hm (hinj heq)
      rw [lookup_assign_ofPath_other _ _ _ _ hne]
      exact hv.tags e hm
    · rw [List.mem_singleton.mp hm]
      exact lookup_assign_ofPath _ _ _

/-- The limits of an ID are cleared, and the ID is freed together with its entry, if it has one. -/
theorem Consistent.forget (hv : Consistent s a b dirOf d) {id : Int} (hc : Clearable d.core c id)
    (htags : w.2.tags = d.outside.2.tags) (hself : limitsOf w id = none)
    (hother : ∀ n, n ≠ id → limitsOf w n = limitsOf d.outside n) :
    Consistent s a b dirOf ⟨{ d.core with
      pool := d.core.pool.release id,
      store := ⟨d.core.store.path, d.core.store.table.remove c⟩ }, w⟩ := by
  have hids := hc.ids_remove hv.sound.distinct hv.distinct
  have hno : ∀ e ∈ d.core.store.table.remove c, e.projectId ≠ id := by
    intro e he
    exact ((hids e.projectId).mp (List.mem_map_of_mem he)).2
  have hsub : ∀ e ∈ d.core.store.table.remove c, e ∈ d.core.store.table :=
    fun e he => ((Table.mem_remove _ c e).mp he).1
  have hremove := hv.sound.subset _ d.core.store.path
    (Table.ids_remove_nodup _ c hv.sound.distinct) hsub
  refine ⟨hremove.release id hno, hv.settings, hv.least, hv.greatest,
    (List.filter_sublist.map _).nodup hv.distinct,
    Pool.release_nodup _ _ hv.once, fun n => ?_, fun n => ?_, fun e he => ?_⟩
  · rw [Pool.mem_release, hv.used n]
    exact (hids n).symm
  · by_cases hid : n = id
    · subst hid
      rw [hself, if_neg fun hm => ((hids n).mp hm).2 rfl]
    · rw [hother n hid, hv.limits n]
      simp only [hids n, ne_eq, hid, not_false_eq_true, and_true]
  · rw [htags]
    exact hv.tags e (hsub e he)

/-! ### Events -/

/-- After some events: what their last ones say is recorded, and every container that had an event
has a tagged directory. -/
structure Converged (s : Settings) (a b : Int) (dirOf : String → String) (es : List Event)
    (d : Daemon (σ × Memory)) : Prop where
  consistent : Consistent s a b dirOf d
  failed : d.core.failed = 0
  recorded : ∀ c, c ∈ d.core.store.table.containers ↔ Event.latest es c = some .create
  known : ∀ c, Event.latest es c ≠ none →
    ∃ n, d.outside.2.tags.lookup (Layer.ofPath (dirOf c)) = some n

/-- One more event has been dealt with: its container is recorded if it was created, all others are
as they were, and no tag was lost. -/
theorem Converged.next (hv : Converged s a b dirOf es d) (e : Event) (hc : Consistent s a b dirOf d')
    (hf : d'.core.failed = d.core.failed)
    (hself : e.container ∈ d'.core.store.table.containers ↔ e.kind = .create)
    (hother : ∀ c, c ≠ e.container →
      (c ∈ d'.core.store.table.containers ↔ c ∈ d.core.store.table.containers))
    (htag : ∃ n, d'.outside.2.tags.lookup (Layer.ofPath (dirOf e.container)) = some n)
    (htags : ∀ c, c ≠ e.container → d'.outside.2.tags.lookup (Layer.ofPath (dirOf c)) =
      d.outside.2.tags.lookup (Layer.ofPath (dirOf c))) :
    Converged s a b dirOf (es ++ [e]) d' := by
  refine ⟨hc, hf.trans hv.failed, fun c => ?_, fun c hk => ?_⟩
  · rw [Event.latest_snoc]
    by_cases heq : e.container = c
    · subst heq
      rw [hself, if_pos rfl, Option.some.injEq]
    · rw [hother c (Ne.symm heq), if_neg heq]
      exact hv.recorded c
  · rw [Event.latest_snoc] at hk
    by_cases heq : e.container = c
    · subst heq
      exact htag
    · rw [if_neg heq] at hk
      rw [htags c (Ne.symm heq)]
      exact hv.known c hk

theorem CreateOutcome.converged {e : Event} {r : Except Failure Entry}
    (ho : (h.inMemory fun _ => []).CreateOutcome e.container
      (Layer.ofPath (dirOf e.container)) d r d')
    (hc : h.Calm dirOf) (h0 : ¬(s.softLimit = "0" ∧ s.hardLimit = "0")) (hv : Converged s a b dirOf es d)
    (hin : ∀ n, d.core.pool.inRange n = true → Entry.Recordable n)
    (hroom : e.container ∉ d.core.store.table.containers →
      (d.core.pool.used.length : Int) < d.core.pool.capacity) (hk : e.kind = .create) :
    (∃ x, r = .ok x) ∧ Converged s a b dirOf (es ++ [e]) d' := by
  have habsent : d.core.store.table.get? e.container = none →
      e.container ∉ d.core.store.table.containers := by
    intro he hm
    exact (Table.mem_containers _ _).mp hm he
  cases ho with
  | kept x p w' he hp hq =>
    obtain ⟨hx, hxc⟩ := Table.get?_mem _ _ x he
    have hm := hq.memory
    rw [hv.consistent.sound.markUsed_eq e.container x p he hp]
    refine ⟨⟨x, rfl⟩, hv.next e (hv.consistent.congr rfl rfl rfl hm) rfl ?_ (fun _ _ => Iff.rfl) ?_
      fun c _ => by rw [hm.tags]⟩
    · exact iff_of_true (hxc ▸ List.mem_map_of_mem hx) hk
    · exact ⟨x.projectId, by rw [hm.tags, ← hxc]; exact hv.consistent.tags x hx⟩
  | refused x f he hp =>
    have hx := (Table.get?_mem _ _ x he).1
    have hused := (hv.consistent.used x.projectId).mpr (List.mem_map_of_mem hx)
    have hok := (Pool.markUsed_eq_ok d.core.pool _ x.projectId).mpr
      ⟨hv.consistent.sound.within _ hused, rfl⟩
    cases hp.symm.trans hok
  | overtaken he hcan => exact absurd (hcan.symm.trans (hc.cancelled _)) nofun
  | exhausted f he ha =>
    obtain ⟨id, hfree⟩ := Pool.allocate_free d.core.pool (hroom (habsent he))
    cases ha.symm.trans hfree
  | abandoned id p f w' he ha hn => cases hc.enforcing hn
  | malformed id p vs w' he ha hn hm =>
    obtain ⟨-, hrange, -⟩ := Pool.allocate_fresh d.core.pool p id ha
    cases hm.symm.trans (Entry.make_text e.container id (dirOf e.container) (hin id hrange))
  | recorded id p x r s' w₁ w₂ w' he ha hn hm hput hq =>
    obtain ⟨-, hrange, -⟩ := Pool.allocate_fresh d.core.pool p id ha
    cases hm.symm.trans (Entry.make_text e.container id (dirOf e.container) (hin id hrange))
    obtain ⟨rfl, rfl⟩ := Store.put_saved _ d.core.store (hc.saved d.core.store) s' _ _ _ r hput
    have hafter : w₁.2.Reads w'.2 := put_memory hput ▸ hq.memory
    rw [hv.consistent.settings] at hn
    have hcons := hv.consistent.record hc.distinct h0 he ha hn
    rw [Table.put_absent _ _ he]
    refine ⟨⟨_, rfl⟩, hv.next e (hcons.congr rfl rfl rfl hafter) rfl ?_ (fun c hne => ?_) ?_
      fun c hne => ?_⟩
    · exact iff_of_true ((Table.mem_containers_append _ _ _).mpr (.inr rfl)) hk
    · simp only [Table.mem_containers_append, hne, or_false]
    · exact ⟨id, by rw [hafter.tags, hn.tags]; exact lookup_assign_ofPath _ _ _⟩
    · rw [hafter.tags, hn.tags]
      exact lookup_assign_ofPath_other _ _ _ _ fun heq => hne (hc.distinct heq)

/-- The ID that a deletion chooses is that of the entry, or one that nobody has. -/
theorem ChoiceOutcome.known {r : Except Failure (Option Int)} {core : Core}
    (hch : (h.inMemory fun _ => []).ChoiceOutcome c (Layer.ofPath (dirOf c)) core w r w₁) {n : Int}
    (hn : w.2.tags.lookup (Layer.ofPath (dirOf c)) = some n)
    (he : ∀ e, core.store.table.get? c = some e → n = e.projectId) :
    (r = .ok none ∧ core.store.table.get? c = none) ∨
      ∃ id, r = .ok (some id) ∧ Clearable core c id := by
  cases hch with
  | own e r w₁ w' hget ht hr hq => exact .inr ⟨_, rfl, .inl ⟨e, hget, rfl⟩⟩
  | adopted id w₁ w' hget ht hin hno hq => exact .inr ⟨id, rfl, .inr ⟨hget, hin, hno⟩⟩
  | unclaimed found w₁ w' hget ht hno hq => exact .inl ⟨rfl, hget⟩
  | unread f w' ht => cases Calm.readTag_eq ht hn
  | inconsistent e found w' hget ht hne =>
    cases Calm.readTag_eq ht hn
    exact absurd (he e hget) hne.2

theorem DeleteOutcome.converged {e : Event} {r : Except Failure (Option Int)}
    (ho : (h.inMemory fun _ => []).DeleteOutcome e.container d r d') (hc : h.Calm dirOf)
    (hv : Converged s a b dirOf es d) (hk : e.kind = .delete)
    (hseen : Event.latest es e.container ≠ none) :
    (∃ x, r = .ok x) ∧ Converged s a b dirOf (es ++ [e]) d' := by
  obtain ⟨n, hn⟩ := hv.known _ hseen
  have hown : ∀ x, d.core.store.table.get? e.container = some x → n = x.projectId := by
    intro x hx
    obtain ⟨hmem, hxc⟩ := Table.get?_mem _ _ x hx
    have htag := hv.consistent.tags x hmem
    rw [hxc, hn] at htag
    exact Option.some.inj htag
  have hgone : e.container ∉ (d.core.store.table.remove e.container).containers :=
    fun hm => ((Table.mem_containers_remove _ _ _).mp hm).2 rfl
  cases ho with
  | overtaken hcan => exact absurd (hcan.symm.trans (hc.cancelled _)) nofun
  | unresolved f w' hres => cases hc.resolve_eq hres
  | unseen dir f w₁ w' hres hp =>
    cases hc.resolve_eq hres
    cases hc.present_eq hp
  | absent dir w₁ w₂ w' hres hp he hq =>
    cases hc.resolve_eq hres
    cases hc.present_eq hp
  | gone dir x w₁ w₂ r d' hres hp he hf =>
    cases hc.resolve_eq hres
    cases hc.present_eq hp
  | unclear dir id f w₁ w₂ w₃ w' hres hp hch hl hf => cases Calm.setLimit_eq hl
  | unchosen dir r w₁ w₂ w' hres hp hch hne =>
    cases hc.resolve_eq hres
    have hq := (Quiet.ofResolve hres).trans (Quiet.ofPresent hp)
    have hm := (hq.trans hch.quiet).memory
    rcases hch.known (hq.memory.tags ▸ hn) hown with ⟨rfl, hnone⟩ | ⟨id, rfl, -⟩
    · refine ⟨⟨none, rfl⟩, hv.next e (hv.consistent.congr rfl rfl rfl hm) rfl ?_
        (fun _ _ => Iff.rfl) ⟨n, by rw [hm.tags]; exact hn⟩ fun c _ => by rw [hm.tags]⟩
      rw [hk]
      exact iff_of_false (fun hin => (Table.mem_containers _ _).mp hin hnone) nofun
    · exact absurd rfl (hne id)
  | cleared dir id rl w₁ w₂ w₃ w₄ w₅ r d' hres hp hch hl hq hf =>
    cases hc.resolve_eq hres
    have hbefore := (((Quiet.ofResolve hres).trans (Quiet.ofPresent hp)).trans hch.quiet).memory
    cases Calm.setLimit_eq hl
    have hclear := setLimit_memory hl
    have hafter : w₄.2.Reads d'.outside.2 := hq.memory.trans hf.memory
    have hmem : d'.outside.2.tags = d.outside.2.tags :=
      hafter.tags.trans (hclear.tags.trans hbefore.tags)
    have hcons := hv.consistent.forget hch.clearable (hclear.tags.trans hbefore.tags)
      hclear.cleared fun m hm => (hclear.other m hm).trans (by rw [hbefore.limits]; rfl)
    cases hf with
    | done s' w₆ w' hs hq' =>
      obtain ⟨-, rfl⟩ := Store.remove_saved _ d.core.store (hc.saved d.core.store) s' _ _ _ _ hs
      refine ⟨⟨_, rfl⟩, hv.next e (hcons.congr rfl rfl rfl hafter) rfl ?_ (fun c hne => ?_)
        ⟨n, by rw [hmem]; exact hn⟩ fun c _ => by rw [hmem]⟩
      · rw [hk]
        exact iff_of_false hgone nofun
      · simp only [Table.mem_containers_remove, hne, ne_eq, not_false_eq_true, and_true]
    | failed f s' w' hs =>
      cases (Store.remove_saved _ d.core.store (hc.saved d.core.store) s' _ _ _ _ hs).1

theorem Calm.layerOf_eq (hc : h.Calm dirOf) (e : Event)
    (hdir : ∀ path, Mount.upperdir? e.rootfs = some path → path = dirOf e.container)
    (d : Daemon (σ × Memory)) :
    ∃ w, Act.run ((h.inMemory fun _ => []).layerOf e) d =
        (.ok (Layer.ofPath (dirOf e.container)), ⟨d.core, w⟩) ∧
      (h.inMemory fun _ => []).Quiet d.outside w := by
  unfold layerOf
  cases hu : Mount.upperdir? e.rootfs with
  | some path =>
    rw [hdir path hu]
    exact ⟨d.outside, rfl, Quiet.refl _⟩
  | none =>
    rcases hres : (h.inMemory fun _ => []).resolve e.container d.outside with ⟨r, w⟩
    cases hc.resolve_eq hres
    refine ⟨w, ?_, Quiet.ofResolve hres⟩
    simp only [Act.run_call, hres]

/-- The pool has an ID left for a container that is created, if it has one for every container that
was created last. -/
theorem Converged.room (hv : Converged s a b dirOf es d) (e : Event) (hk : e.kind = .create)
    (hroom : ((Event.living (es ++ [e])).length : Int) ≤ b - a + 1)
    (hnew : e.container ∉ d.core.store.table.containers) :
    (d.core.pool.used.length : Int) < d.core.pool.capacity := by
  have hnodup : (e.container :: d.core.store.table.containers).Nodup :=
    List.nodup_cons.mpr ⟨hnew, hv.consistent.distinct⟩
  have hsub : e.container :: d.core.store.table.containers ⊆ Event.living (es ++ [e]) := by
    intro c hm
    rw [Event.mem_living, Event.latest_snoc]
    rcases List.mem_cons.mp hm with rfl | hm
    · rw [if_pos rfl, hk]
    · have hne : e.container ≠ c := fun heq => hnew (heq ▸ hm)
      rw [if_neg hne]
      exact (hv.recorded c).mp hm
  -- each recorded container lives on and the new one joins them; each has one ID in use
  have hliving := (hnodup.subperm hsub).length_le
  have hused := (hv.consistent.once.subperm fun n hn => (hv.consistent.used n).mp hn).length_le
  simp only [List.length_cons, Table.containers, Table.ids, List.length_map] at hliving hused
  unfold Pool.capacity
  rw [hv.consistent.least, hv.consistent.greatest]
  omega

theorem Converged.handle (hv : Converged s a b dirOf es d) (hc : h.Calm dirOf)
    (h0 : ¬(s.softLimit = "0" ∧ s.hardLimit = "0")) (ha : 0 < a) (hb : b ≤ maxProjectId) (e : Event)
    (hroom : ((Event.living (es ++ [e])).length : Int) ≤ b - a + 1)
    (hfirst : Event.latest es e.container = none → e.kind = .create)
    (hdir : ∀ path, Mount.upperdir? e.rootfs = some path → path = dirOf e.container) :
    Converged s a b dirOf (es ++ [e]) ((h.inMemory fun _ => []).serve d (.handle e)) := by
  have hdone : (Act.run ((h.inMemory fun _ => []).applyEvent e) d).1 = .ok () ∧
      Converged s a b dirOf (es ++ [e]) (Act.run ((h.inMemory fun _ => []).applyEvent e) d).2 := by
    cases hk : e.kind with
    | create =>
      have hin : ∀ n, d.core.pool.inRange n = true → Entry.Recordable n := by
        intro n hn
        have hn := (Pool.inRange_iff _ n).mp hn
        rw [hv.consistent.least, hv.consistent.greatest] at hn
        exact ⟨by omega, by omega⟩
      obtain ⟨w, hrun, hq⟩ := hc.layerOf_eq e hdir d
      have hv' : Converged s a b dirOf es ⟨d.core, w⟩ :=
        ⟨hv.consistent.congr rfl rfl rfl hq.memory, hv.failed, hv.recorded, fun c hc => by
          rw [hq.memory.tags]
          exact hv.known c hc⟩
      obtain ⟨⟨x, hx⟩, hdone⟩ := ((h.inMemory fun _ => []).create_outcome e.container
        (Layer.ofPath (dirOf e.container)) ⟨d.core, w⟩).converged hc h0 hv' hin
        (hv.room e hk hroom) hk
      rw [applyEvent_create _ e hk]
      unfold applyEvent
      rw [hk, Act.run_bind_drop_fst, handleCreate_eq, Act.run_bind_ok _ _ _ _ _ hrun, hx]
      exact ⟨rfl, hdone⟩
    | delete =>
      obtain ⟨⟨x, hx⟩, hdone⟩ := ((h.inMemory fun _ => []).handleDelete_outcome e.container
        d).converged hc hv hk fun hnone => by
          rw [hfirst hnone] at hk
          cases hk
      rw [applyEvent_delete _ e hk]
      unfold applyEvent
      rw [hk, Act.run_bind_drop_fst, hx]
      exact ⟨rfl, hdone⟩
  obtain ⟨hok, hv'⟩ := hdone
  show Converged s a b dirOf (es ++ [e]) (Act.run ((h.inMemory fun _ => []).handleEvent e) d).2
  rw [handleEvent_applied _ e d hok]
  exact ⟨hv'.consistent.congr rfl rfl rfl (.refl _), hv'.failed, hv'.recorded, hv'.known⟩

/-! ### Runs -/

theorem handleAll_converged (hc : h.Calm dirOf) (h0 : ¬(s.softLimit = "0" ∧ s.hardLimit = "0"))
    (ha : 0 < a) (hb : b ≤ maxProjectId) (hd : Converged s a b dirOf [] d) (es : List Event)
    (hfirst : ∀ c e, es.find? (·.container == c) = some e → e.kind = .create)
    (hroom : ∀ pre, pre <+: es → ((Event.living pre).length : Int) ≤ b - a + 1)
    (hdir : ∀ e ∈ es, ∀ path, Mount.upperdir? e.rootfs = some path → path = dirOf e.container) :
    Converged s a b dirOf es ((h.inMemory fun _ => []).serveAll d (es.map .handle)) := by
  induction es using List.reverseRecOn with
  | nil => exact hd
  | append_singleton es e ih =>
    have hv := ih
      (fun c x hx => hfirst c x (by rw [List.find?_append, hx]; rfl))
      (fun pre hpre => hroom pre (hpre.trans (List.prefix_append es [e])))
      (fun x hx => hdir x (List.mem_append_left [e] hx))
    have hlast : Event.latest es e.container = none → e.kind = .create := by
      intro hnone
      refine hfirst e.container e ?_
      rw [List.find?_append, (Event.latest_eq_none_iff es _).mp hnone]
      simp
    have hstep := hv.handle hc h0 ha hb e (hroom _ List.prefix_rfl) hlast
      (hdir e (List.mem_append_right es (List.mem_singleton.mpr rfl)))
    unfold serveAll at hstep ⊢
    rw [List.map_append, List.foldl_append]
    exact hstep

/-- Where nothing fails and the pool suffices, every container that was created last is recorded and
no other is, the IDs in use are those of the entries, these and no others are limited, each on the
directory of its container, and no event fails. -/
theorem events_converge (h : Host σ) (dirOf : String → String) (hc : h.Calm dirOf) (a b : Int)
    (p : Pool) (hp : Pool.create a b = .ok p) (hb : b ≤ maxProjectId) (s : Settings)
    (h0 : ¬(s.softLimit = "0" ∧ s.hardLimit = "0")) (path : String) (v : σ) (es : List Event)
    (hfirst : ∀ c e, es.find? (·.container == c) = some e → e.kind = .create)
    (hroom : ∀ pre, pre <+: es → ((Event.living pre).length : Int) ≤ p.capacity)
    (hdir : ∀ e ∈ es, ∀ path, Mount.upperdir? e.rootfs = some path → path = dirOf e.container)
    (pre : List Event) (hpre : pre <+: es) :
    let d := (h.inMemory fun _ => []).serveAll ⟨Core.opening s p ⟨path, []⟩, v, .empty⟩
      (pre.map .handle)
    d.core.failed = 0 ∧
      (∀ c, c ∈ d.core.store.table.containers ↔ Event.latest pre c = some .create) ∧
      (∀ n, n ∈ d.core.pool.used ↔ n ∈ d.core.store.table.ids) ∧
      (∀ n, limitsOf d.outside n =
        if n ∈ d.core.store.table.ids then some (s.softLimit, s.hardLimit) else none) ∧
      ∀ e ∈ d.core.store.table,
        d.outside.2.tags.lookup (Layer.ofPath (dirOf e.container)) = some e.projectId := by
  intro d
  have hpool := Pool.create_used a b p hp
  have ha := Pool.create_least_pos a b p hp
  subst hpool
  have hempty : Converged s a b dirOf []
      (⟨Core.opening s ⟨a, b, []⟩ ⟨path, []⟩, v, .empty⟩ : Daemon (σ × Memory)) := by
    refine ⟨⟨⟨List.nodup_nil, nofun, nofun⟩, rfl, rfl, rfl, List.nodup_nil, List.nodup_nil,
      fun n => Iff.rfl, fun n => rfl, nofun⟩, rfl, fun c => ?_, fun c hk => absurd rfl hk⟩
    exact iff_of_false List.not_mem_nil nofun
  have hv : Converged s a b dirOf pre d := by
    refine handleAll_converged hc h0 ha hb hempty pre (fun c e he => hfirst c e ?_)
      (fun pre' hpre' => hroom pre' (hpre'.trans hpre)) fun e he => hdir e (hpre.subset he)
    obtain ⟨rest, rfl⟩ := hpre
    rw [List.find?_append, he]
    rfl
  exact ⟨hv.failed, hv.recorded, hv.consistent.used, hv.consistent.limits, hv.consistent.tags⟩

theorem smooth_calm : (smooth : Host Unit).Calm id where
  cancelled _ := rfl
  save _ _ _ := rfl
  resolve _ _ := rfl
  present _ _ := rfl
  distinct := Function.injective_id

/-- Three containers under two IDs: the last one is created twice, under the ID that the first one
had, and the first one is deleted twice. -/
def turnover : List Event :=
  [⟨.create, "a", []⟩, ⟨.create, "b", []⟩, ⟨.delete, "a", []⟩, ⟨.create, "c", []⟩,
    ⟨.create, "c", []⟩, ⟨.delete, "a", []⟩]

theorem turnover_events_converge :
    let d := ((smooth : Host Unit).inMemory fun _ => []).serveAll
      ⟨Core.opening ⟨"10g", "12g", .ofInt 5, none⟩ ⟨1, 2, []⟩ ⟨"", []⟩, (), .empty⟩
      (turnover.map .handle)
    d.core.failed = 0 ∧
      (∀ c, c ∈ d.core.store.table.containers ↔ Event.latest turnover c = some .create) ∧
      (∀ n, n ∈ d.core.pool.used ↔ n ∈ d.core.store.table.ids) ∧
      (∀ n, limitsOf d.outside n =
        if n ∈ d.core.store.table.ids then some ("10g", "12g") else none) ∧
      ∀ e ∈ d.core.store.table,
        d.outside.2.tags.lookup (Layer.ofPath e.container) = some e.projectId := by
  refine events_converge smooth id smooth_calm 1 2 ⟨1, 2, []⟩ rfl (by decide)
    ⟨"10g", "12g", .ofInt 5, none⟩ (by decide) "" () turnover (fun c e he => ?_) (fun pre hpre => ?_)
    (fun e he path hpath => ?_) turnover List.prefix_rfl
  · have hall : ∀ e ∈ turnover,
        turnover.find? (·.container == e.container) = some e → e.kind = .create := by decide
    have hc : e.container = c := by simpa using List.find?_some he
    exact hall e (List.mem_of_find?_eq_some he) (hc ▸ he)
  · have hall : ∀ pre ∈ turnover.inits,
        ((Event.living pre).length : Int) ≤ (⟨1, 2, []⟩ : Pool).capacity := by decide
    exact hall pre ((List.mem_inits pre turnover).mpr hpre)
  · have hall : ∀ e ∈ turnover, Mount.upperdir? e.rootfs = none := by decide
    rw [hall e he] at hpath
    cases hpath

end Host

end LayerQuota
