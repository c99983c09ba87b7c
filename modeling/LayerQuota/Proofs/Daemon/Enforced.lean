import LayerQuota.Proofs.Daemon.InMemory
import LayerQuota.Proofs.Daemon.Sound
/-!
# What is recorded is limited

With quotas in memory, an entry is recorded only when the limits of its project are set, and no
deed takes them away but the deletion of its container. That deletion clears the limits before the
entry is removed. Where the record cannot be written then, the entry stays without limits; such
containers are kept track of along a run.
-/

namespace LayerQuota.Host

open LayerQuota.Act

variable {σ : Type}

/-! ### Limits -/

def limitsOf (w : σ × Memory) (id : Int) : Option (String × String) := w.2.limits.lookup id

variable {h : Host σ} {orders : σ → List (String × Json.Value)} {w w₁ w₂ : σ × Memory}

theorem Enforcing.limitsOf_other {s : Settings} {dir : Layer} {id : Int} {r : Except Failure Unit}
    (hn : (h.inMemory orders).Enforcing s dir id w r w₁) (n : Int) (hid : n ≠ id) :
    limitsOf w₁ n = limitsOf w n := by
  unfold limitsOf
  cases hn with
  | overtaken hc => rfl
  | untagged f w' ht => rw [(tag_memory ht).limits]
  | halted w' ht hc => rw [(tag_memory ht).limits]
  | limited w₁ w' r ht hl =>
    rw [← (tag_memory ht).limits]
    exact (setLimit_memory hl).other n hid

theorem Enforcing.limitsOf_self {s : Settings} {dir : Layer} {id : Int}
    (hn : (h.inMemory orders).Enforcing s dir id w (.ok ()) w₁)
    (h0 : ¬(s.softLimit = "0" ∧ s.hardLimit = "0")) :
    limitsOf w₁ id = some (s.softLimit, s.hardLimit) := by
  cases hn with
  | limited w₂ w' r ht hl => exact (setLimit_memory hl).set h0

/-- Clearing the limits of a project takes them away, or leaves them where it fails. -/
theorem clear_limitsOf (id : Int) (r : Except Failure Unit)
    (hl : (h.inMemory orders).setLimit id noLimit noLimit w = (r, w₁)) :
    limitsOf w₁ id = none ∨ limitsOf w₁ id = limitsOf w id := by
  have hm := setLimit_memory hl
  unfold limitsOf
  cases r with
  | ok u => exact .inl hm.cleared
  | error f => exact .inr (by rw [hm.failed])

/-! ### Deeds -/

/-- Every entry has its limits, except those of some containers, which have none. -/
structure Enforced (s : Settings) (cs : List String) (d : Daemon (σ × Memory)) : Prop where
  sound : Sound d.core
  settings : d.core.settings = s
  recorded : ∀ c ∈ cs, d.core.store.table.get? c ≠ none
  limits : ∀ e ∈ d.core.store.table, limitsOf d.outside e.projectId =
    if e.container ∈ cs then none else some (s.softLimit, s.hardLimit)

variable {s : Settings} {cs : List String} {c : String} {d d' : Daemon (σ × Memory)}

theorem Beside.enforced (hb : (h.inMemory orders).Beside d d') (he : Enforced s cs d) :
    Enforced s cs d' := by
  refine ⟨hb.sound he.sound, hb.settings.trans he.settings, hb.store ▸ he.recorded, ?_⟩
  unfold limitsOf
  rw [hb.store, hb.outside.memory.limits]
  exact he.limits

theorem Reserving.enforced (hr : (h.inMemory orders).Reserving d.core.store.table d d')
    (he : Enforced s cs d) : Enforced s cs d' := by
  refine ⟨hr.sound he.sound.distinct he.sound.within, hr.settings.trans he.settings,
    hr.store ▸ he.recorded, ?_⟩
  unfold limitsOf
  rw [hr.store, hr.outside.memory.limits]
  exact he.limits

theorem Creation.limits (hc : (h.inMemory orders).Creation c d d') (he : Enforced s cs d)
    (h0 : ¬(s.softLimit = "0" ∧ s.hardLimit = "0")) :
    ∀ e ∈ d'.core.store.table, (e ∈ d.core.store.table ∧
        limitsOf d'.outside e.projectId = limitsOf d.outside e.projectId) ∨
      (e.container = c ∧ d.core.store.table.get? c = none ∧
        limitsOf d'.outside e.projectId = some (s.softLimit, s.hardLimit)) := by
  cases hc with
  | idle => exact fun e hm => .inl ⟨hm, rfl⟩
  | kept x p w' hget hp hq =>
    intro e hm
    unfold limitsOf
    rw [hq.memory.limits]
    exact .inl ⟨hm, rfl⟩
  | abandoned dir id p f w' hget ha hn =>
    exact fun e hm => .inl ⟨hm, hn.limitsOf_other _ (he.sound.fresh id p ha e hm)⟩
  | malformed dir id p w' hget ha hn =>
    exact fun e hm => .inl ⟨hm, hn.limitsOf_other _ (he.sound.fresh id p ha e hm)⟩
  | recorded dir id p x r s' w₁ w₂ w' hget ha hn hm hput hq =>
    obtain ⟨rfl, rfl, -⟩ := Entry.make_eq_valid c id dir x hm
    have hw : ∀ n, limitsOf w' n = limitsOf w₁ n := by
      intro n
      unfold limitsOf
      rw [hq.memory.limits, put_memory hput]
    have hold : ∀ e ∈ d.core.store.table,
        limitsOf w' e.projectId = limitsOf d.outside e.projectId := fun e hm =>
      (hw _).trans (hn.limitsOf_other _ (he.sound.fresh _ p ha e hm))
    have hnew : limitsOf w' x.projectId = some (s.softLimit, s.hardLimit) := by
      rw [hw, ← he.settings]
      exact hn.limitsOf_self (he.settings ▸ h0)
    have hfull : ∀ e ∈ d.core.store.table.put x, (e ∈ d.core.store.table ∧
        limitsOf w' e.projectId = limitsOf d.outside e.projectId) ∨
        (e.container = x.container ∧ d.core.store.table.get? x.container = none ∧
          limitsOf w' e.projectId = some (s.softLimit, s.hardLimit)) := by
      intro e hmem
      rw [Table.put_absent _ x hget, List.mem_append, List.mem_singleton] at hmem
      rcases hmem with hmem | rfl
      · exact .inl ⟨hmem, hold e hmem⟩
      · exact .inr ⟨rfl, hget, hnew⟩
    cases Store.put_outcome _ _ _ _ _ _ _ hput with
    | written => exact hfull
    | undone f hf => exact fun e hmem => .inl ⟨hmem, hold e hmem⟩
    | unwritten f hf => exact hfull

theorem Creation.enforced (hc : (h.inMemory orders).Creation c d d') (he : Enforced s cs d)
    (h0 : ¬(s.softLimit = "0" ∧ s.hardLimit = "0")) : Enforced s cs d' := by
  have hlim := hc.limits he h0
  refine ⟨hc.sound he.sound, hc.settings.trans he.settings, fun b hb => ?_, fun e hm => ?_⟩
  · obtain ⟨e, hget⟩ := Option.ne_none_iff_exists'.mp (he.recorded b hb)
    rw [hc.keeps b e hget]
    exact Option.some_ne_none e
  · rcases hlim e hm with ⟨hold, heq⟩ | ⟨rfl, hget, heq⟩
    · rw [heq]
      exact he.limits e hold
    · have hnot : e.container ∉ cs := fun hcs => he.recorded _ hcs hget
      rw [heq, if_neg hnot]

theorem Deletion.limits_others {r : Except Failure (Option Int)}
    (hd : (h.inMemory orders).Deletion c d r d') (hs : Sound d.core) :
    ∀ e ∈ d.core.store.table, e.container ≠ c →
      limitsOf d'.outside e.projectId = limitsOf d.outside e.projectId := by
  intro e hm hec
  unfold limitsOf
  cases hd with
  | idle r w' hr hq => rw [hq.memory.limits]
  | unclear id f w₁ w' hc hq hl => rw [(setLimit_memory hl).failed, hq.memory.limits]
  | cleared id rl w₁ w₂ w₃ r d' hc hq hl hn hf =>
    rw [hf.memory.limits, hn.memory.limits, ← hq.memory.limits]
    exact (setLimit_memory hl).other _ (hc.notOthers hs e hm hec)
  | gone x w₁ r d' he hq hf => rw [hf.memory.limits, hq.memory.limits]

/-- After a deletion the entry of its container has the limits it had, or none, and that only where
the entry was to go and the record was not written. -/
theorem Deletion.limits_own {r : Except Failure (Option Int)}
    (hd : (h.inMemory orders).Deletion c d r d') :
    (∀ e ∈ d'.core.store.table, e.container = c → e ∈ d.core.store.table ∧
      limitsOf d'.outside e.projectId = limitsOf d.outside e.projectId) ∨
    ∃ f e, r = .error f ∧ f.isUnsaved = true ∧ d'.core.store.table.get? c = some e ∧
      limitsOf d'.outside e.projectId = none ∧
      ∀ x ∈ d'.core.store.table, x.container = c → x = e := by
  unfold limitsOf
  cases hd with
  | idle r w' hr hq => exact .inl fun e hm _ => ⟨hm, by rw [hq.memory.limits]⟩
  | unclear id f w₁ w' hc hq hl =>
    exact .inl fun e hm _ => ⟨hm, by rw [(setLimit_memory hl).failed, hq.memory.limits]⟩
  | cleared id rl w₁ w₂ w₃ r d' hc hq hl hn hf =>
    rcases hf.own with hno | ⟨f, e, hr, hu, he, he', hone⟩
    · exact .inl fun x hx hxc => absurd hxc (hno x hx)
    · have hid : e.projectId = id := by
        rcases hc with ⟨x, hx, rfl⟩ | ⟨hx, -⟩
        · rw [he] at hx
          cases hx
          rfl
        · rw [he] at hx
          cases hx
      have hw : d'.outside.2.limits = w₂.2.limits := hf.memory.limits.trans hn.memory.limits
      rcases clear_limitsOf id rl hl with hnone | hsame
      · refine .inr ⟨f, e, hr, hu, he', ?_, hone⟩
        rw [hw, hid]
        exact hnone
      · refine .inl fun x hx hxc => ?_
        rw [hone x hx hxc, hw, hid, ← hq.memory.limits]
        exact ⟨(Table.get?_mem _ c e he).1, hsame⟩
  | gone e w₁ r d' he hq hf =>
    have hw : d'.outside.2.limits = d.outside.2.limits := hf.memory.limits.trans hq.memory.limits
    rcases hf.own with hno | ⟨f, x, -, -, hx, -, hone⟩
    · exact .inl fun y hy hyc => absurd hyc (hno y hy)
    · refine .inl fun y hy hyc => ?_
      rw [hone y hy hyc, hw]
      exact ⟨(Table.get?_mem _ c x hx).1, rfl⟩

theorem Deed.enforced (hd : (h.inMemory orders).Deed .create c d d') (he : Enforced s cs d)
    (h0 : ¬(s.softLimit = "0" ∧ s.hardLimit = "0")) : Enforced s cs d' := by
  cases hd with
  | beside hb => exact hb.enforced he
  | creation hk hc => exact hc.enforced he h0
  | deletion hk r hd => cases hk

/-! ### Containers without limits -/

/-- Does the deletion of a container break off, its limits cleared and its entry kept, since the
record cannot be written? -/
def breaksOff (h : Host (σ × Memory)) (d : Daemon (σ × Memory)) (c : String) : Bool :=
  match Act.run (h.handleDelete c) d with
  | (.ok _, _) => false
  | (.error f, d') =>
    f.isUnsaved &&
      (d'.core.store.table.get? c).any fun e => (limitsOf d'.outside e.projectId).isNone

/-- The containers without limits after a request: one whose deletion breaks off, and those that
were before, as far as they are still recorded. -/
def suspend (h : Host (σ × Memory)) (d : Daemon (σ × Memory)) (cs : List String)
    (q : Request (σ × Memory)) : List String :=
  let cs := match q with
    | .handle e =>
      if e.kind = EventKind.delete ∧ h.breaksOff d e.container = true then e.container :: cs
      else cs
    | _ => cs
  cs.filter fun c => ((h.serve d q).core.store.table.get? c).isSome

def suspendAll (h : Host (σ × Memory)) (d : Daemon (σ × Memory)) (cs : List String) :
    List (Request (σ × Memory)) → List String
  | [] => cs
  | q :: qs => h.suspendAll (h.serve d q) (h.suspend d cs q) qs

def suspended (h : Host (σ × Memory)) (d : Daemon (σ × Memory))
    (qs : List (Request (σ × Memory))) : List String :=
  h.suspendAll (h.serve d .reconcile) [] qs

theorem Enforced.ofLimits (hs : Sound d.core) (hset : d.core.settings = s)
    (hlim : ∀ e ∈ d.core.store.table, limitsOf d.outside e.projectId =
      if e.container ∈ cs then none else some (s.softLimit, s.hardLimit)) :
    Enforced s (cs.filter fun c => (d.core.store.table.get? c).isSome) d := by
  refine ⟨hs, hset, fun c hc => ?_, fun e he => ?_⟩
  · exact Option.isSome_iff_ne_none.mp (List.mem_filter.mp hc).2
  · have hrec : (d.core.store.table.get? e.container).isSome = true := by
      rw [Option.isSome_iff_ne_none]
      exact fun hnone => (Table.get?_eq_none_iff _ _).mp hnone e he rfl
    rw [hlim e he]
    simp only [List.mem_filter, hrec, and_true]

theorem Enforced.filter (he : Enforced s cs d) :
    Enforced s (cs.filter fun c => (d.core.store.table.get? c).isSome) d :=
  .ofLimits he.sound he.settings he.limits

/-- The entries after a deletion: its container is without limits where it broke off. -/
theorem Deletion.limits {r : Except Failure (Option Int)}
    (hd : (h.inMemory orders).Deletion c d r d') (he : Enforced s cs d)
    (hrun : Act.run ((h.inMemory orders).handleDelete c) d = (r, d')) :
    ∀ e ∈ d'.core.store.table, limitsOf d'.outside e.projectId =
      if e.container ∈ (if (h.inMemory orders).breaksOff d c then c :: cs else cs) then none
      else some (s.softLimit, s.hardLimit) := by
  intro e hm
  by_cases hec : e.container = c
  · rcases hd.limits_own with hsame | ⟨f, x, rfl, hf, hget, hnone, hone⟩
    · -- the deletion can only seem to break off where the container was without limits before
      have hback : (h.inMemory orders).breaksOff d c = true → c ∈ cs := by
        intro hb
        unfold breaksOff at hb
        rw [hrun] at hb
        rcases r with f | _
        · simp only [Bool.and_eq_true, Option.any_eq_true] at hb
          obtain ⟨-, x, hx, hnone⟩ := hb
          obtain ⟨hxm, hxc⟩ := Table.get?_mem _ c x hx
          obtain ⟨hold, heq⟩ := hsame x hxm hxc
          rw [heq, he.limits x hold, hxc] at hnone
          by_contra hnot
          rw [if_neg hnot] at hnone
          cases hnone
        · cases hb
      have hmem : c ∈ (if (h.inMemory orders).breaksOff d c then c :: cs else cs) ↔ c ∈ cs := by
        split
        · rename_i hb
          exact ⟨fun _ => hback hb, List.mem_cons_of_mem c⟩
        · exact Iff.rfl
      obtain ⟨hold, heq⟩ := hsame e hm hec
      rw [heq, he.limits e hold, hec]
      simp only [hmem]
    · have hb : (h.inMemory orders).breaksOff d c = true := by
        unfold breaksOff
        rw [hrun]
        simp only [hf, hget, Option.any_some, hnone, Option.isNone_none, Bool.and_self]
      rw [hone e hm hec, hnone, hb]
      have hxc : x.container = c := (Table.get?_mem _ c x hget).2
      simp only [if_true, hxc, List.mem_cons, true_or]
  · have hold : e ∈ d.core.store.table := (hd.sameBut.mem e hec).mp hm
    have hmem : e.container ∈ (if (h.inMemory orders).breaksOff d c then c :: cs else cs) ↔
        e.container ∈ cs := by
      split
      · simp only [List.mem_cons, hec, false_or]
      · exact Iff.rfl
    rw [hd.limits_others he.sound e hold hec, he.limits e hold]
    simp only [hmem]

/-! ### Runs -/

theorem reconcile_enforced (he : Enforced s cs d) (h0 : ¬(s.softLimit = "0" ∧ s.hardLimit = "0")) :
    Enforced s cs ((h.inMemory orders).serve d .reconcile) := by
  obtain ⟨d₁, hr, hp⟩ := (h.inMemory orders).reconcile_outcome d
  exact hp.keeps (Enforced s cs) (fun _ _ _ he hd => hd.enforced he h0) (hr.enforced he)

theorem serve_enforced (q : Request (σ × Memory)) (he : Enforced s cs d)
    (h0 : ¬(s.softLimit = "0" ∧ s.hardLimit = "0"))
    (hq : ∀ f, q = .meanwhile f → ∀ w, (f w).2.limits = w.2.limits) :
    Enforced s ((h.inMemory orders).suspend d cs q) ((h.inMemory orders).serve d q) := by
  cases q with
  | reconcile => exact (reconcile_enforced he h0).filter
  | meanwhile f =>
    refine Enforced.filter ⟨he.sound, he.settings, he.recorded, fun e hm => ?_⟩
    show (f d.outside).2.limits.lookup e.projectId = _
    rw [hq f rfl]
    exact he.limits e hm
  | handle e =>
    unfold suspend
    cases hk : e.kind with
    | create =>
      have hd := (h.inMemory orders).handleEvent_deeds e d
      rw [hk] at hd
      simp only [hk, reduceCtorEq, false_and, if_false]
      exact (hd.keeps (Enforced s cs) (fun _ _ he hd => hd.enforced he h0) he).filter
    | delete =>
      have hd := (h.inMemory orders).handleDelete_deletion e.container d
      have hb : (h.inMemory orders).Beside
          (Act.run ((h.inMemory orders).handleDelete e.container) d).2
          ((h.inMemory orders).serve d (.handle e)) :=
        (h.inMemory orders).applyEvent_delete e hk d ▸ (h.inMemory orders).handleEvent_beside e d
      have hlim := hd.limits he rfl
      simp only [hk, true_and]
      refine .ofLimits (hb.sound (hd.sound he.sound))
        (hb.settings.trans (hd.settings.trans he.settings)) fun x hx => ?_
      rw [hb.store] at hx
      unfold limitsOf
      rw [hb.outside.memory.limits]
      exact hlim x hx

theorem serveAll_enforced (qs : List (Request (σ × Memory))) (he : Enforced s cs d)
    (h0 : ¬(s.softLimit = "0" ∧ s.hardLimit = "0"))
    (hq : ∀ f, .meanwhile f ∈ qs → ∀ w, (f w).2.limits = w.2.limits) :
    Enforced s ((h.inMemory orders).suspendAll d cs qs) ((h.inMemory orders).serveAll d qs) := by
  induction qs generalizing d cs with
  | nil => exact he
  | cons q qs ih =>
    have hstep : Enforced s ((h.inMemory orders).suspend d cs q) ((h.inMemory orders).serve d q) :=
      serve_enforced q he h0 fun f hf => hq f (hf ▸ List.mem_cons_self)
    exact ih hstep fun f hf => hq f (List.mem_cons_of_mem q hf)

/-- From an empty record on, every entry has the limits that are set, unless the deletion of its
container broke off after it had cleared them: then it has none. -/
theorem session_limits (h : Host σ) (orders : σ → List (String × Json.Value)) (a b : Int) (p : Pool)
    (hp : Pool.create a b = .ok p) (s : Settings) (h0 : ¬(s.softLimit = "0" ∧ s.hardLimit = "0"))
    (path : String) (w : σ × Memory) (qs : List (Request (σ × Memory)))
    (hq : ∀ f, .meanwhile f ∈ qs → ∀ w, (f w).2.limits = w.2.limits) :
    let start : Daemon (σ × Memory) := ⟨Core.opening s p ⟨path, []⟩, w⟩
    let d := (h.inMemory orders).session start qs
    ∀ e ∈ d.core.store.table, limitsOf d.outside e.projectId =
      if e.container ∈ (h.inMemory orders).suspended start qs then none
      else some (s.softLimit, s.hardLimit) := by
  intro start d
  have hempty : Enforced s [] start := by
    have hused : p.used = [] := by rw [Pool.create_used a b p hp]
    refine ⟨⟨List.nodup_nil, nofun, fun n hn => ?_⟩, rfl, nofun, nofun⟩
    have hn : n ∈ p.used := hn
    rw [hused] at hn
    cases hn
  exact (serveAll_enforced qs (reconcile_enforced hempty h0) h0 hq).limits

/-- A host on whose disk nothing can be written while it is full. -/
def onFullDisk : Host Bool :=
  { smooth with
    save := fun _ _ full =>
      (if full then .error (.system 28 "No space left on device" []) else .ok (), full) }

/-- Two containers are created, and one is deleted when the disk is full. -/
def fillUp : List (Request (Bool × Memory)) :=
  [.handle ⟨.create, "b", []⟩, .handle ⟨.create, "c", []⟩, .meanwhile fun w => (true, w.2),
    .handle ⟨.delete, "c", []⟩]

theorem fillUp_session_limits :
    let host := onFullDisk.inMemory fun _ => []
    let start : Daemon (Bool × Memory) :=
      ⟨Core.opening ⟨"10g", "12g", .ofInt 5, none⟩ ⟨1, 2, []⟩ ⟨"", []⟩, false, .empty⟩
    let d := host.session start fillUp
    ∀ e ∈ d.core.store.table, limitsOf d.outside e.projectId =
      if e.container ∈ host.suspended start fillUp then none else some ("10g", "12g") := by
  refine session_limits onFullDisk (fun _ => []) 1 2 ⟨1, 2, []⟩ rfl ⟨"10g", "12g", .ofInt 5, none⟩
    (by decide) "" (false, .empty) fillUp fun f hf w => ?_
  simp only [fillUp, List.mem_cons, reduceCtorEq, Request.meanwhile.injEq, List.not_mem_nil,
    or_false, false_or] at hf
  rw [hf]

theorem fillUp_session_unlimited :
    let host := onFullDisk.inMemory fun _ => []
    let start : Daemon (Bool × Memory) :=
      ⟨Core.opening ⟨"10g", "12g", .ofInt 5, none⟩ ⟨1, 2, []⟩ ⟨"", []⟩, false, .empty⟩
    let d := host.session start fillUp
    ¬∀ e ∈ d.core.store.table, limitsOf d.outside e.projectId = some ("10g", "12g") := by
  decide +kernel

end LayerQuota.Host
