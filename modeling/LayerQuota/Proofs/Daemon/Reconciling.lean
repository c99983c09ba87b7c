import LayerQuota.Proofs.Daemon.Delivery
import Mathlib.Data.String.Basic
/-!
# A report accounts for a pass

A reconciliation that returns keeps every entry and adds one for each container that it counts as
created. Every running container is counted once, unless the scope was cancelled before its turn, and
the stale ones are the recorded containers that do not run, in order.
-/

namespace LayerQuota

/-- The containers that a report counts. -/
def Report.counted (r : Report) : Nat := r.restored + r.created + r.skipped + r.failed

theorem Table.mem_containers_left (t u : Table) (c : String) (hc : c ∈ t.containers) :
    c ∈ Table.containers (t ++ u) := by
  rw [Table.containers, List.map_append]
  exact List.mem_append_left _ hc

namespace Host

open LayerQuota.Act

variable {σ : Type} {h : Host σ} {c : String} {dir : Layer} {r r' : Report} {t : Table}
  {d d' : Daemon σ}

/-- A scope that stays cancelled, whatever a reconciliation calls. -/
def StaysCancelled (h : Host σ) : Prop := h.Upholds fun v => h.cancelled v = true

theorem open_before {v v' : σ} (hstays : h.cancelled v = true → h.cancelled v' = true)
    (hopen : h.cancelled v' = false) : h.cancelled v = false := by
  cases hc : h.cancelled v with
  | false => rfl
  | true => cases hopen.symm.trans (hstays hc)

/-! ### Creations -/

theorem CreateOutcome.store_of_own {f : Failure} (ho : h.CreateOutcome c dir d (.error f) d')
    (hf : f.isOwn = true) : d'.core.store = d.core.store := by
  generalize hres : (Except.error f : Except Failure Entry) = res at ho
  cases ho with
  | kept e p w' he hp hq => cases hres
  | refused e g he hp => rfl
  | overtaken he hc => rfl
  | exhausted g he ha => rfl
  | abandoned id p g w' he ha hn => rfl
  | malformed id p vs w' he ha hn hm => rfl
  | recorded id p e rs s w₁ w₂ w' he ha hn hm hs hq =>
    cases Store.put_outcome _ _ _ e _ _ rs hs with
    | written => cases hres
    | undone g hg => rfl
    | unwritten g hg =>
      -- what is no failure to write is no failure of the daemon's own either
      cases hres
      obtain rfl | ⟨fault, rfl⟩ :=
        Store.save_fails _ _ _ _ _ _ (Store.put_eq_error _ _ _ _ _ _ _ hs)
      · cases hf
      · cases hg

theorem CreateOutcome.table_of_ok {e : Entry} (ho : h.CreateOutcome c dir d (.ok e) d')
    (he : d.core.store.table.get? c = none) :
    e.container = c ∧ d'.core.store.table = d.core.store.table ++ [e] := by
  generalize hres : (Except.ok e : Except Failure Entry) = res at ho
  cases ho with
  | kept x p w' hx hp hq => cases he.symm.trans hx
  | refused x g hx hp => cases hres
  | overtaken _ hc => cases hres
  | exhausted g _ ha => cases hres
  | abandoned id p g w' _ ha hn => cases hres
  | malformed id p vs w' _ ha hn hm => cases hres
  | recorded id p x rs s w₁ w₂ w' _ ha hn hm hs hq =>
    obtain ⟨rfl, -, -⟩ := Entry.make_eq_valid c id dir x hm
    cases Store.put_outcome _ _ _ x _ _ rs hs with
    | written =>
      cases hres
      exact ⟨rfl, Table.put_absent _ _ he⟩
    | undone g hg => cases hres
    | unwritten g hg => cases hres

/-! ### Progress -/

/-- What visiting some containers makes of a report and of a record. -/
structure Progress (h : Host σ) (cs : List String) (r r' : Report) (t : Table) (d' : Daemon σ) :
    Prop where
  live : r'.live = r.live
  added : ∃ added : Table, d'.core.store.table = t ++ added ∧
    r'.created = r.created + added.length ∧
    ∀ e ∈ added, e.container ∈ cs ∧ e.container ∉ t.containers
  distinct : t.containers.Nodup → d'.core.store.table.containers.Nodup
  bound : r'.counted ≤ r.counted + cs.length
  skipped : r.skipped ≤ r'.skipped
  failed : r.failed ≤ r'.failed
  full : h.StaysCancelled → h.NeverAbandons → h.cancelled d'.outside = false →
    r'.counted = r.counted + cs.length ∧
      (r'.skipped = r.skipped → r'.failed = r.failed →
        ∀ c ∈ cs, c ∈ d'.core.store.table.containers)

namespace Progress

/-- Where nothing was recorded and nobody counted, the scope is cancelled, or there was nobody to
count. -/
theorem idle (cs : List String) (r : Report) (ht : d'.core.store.table = t)
    (hc : cs = [] ∨ (h.StaysCancelled → h.NeverAbandons → h.cancelled d'.outside = true)) :
    h.Progress cs r r t d' := by
  refine ⟨rfl, ⟨[], by rw [ht, List.append_nil], rfl, nofun⟩, fun hn => ht ▸ hn,
    Nat.le_add_right _ _, Nat.le_refl _, Nat.le_refl _, fun hstay hnever hlive => ?_⟩
  obtain rfl | hc := hc
  · exact ⟨rfl, fun _ _ => nofun⟩
  · cases hlive.symm.trans (hc hstay hnever)

/-- A container for which nothing was recorded is counted as skipped or as failed, unless it has an
entry already. -/
theorem unchanged (ht : d'.core.store.table = t) (hlive : r'.live = r.live)
    (hcreated : r'.created = r.created) (hcount : r'.counted = r.counted + 1)
    (hskipped : r.skipped ≤ r'.skipped) (hfailed : r.failed ≤ r'.failed)
    (hrecorded : r'.skipped = r.skipped → r'.failed = r.failed → c ∈ t.containers) :
    h.Progress [c] r r' t d' := by
  refine ⟨hlive, ⟨[], by rw [ht, List.append_nil], hcreated, nofun⟩, fun hn => ht ▸ hn,
    Nat.le_of_eq hcount, hskipped, hfailed, fun _ _ _ => ⟨hcount, fun hs hf b hb => ?_⟩⟩
  rw [List.mem_singleton.mp hb, ht]
  exact hrecorded hs hf

theorem created {e : Entry} (he : t.get? e.container = none)
    (ht : d'.core.store.table = t ++ [e]) :
    h.Progress [e.container] r { r with created := r.created + 1 } t d' := by
  have hnew : e.container ∉ t.containers := by
    rw [Table.mem_containers, he]
    exact fun hne => hne rfl
  have hcount : ({ r with created := r.created + 1 } : Report).counted = r.counted + 1 := by
    simp only [Report.counted]
    omega
  refine ⟨rfl, ⟨[e], ht, rfl, fun x hx => ?_⟩, fun hn => ?_, Nat.le_of_eq hcount, Nat.le_refl _,
    Nat.le_refl _, fun _ _ _ => ⟨hcount, fun _ _ b hb => ?_⟩⟩
  · rw [List.mem_singleton.mp hx]
    exact ⟨List.mem_singleton_self _, hnew⟩
  · rw [ht]
    exact Table.containers_append_nodup t hn e he
  · rw [List.mem_singleton.mp hb, ht, Table.mem_containers_append]
    exact .inr rfl

theorem trans {cs₁ cs₂ : List String} {r₁ r₂ : Report} {d₁ d₂ : Daemon σ}
    (ha : h.Progress cs₁ r r₁ t d₁) (hb : h.Progress cs₂ r₁ r₂ d₁.core.store.table d₂)
    (hstays : h.StaysCancelled → h.cancelled d₁.outside = true → h.cancelled d₂.outside = true) :
    h.Progress (cs₁ ++ cs₂) r r₂ t d₂ := by
  obtain ⟨xs, hxs, hcx, hx⟩ := ha.added
  obtain ⟨ys, hys, hcy, hy⟩ := hb.added
  have hbound : r₂.counted ≤ r.counted + (cs₁ ++ cs₂).length := by
    have h₁ := ha.bound
    have h₂ := hb.bound
    rw [List.length_append]
    omega
  refine ⟨hb.live.trans ha.live, ⟨xs ++ ys, ?_, ?_, fun e he => ?_⟩,
    fun hn => hb.distinct (ha.distinct hn), hbound, ha.skipped.trans hb.skipped,
    ha.failed.trans hb.failed, fun hstay hnever hlive => ?_⟩
  · rw [hys, hxs, List.append_assoc]
  · rw [hcy, hcx, List.length_append]
    omega
  · rcases List.mem_append.mp he with he | he
    · exact ⟨List.mem_append_left cs₂ (hx e he).1, (hx e he).2⟩
    · obtain ⟨hmem, hnew⟩ := hy e he
      exact ⟨List.mem_append_right cs₁ hmem, fun hold =>
        hnew (hxs ▸ Table.mem_containers_left t xs e.container hold)⟩
  · -- what is open at the end was open in between, so neither part left anybody out
    obtain ⟨hca, hra⟩ := ha.full hstay hnever (open_before (hstays hstay) hlive)
    obtain ⟨hcb, hrb⟩ := hb.full hstay hnever hlive
    refine ⟨by rw [hcb, hca, List.length_append]; omega, fun hskip hfail c hc => ?_⟩
    have hs₁ := ha.skipped
    have hs₂ := hb.skipped
    have hf₁ := ha.failed
    have hf₂ := hb.failed
    rcases List.mem_append.mp hc with hc | hc
    · rw [hys]
      exact Table.mem_containers_left _ ys c (hra (by omega) (by omega) c hc)
    · exact hrb (by omega) (by omega) c hc

end Progress

/-! ### Visits -/

/-- What a visit that answers comes to: its container is counted, or the pass ends and nobody is. -/
inductive Advance (h : Host σ) (c : String) (r : Report) (t : Table) : Verdict → Daemon σ → Prop
  | counted (r' : Report) (d' : Daemon σ) (hp : h.Progress [c] r r' t d') :
    Advance h c r t (r', true) d'
  | ended (d' : Daemon σ) (hp : ∀ cs, h.Progress cs r r t d') : Advance h c r t (r, false) d'

theorem Advance.ofFailed (ht : d'.core.store.table = t) :
    h.Advance c r t ({ r with failed := r.failed + 1 }, true) d' := by
  refine .counted _ d' (.unchanged ht rfl rfl ?_ (Nat.le_refl _) (Nat.le_succ _) fun _ hf => ?_)
  · simp only [Report.counted]
    omega
  · exact absurd hf (Nat.succ_ne_self _)

theorem restore_advance (e : Entry) (he : d.core.store.table.get? c = some e) {v : Verdict}
    (hrun : Act.run (h.restore e dir r) d = (.ok v, d')) :
    h.Advance c r d.core.store.table v d' := by
  have hrestored : ∀ {d₁ : Daemon σ}, d₁.core.store.table = d.core.store.table →
      h.Advance c r d.core.store.table ({ r with restored := r.restored + 1 }, true) d₁ := by
    intro d₁ ht
    refine .counted _ d₁ (.unchanged ht rfl rfl ?_ (Nat.le_refl _) (Nat.le_refl _) fun _ _ => ?_)
    · simp only [Report.counted]
      omega
    · rw [Table.mem_containers, he]
      nofun
  rw [restore, run_bind, run_attempt, run_markUsed] at hrun
  rcases hp : d.core.pool.markUsed e.projectId with f | p
  · rw [hp] at hrun
    cases hrun
    exact .ofFailed rfl
  · rw [hp] at hrun
    cases hl : isLayerOf e dir with
    | true =>
      simp only [hl] at hrun
      cases hrun
      exact hrestored rfl
    | false =>
      simp only [hl] at hrun
      cases hrun
      exact hrestored rfl

theorem supply_advance (he : d.core.store.table.get? c = none) {v : Verdict}
    (hrun : Act.run (h.supply c dir r) d = (.ok v, d')) :
    h.Advance c r d.core.store.table v d' := by
  have ho := h.create_outcome c dir d
  rw [supply, run_bind, run_attempt] at hrun
  generalize Act.run (h.create c dir) d = a at ho hrun
  obtain ⟨res, d₁⟩ := a
  simp only at ho hrun
  split at hrun
  · cases hrun
    obtain ⟨rfl, ht⟩ := ho.table_of_ok he
    exact .counted _ _ (.created he ht)
  · cases hrun
    have ht := congrArg Store.table (ho.store_of_own rfl)
    exact .ended _ fun cs => .idle cs r ht (.inr fun _ hnever => hnever.created ho)
  · rename_i f hf
    cases hown : f.isOwn with
    | true =>
      simp only [hown] at hrun
      cases hrun
      exact .ofFailed (congrArg Store.table (ho.store_of_own hown))
    | false =>
      simp only [hown] at hrun
      cases hrun

theorem settle_advance {v : Verdict} (hrun : Act.run (h.settle c dir r) d = (.ok v, d')) :
    h.Advance c r d.core.store.table v d' := by
  rw [settle, run_bind, run_call] at hrun
  rcases hp : h.isPresent dir d.outside with ⟨f | present, w⟩
  · rw [hp] at hrun
    cases hrun
  · rw [hp] at hrun
    cases present with
    | false =>
      cases hrun
      refine .counted _ _ (.unchanged rfl rfl rfl ?_ (Nat.le_succ _) (Nat.le_refl _) fun hs => ?_)
      · simp only [Report.counted]
        omega
      · exact absurd hs (Nat.succ_ne_self _)
    | true =>
      simp only [if_true] at hrun
      rw [run_bind, run_entry?] at hrun
      cases he : d.core.store.table.get? c with
      | some e =>
        simp only [he] at hrun
        exact restore_advance (d := ⟨d.core, w⟩) e he hrun
      | none =>
        simp only [he] at hrun
        exact supply_advance (d := ⟨d.core, w⟩) he hrun

theorem visit_advance {v : Verdict} (hrun : Act.run (h.visit c r) d = (.ok v, d')) :
    h.Advance c r d.core.store.table v d' := by
  rw [visit, run_bind, run_isCancelled] at hrun
  cases hc : h.cancelled d.outside with
  | true =>
    simp only [hc, if_true] at hrun
    cases hrun
    refine .ended _ fun cs => .idle cs r rfl (.inr fun hstay _ => ?_)
    exact hstay.log _ _ (announced?_of_level _ (by decide)) hc
  | false =>
    simp only [hc, Bool.false_eq_true, if_false] at hrun
    rw [run_bind, run_attempt, run_call] at hrun
    rcases hres : h.resolve c d.outside with ⟨f | dir, w⟩
    · rw [hres] at hrun
      cases f with
      | lookup m =>
        cases hrun
        exact .ofFailed rfl
      | _ => cases hrun
    · rw [hres] at hrun
      exact settle_advance (d := ⟨d.core, w⟩) hrun

theorem visitAll_progress (live : List String)
    (hrun : Act.run (h.visitAll live r) d = (.ok r', d')) :
    h.Progress live r r' d.core.store.table d' := by
  induction live generalizing r d with
  | nil =>
    cases hrun
    exact .idle [] _ rfl (.inl rfl)
  | cons c live ih =>
    rw [visitAll, run_bind] at hrun
    rcases hv : Act.run (h.visit c r) d with ⟨f | v, d₁⟩
    · rw [hv] at hrun
      cases hrun
    · rw [hv] at hrun
      cases visit_advance hv with
      | ended _ hp =>
        cases hrun
        exact hp (c :: live)
      | counted r₁ _ hp =>
        -- the rest of the pass keeps the scope cancelled, should this visit have met that
        simp only at hrun
        refine hp.trans (ih hrun) fun hstay hc => ?_
        have hkept := (Upholds.visitAll hstay live r₁ d₁ hc).2
        rw [hrun] at hkept
        exact hkept

/-! ### The stale containers -/

theorem mem_staleOf (t : Table) (live : List String) (c : String) :
    c ∈ staleOf t live ↔ c ∈ t.containers ∧ c ∉ live := by
  rw [staleOf, List.mem_mergeSort, List.mem_filter]
  simp only [Table.containers, Bool.not_eq_true', List.contains_eq_mem, decide_eq_false_iff_not]

theorem staleOf_ascending (t : Table) (hn : t.containers.Nodup) (live : List String) :
    (staleOf t live).Pairwise (· < ·) := by
  have hnodup : (staleOf t live).Nodup :=
    (List.mergeSort_perm _ _).nodup_iff.mpr (hn.filter _)
  have hsorted : (staleOf t live).Pairwise fun a b => decide (a ≤ b) = true := by
    refine List.pairwise_mergeSort (fun a b c hab hbc => ?_) (fun a b => ?_) _
    · simp only [decide_eq_true_eq] at hab hbc ⊢
      exact hab.trans hbc
    · simp only [Bool.or_eq_true, decide_eq_true_eq]
      exact le_total a b
  exact (hsorted.and hnodup).imp fun ⟨hle, hne⟩ => lt_of_le_of_ne (of_decide_eq_true hle) hne

/-! ### Reports -/

theorem conclude_report (live : List String) (r : Report) (d : Daemon σ) :
    ∃ d', Act.run (h.conclude live r) d =
        (.ok { r with stale := staleOf d.core.store.table live }, d') ∧
      d'.core.store = d.core.store ∧
      (h.StaysCancelled → h.cancelled d.outside = true → h.cancelled d'.outside = true) := by
  have hnote : ∀ l m w, l ≠ .debug → h.StaysCancelled → h.cancelled w = true →
      h.cancelled (h.log ⟨l, m⟩ w) = true :=
    fun l m w hl hstay => hstay.log _ w (announced?_of_level _ hl)
  rw [conclude, run_bind, run_core]
  simp only
  split
  · exact ⟨_, rfl, rfl, fun hstay hc => hnote .info _ _ (by decide) hstay hc⟩
  · refine ⟨_, rfl, rfl, fun hstay hc => ?_⟩
    exact hnote .info _ _ (by decide) hstay (hnote .warning _ _ (by decide) hstay hc)

/-- The parts of a reconciliation that answers. -/
theorem reconcile_parts (report : Report) (hrun : Act.run h.reconcile d = (.ok report, d')) :
    ∃ d₀ live w r d₁, Act.run (h.reserveAll d.core.store.table) d = (.ok (), d₀) ∧
      h.Reserving d.core.store.table d d₀ ∧ h.list d₀.outside = (.ok live, w) ∧
      Act.run (h.visitAll live (Report.opening live.length)) ⟨d₀.core, w⟩ = (.ok r, d₁) ∧
      Act.run (h.conclude live r) d₁ = (.ok report, d') := by
  obtain ⟨d₀, hreserve, hr⟩ := h.reserveAll_outcome d.core.store.table d
  rw [reconcile, run_bind_ok _ _ d d _ (run_core d), run_bind_ok _ _ d d₀ _ hreserve, run_bind,
    run_call] at hrun
  rcases hlist : h.list d₀.outside with ⟨f | live, w⟩
  · rw [hlist] at hrun
    cases hrun
  · rw [hlist] at hrun
    simp only at hrun
    rw [run_bind] at hrun
    rcases hpass : Act.run (h.visitAll live (Report.opening live.length)) ⟨d₀.core, w⟩ with
      ⟨f | r, d₁⟩
    · rw [hpass] at hrun
      cases hrun
    · rw [hpass] at hrun
      exact ⟨d₀, live, w, r, d₁, hreserve, hr, hlist, hpass, hrun⟩

/-- What a reconciliation that answers comes to: the pass over the running containers, from what the
recorded IDs were reserved for, and its end. -/
theorem reconcile_passes (report : Report) (hrun : Act.run h.reconcile d = (.ok report, d')) :
    ∃ live w r d₁, h.list (Act.run (h.reserveAll d.core.store.table) d).2.outside = (.ok live, w) ∧
      h.Progress live (Report.opening live.length) r d.core.store.table d₁ ∧
      report = { r with stale := staleOf d₁.core.store.table live } ∧
      d'.core.store = d₁.core.store ∧
      (h.StaysCancelled → h.cancelled d'.outside = false → h.cancelled d₁.outside = false) := by
  obtain ⟨d₀, live, w, r, d₁, hreserve, hr, hlist, hpass, hend⟩ := reconcile_parts report hrun
  obtain ⟨d₂, hconclude, hstore, hstays⟩ := h.conclude_report live r d₁
  cases hconclude.symm.trans hend
  have hp := visitAll_progress live hpass
  rw [hr.store] at hp
  rw [hreserve]
  exact ⟨live, w, r, d₁, hlist, hp, rfl, hstore, fun hstay => open_before (hstays hstay)⟩

/-- A report that accounts for a pass over some running containers: the record was only added to, as
many entries as it says, each of a container that runs and had none, its counts add up, and its
stale containers are the recorded ones that do not run. -/
structure Reconciled (h : Host σ) (d d' : Daemon σ) (live : List String) (report : Report) :
    Prop where
  listed : report.live = live.length
  added : ∃ added : Table, d'.core.store.table = d.core.store.table ++ added ∧
    added.length = report.created ∧
    ∀ e ∈ added, e.container ∈ live ∧ e.container ∉ d.core.store.table.containers
  distinct : d'.core.store.table.containers.Nodup
  bound : report.restored + report.created + report.skipped + report.failed ≤ report.live
  ascending : report.stale.Pairwise (· < ·)
  stale : ∀ c, c ∈ report.stale ↔ c ∈ d'.core.store.table.containers ∧ c ∉ live
  full : h.StaysCancelled → h.NeverAbandons → h.cancelled d'.outside = false →
    report.restored + report.created + report.skipped + report.failed = report.live ∧
      (report.skipped = 0 → report.failed = 0 →
        ∀ c ∈ live, c ∈ d'.core.store.table.containers)

/-- Every reconciliation that answers accounts for what it did, whatever containers are listed, how
often they are, and whatever fails for them. Where the scope is not cancelled at the end, each was
counted. -/
theorem reconcile_accounts (h : Host σ) (d d' : Daemon σ) (report : Report)
    (hn : d.core.store.table.containers.Nodup)
    (hrun : Act.run h.reconcile d = (.ok report, d')) :
    ∃ live w, h.list (Act.run (h.reserveAll d.core.store.table) d).2.outside = (.ok live, w) ∧
      h.Reconciled d d' live report := by
  obtain ⟨live, w, r, d₁, hlist, hp, rfl, hstore, hopen⟩ := reconcile_passes report hrun
  obtain ⟨added, htable, hcreated, hadded⟩ := hp.added
  have hdistinct := hp.distinct hn
  have hlive : r.live = live.length := hp.live
  have hopening : (Report.opening live.length).counted = 0 := rfl
  refine ⟨live, w, hlist, hlive, ⟨added, ?_, ?_, hadded⟩, ?_, ?_, ?_, fun c => ?_,
    fun hstay hnever hnot => ?_⟩
  · rw [hstore, htable]
  · rw [hcreated]
    exact (Nat.zero_add _).symm
  · rw [hstore]
    exact hdistinct
  · have hbound := hp.bound
    rw [hopening, Nat.zero_add, ← hlive] at hbound
    exact hbound
  · exact staleOf_ascending _ hdistinct live
  · rw [hstore]
    exact mem_staleOf _ live c
  · obtain ⟨hall, hrecorded⟩ := hp.full hstay hnever (hopen hstay hnot)
    rw [hopening, Nat.zero_add, ← hlive] at hall
    rw [hstore]
    exact ⟨hall, hrecorded⟩

/-- A host with a container that it lists twice. -/
def repeating : Host Bool :=
  { smooth with
    cancelled := id
    list := fun w => (.ok ["b", "b"], w) }

theorem repeating_staysCancelled : repeating.StaysCancelled :=
  ⟨⟨fun _ _ _ hc => hc, fun _ _ _ hc => hc, fun _ _ _ _ hc => hc, fun _ _ _ _ _ hc => hc⟩,
    fun _ hc => hc, fun _ _ hc => hc, fun _ _ hc => hc, fun _ _ hc => hc, fun _ _ hc => hc⟩

theorem repeating_neverAbandons : repeating.NeverAbandons := by
  constructor
  all_goals
    intros
    rintro ⟨⟩

theorem repeating_reconcile_accounts :
    let core := Core.opening ⟨"10g", "12g", .ofInt 5, none⟩ ⟨1, 9, []⟩ ⟨"", [⟨"a", 1, "/a"⟩]⟩
    let report : Report := ⟨2, 1, 1, 0, 0, ["a"]⟩
    ∃ d', Act.run repeating.reconcile ⟨core, false⟩ = (.ok report, d') ∧
      repeating.StaysCancelled ∧ repeating.NeverAbandons ∧
      repeating.cancelled d'.outside = false ∧
      ∃ live w, repeating.list (Act.run (repeating.reserveAll core.store.table)
          ⟨core, false⟩).2.outside = (.ok live, w) ∧
        repeating.Reconciled ⟨core, false⟩ d' live report := by
  intro core report
  let reserved : Core := { core with pool := ⟨1, 9, [1]⟩ }
  let passed : Core := { core with
    pool := ⟨1, 9, [2, 1]⟩
    store := ⟨"", [⟨"a", 1, "/a"⟩, ⟨"b", 2, "b"⟩]⟩ }
  have hreserve : Act.run (repeating.reserveAll core.store.table) ⟨core, false⟩ =
      (.ok (), ⟨reserved, false⟩) := rfl
  have hpass : Act.run (repeating.visitAll ["b", "b"] (Report.opening 2)) ⟨reserved, false⟩ =
      (.ok ⟨2, 1, 1, 0, 0, []⟩, ⟨passed, false⟩) := rfl
  have hstale : staleOf passed.store.table ["b", "b"] = ["a"] := List.mergeSort_singleton _
  have hconclude : Act.run (repeating.conclude ["b", "b"] ⟨2, 1, 1, 0, 0, []⟩) ⟨passed, false⟩ =
      (.ok report, ⟨{ passed with lastReport := some report }, false⟩) := by
    rw [conclude, run_bind, run_core]
    simp only
    rw [hstale]
    rfl
  have hrun : Act.run repeating.reconcile ⟨core, false⟩ =
      (.ok report, ⟨{ passed with lastReport := some report }, false⟩) := by
    rw [reconcile, run_bind_ok _ _ _ _ _ (run_core _), run_bind_ok _ _ _ _ _ hreserve,
      run_bind_ok _ _ _ _ _ (run_call _ _)]
    exact (run_bind_ok _ _ _ _ _ hpass).trans hconclude
  exact ⟨_, hrun, repeating_staysCancelled, repeating_neverAbandons, rfl,
    reconcile_accounts repeating _ _ report (by decide) hrun⟩

end Host
end LayerQuota
