import LayerQuota.Proofs.Daemon.Frame
/-!
# Every event is handled once

A connection reconciles before it takes up events, and what its stream delivers is handled in the
order of delivery. Each event counts once, as handled or as failed, but for those that are dropped
because the scope is cancelled.
-/

namespace LayerQuota

def Core.tally (c : Core) : Nat := c.handled + c.failed

theorem Core.SameLoop.tally {c c' : Core} (hs : Core.SameLoop c c') : c'.tally = c.tally := by
  rw [Core.tally, Core.tally, hs.handled, hs.failed]

namespace Host

open LayerQuota.Act

variable {σ : Type} {h : Host σ} {w : Waits σ}

/-! ### Dropped events -/

variable (h) in
/-- Is an event dropped, because its handling was abandoned? -/
def isDropped (x : Delivery σ) : Bool :=
  match (Act.run (h.applyEvent x.event) x.daemon).1 with
  | .error .cancelled => true
  | _ => false

variable (h) in
/-- No call on the runtime or on a quota answers that it was abandoned. -/
structure NeverAbandons : Prop where
  tag : ∀ dir id v v', h.tag dir id v ≠ (.error .cancelled, v')
  setLimit : ∀ id soft hard v v', h.setLimit id soft hard v ≠ (.error .cancelled, v')
  readTag : ∀ dir v v', h.readTag dir v ≠ (.error .cancelled, v')
  isPresent : ∀ dir v v', h.isPresent dir v ≠ (.error .cancelled, v')
  resolve : ∀ c v v', h.resolve c v ≠ (.error .cancelled, v')

theorem isDropped_iff (x : Delivery σ) :
    h.isDropped x = true ↔ (Act.run (h.applyEvent x.event) x.daemon).1 = .error .cancelled := by
  unfold isDropped
  split
  · rename_i heq
    simp only [heq]
  · rename_i hne
    simp only [Bool.false_eq_true, false_iff]
    exact hne

namespace NeverAbandons

variable (ha : h.NeverAbandons)

include ha

theorem enforcing {s : Settings} {dir : Layer} {id : Int} {v v' : σ}
    (hn : h.Enforcing s dir id v (.error .cancelled) v') : h.cancelled v' = true := by
  cases hn with
  | overtaken hc => exact hc
  | untagged f v' ht => exact absurd ht (ha.tag dir id v v')
  | halted v' ht hc => exact hc
  | limited v₁ v' r ht hl => exact absurd hl (ha.setLimit id _ _ v₁ v')

theorem created {c : String} {dir : Layer} {d d' : Daemon σ}
    (ho : h.CreateOutcome c dir d (.error .cancelled) d') : h.cancelled d'.outside = true := by
  rcases ho.enforcing nofun nofun nofun nofun with ⟨-, hc⟩ | ⟨id, hn⟩
  · exact hc
  · exact ha.enforcing hn

omit ha in
theorem not_forgetting {c : String} {id : Int} {core : Core} {v : σ} {d' : Daemon σ} :
    ¬h.Forgetting c id core v (.error .cancelled) d' := by
  intro hf
  cases hf with
  | failed f s v' hs =>
    obtain heq | ⟨fault, heq⟩ :=
      Store.save_fails _ _ _ _ _ _ (Store.remove_eq_error _ _ _ _ _ _ _ hs)
    · cases heq
    · cases heq

theorem deleted {c : String} {d d' : Daemon σ}
    (ho : h.DeleteOutcome c d (.error .cancelled) d') : h.cancelled d'.outside = true := by
  cases ho with
  | overtaken hc => exact hc
  | unresolved f v' hr => exact absurd hr (ha.resolve c _ v')
  | unseen dir f v₁ v' hr hp => exact absurd hp (ha.isPresent dir v₁ v')
  | unchosen dir r v₁ v₂ v' hr hp hc hn =>
    cases hc with
    | unread f v' ht => exact absurd ht (ha.readTag dir v₂ v')
  | unclear dir id f v₁ v₂ v₃ v' hr hp hc hl hf => exact absurd hl (ha.setLimit id _ _ v₃ v')
  | cleared dir id rl v₁ v₂ v₃ v₄ v₅ r d' hr hp hc hl hq hf => exact absurd hf not_forgetting
  | gone dir e v₁ v₂ r d' hr hp he hf => exact absurd hf not_forgetting

/-- Handling an event is abandoned only where the scope is cancelled. -/
theorem applied (e : Event) (d : Daemon σ)
    (hr : (Act.run (h.applyEvent e) d).1 = .error .cancelled) :
    h.cancelled (Act.run (h.applyEvent e) d).2.outside = true := by
  have hdrop : ∀ {α : Type} (x : Act σ α), (Act.run (do let _ ← x; return ()) d).1 =
      .error .cancelled → (Act.run x d).1 = .error .cancelled := by
    intro α x hx
    rw [run_bind_drop_fst] at hx
    generalize (Act.run x d).1 = r at hx ⊢
    rcases r with f | a
    · cases hx
      rfl
    · cases hx
  cases hk : e.kind with
  | delete =>
    rw [h.applyEvent_delete e hk]
    unfold applyEvent at hr
    rw [hk] at hr
    have ho := h.handleDelete_outcome e.container d
    rw [hdrop _ hr] at ho
    exact ha.deleted ho
  | create =>
    rw [h.applyEvent_create e hk]
    unfold applyEvent at hr
    rw [hk] at hr
    have hr := hdrop _ hr
    unfold handleCreate at hr ⊢
    cases hdir : Mount.upperdir? e.rootfs with
    | some path =>
      rw [hdir] at hr
      have ho := h.create_outcome e.container (Layer.ofPath path) d
      rw [hr] at ho
      exact ha.created ho
    | none =>
      rw [hdir] at hr
      simp only at hr ⊢
      rw [run_bind, run_call] at hr ⊢
      rcases hres : h.resolve e.container d.outside with ⟨f | dir, v⟩
      · rw [hres] at hr
        cases hr
        exact absurd hres (ha.resolve e.container d.outside v)
      · rw [hres] at hr
        have ho := h.create_outcome e.container dir ⟨d.core, v⟩
        simp only at hr
        rw [hr] at ho
        exact ha.created ho

end NeverAbandons

/-! ### Counting -/

/-- An upholding of nothing, which says what acts do to the core alone. -/
theorem upholds_nothing : h.Upholds fun _ => True where
  log _ _ _ _ := trivial
  save _ _ _ _ := trivial
  tag _ _ _ _ _ := trivial
  setLimit _ _ _ _ _ _ := trivial
  list _ _ := trivial
  resolve _ _ _ := trivial
  isPresent _ _ _ := trivial
  readTag _ _ _ := trivial
  clear _ _ _ := trivial

theorem entered_tally (p : Phase) (d : Daemon σ) : (h.entered p d).core.tally = d.core.tally := by
  unfold entered
  split
  · rfl
  · rfl

theorem bereft_tally (d : Daemon σ) : (h.bereft d).core.tally = d.core.tally :=
  entered_tally .disconnected ⟨{ d.core with failures := d.core.failures + 1 }, d.outside⟩

theorem attending_tally (d : Daemon σ) : (h.attending d).core.tally = d.core.tally :=
  entered_tally .listening d

theorem concluded_tally (d : Daemon σ) : (h.concluded d).core.tally = d.core.tally :=
  entered_tally .stopped ⟨d.core, h.disconnect d.outside⟩

theorem reconcile_tally (d : Daemon σ) : (Act.run h.reconcile d).2.core.tally = d.core.tally :=
  (upholds_nothing.reconcile d trivial).1.tally

/-- An event counts, unless it is dropped. -/
theorem handled_tally (x : Delivery σ) :
    (h.handled x).core.tally + (if h.isDropped x then 1 else 0) = x.daemon.core.tally + 1 := by
  have happly := (upholds_nothing (h := h).applyEvent x.event x.daemon trivial).1.tally
  obtain ⟨d', hrun, ho⟩ := h.handleEvent_outcome x.event x.daemon
  rw [handled, serve, hrun]
  cases hr : (Act.run (h.applyEvent x.event) x.daemon).1 with
  | ok u =>
    have hkeep : h.isDropped x = false := by simp only [isDropped, hr]
    rw [hr] at ho
    cases ho with
    | applied =>
      simp only [hkeep, Core.tally, Bool.false_eq_true, if_false] at happly ⊢
      omega
  | error f =>
    rw [hr] at ho
    cases ho with
    | dropped m =>
      rw [if_pos ((isDropped_iff x).mpr hr)]
      exact congrArg (· + 1) happly
    | failed f m hf =>
      have hkeep : h.isDropped x = false := by
        rw [Bool.eq_false_iff, ne_eq, isDropped_iff, hr]
        exact fun heq => hf (Except.error.inj heq)
      simp only [hkeep, Core.tally, Bool.false_eq_true, if_false] at happly ⊢
      omega

/-- What was delivered counts, but for what was dropped. -/
def Counted (h : Host σ) (d d' : Daemon σ) (xs : List (Delivery σ)) : Prop :=
  d'.core.tally + xs.countP h.isDropped = d.core.tally + xs.length

theorem Counted.none {d d' : Daemon σ} (ht : d'.core.tally = d.core.tally) : Counted h d d' [] := ht

theorem Counted.trans {d d₁ d' : Daemon σ} {xs ys : List (Delivery σ)} (ha : Counted h d d₁ xs)
    (hb : Counted h d₁ d' ys) : Counted h d d' (xs ++ ys) := by
  unfold Counted at ha hb ⊢
  rw [List.countP_append, List.length_append]
  omega

theorem Counted.one (x : Delivery σ) {d : Daemon σ} (hd : x.daemon.core = d.core) :
    Counted h d (h.handled x) [x] := by
  have hx := handled_tally (h := h) x
  rw [hd] at hx
  rw [Counted, List.countP_singleton]
  exact hx

section Counting

variable (hw : w.Apart)

include hw

theorem Receiving.counted {stream position : Nat} {d d' : Daemon σ} {xs : List (Delivery σ)}
    {r : Except Failure Unit} (hx : h.Receiving w stream position d xs r d') :
    Counted h d d' xs := by
  induction hx with
  | unfinished position d => exact .none rfl
  | broken position d d' f hn => exact .none (congrArg Core.tally (hw.next_core hn))
  | ended position d d' hn hc => exact .none (congrArg Core.tally (hw.next_core hn))
  | closed position d d' hn hc => exact .none (congrArg Core.tally (hw.next_core hn))
  | last position behind d x hn hc => exact .one x (hw.next_core hn)
  | delivered position behind d d' x xs r hn hc hrest ih =>
    exact (Counted.one x (hw.next_core hn)).trans ih

theorem Connecting.counted {d d' : Daemon σ} {xs : List (Delivery σ)} {r : Except Failure Unit}
    (hn : h.Connecting w d xs r d') : Counted h d d' xs := by
  have hreconciled : ∀ {d r d'}, Act.run h.reconcile (h.entered .reconciling d) = (r, d') →
      d'.core.tally = d.core.tally := by
    intro d r d' hr
    have ht := reconcile_tally (h := h) (h.entered .reconciling d)
    rw [hr] at ht
    exact ht.trans (entered_tally .reconciling d)
  cases hn with
  | unopened f v ho => exact .none (entered_tally .connecting d)
  | opened stream token v v' xs r d' ho ht hl =>
    have hlisten : Counted h ⟨(h.entered .connecting d).core, v'⟩ d' xs := by
      cases hl with
      | unreconciled f d' hr => exact .none (hreconciled hr)
      | overtaken report d' hr hc => exact .none (hreconciled hr)
      | listened report d₁ d' xs r hr hc hx =>
        have hstart : Counted h ⟨(h.entered .connecting d).core, v'⟩ (h.attending d₁) [] :=
          .none ((attending_tally d₁).trans (hreconciled hr))
        exact hstart.trans (hx.counted hw)
    have hopen : Counted h d ⟨(h.entered .connecting d).core, v'⟩ [] :=
      .none (entered_tally .connecting d)
    exact hopen.trans hlisten

theorem Retrying.counted {m : String} {d d' : Daemon σ} {r : Except Failure Bool}
    (hr : h.Retrying w m d r d') : Counted h d d' [] := by
  have hslept : ∀ {a d'}, w.sleep (h.bereft d).core.settings.reconnectDelay (h.awaiting m d) =
      (a, d') → d'.core.tally = d.core.tally := by
    intro a d' hs
    exact (congrArg Core.tally (hw.sleep_core hs)).trans (bereft_tally d)
  cases hr with
  | overtaken hc => exact .none rfl
  | gaveUp n hc hg => exact .none (bereft_tally d)
  | unslept f d' hc hg hs => exact .none (hslept hs)
  | woken d' hc hg hs => exact .none (hslept hs)
  | slept d' hc hg hs =>
    have ht := hslept hs
    exact .none ht

theorem Course.counted {d d' : Daemon σ} {ls : List (Link σ)} {r : Except Failure Unit}
    (hc : h.Course w d ls r d') : Counted h d d' (ls.flatMap (·.delivered)) := by
  induction hc with
  | unfinished d => exact .none rfl
  | overtaken d hc => exact .none rfl
  | again d d₁ d' xs ls r hc hn hrest ih => exact (hn.counted hw).trans ih
  | retried d d₁ d₂ d' m xs ls r hc hn hr hrest ih =>
    have hfirst := (hn.counted hw).trans (hr.counted hw)
    rw [List.append_nil] at hfirst
    exact hfirst.trans ih
  | left d d₁ d' m xs hc hn hr => exact (hn.counted hw).trans (hr.counted hw)
  | gaveUp d d₁ d' m f xs hc hn hr => exact (hn.counted hw).trans (hr.counted hw)
  | failed d d' f xs hc hn hf =>
    rw [List.flatMap_singleton]
    exact hn.counted hw

end Counting

/-! ### Reconciliation first -/

/-- A connection that events were delivered to had reconciled, and took up its stream from the
beginning. -/
def Served (h : Host σ) (w : Waits σ) (l : Link σ) : Prop :=
  l.delivered ≠ [] → ∃ stream report d₁ d₂ d₃, Act.run h.reconcile d₁ = (.ok report, d₂) ∧
    h.Receiving w stream 0 (h.attending d₂) l.delivered l.result d₃

theorem Connecting.served {d d' : Daemon σ} {xs : List (Delivery σ)} {r : Except Failure Unit}
    (hn : h.Connecting w d xs r d') : Served h w ⟨xs, r⟩ := by
  intro hne
  cases hn with
  | unopened f v ho => exact absurd rfl hne
  | opened stream token v v' xs r d' ho ht hl =>
    cases hl with
    | unreconciled f d' hr => exact absurd rfl hne
    | overtaken report d' hr hc => exact absurd rfl hne
    | listened report d₁ d' xs r hr hc hx => exact ⟨stream, report, _, d₁, d', hr, hx⟩

theorem Course.served {d d' : Daemon σ} {ls : List (Link σ)} {r : Except Failure Unit}
    (hc : h.Course w d ls r d') : ∀ l ∈ ls, Served h w l := by
  induction hc with
  | unfinished d => exact fun _ hm => absurd hm List.not_mem_nil
  | overtaken d hc => exact fun _ hm => absurd hm List.not_mem_nil
  | again d d₁ d' xs ls r hc hn hrest ih => exact List.forall_mem_cons.mpr ⟨hn.served, ih⟩
  | retried d d₁ d₂ d' m xs ls r hc hn hr hrest ih => exact List.forall_mem_cons.mpr ⟨hn.served, ih⟩
  | left d d₁ d' m xs hc hn hr => exact List.forall_mem_singleton.mpr hn.served
  | gaveUp d d₁ d' m f xs hc hn hr => exact List.forall_mem_singleton.mpr hn.served
  | failed d d' f xs hc hn hf => exact List.forall_mem_singleton.mpr hn.served

/-! ### Runs -/

/-- In every run, each connection reconciles before its first event, the events that its stream
delivers are handled one after the other, whatever became of the one before, and each of them counts
once, but for those that are dropped for a cancelled scope. A run stops short of what is delivered
only where it has handled or made as much as it was given rounds for. -/
theorem run_handles_delivered (h : Host σ) (w : Waits σ) (hw : w.Apart) (core : Core) (v : σ)
    (fuel : Nat) :
    ∃ ls r d', h.Course w ⟨{ core with failures := 0 }, v⟩ ls r d' ∧
      Act.run (h.run w fuel) ⟨core, v⟩ = (r, h.concluded d') ∧
      (r = .error .unfinished → BrokenOff h w fuel fuel ls) ∧
      (∀ l ∈ ls, Served h w l) ∧
      (∀ e d, (Act.run (h.handleEvent e) d).1 = .ok ()) ∧
      let xs := ls.flatMap (·.delivered)
      let core' := (h.concluded d').core
      core'.handled + core'.failed + xs.countP h.isDropped =
          core.handled + core.failed + xs.length ∧
        (h.NeverAbandons → ∀ x ∈ xs, h.isDropped x = true →
          h.cancelled (Act.run (h.applyEvent x.event) x.daemon).2.outside = true) := by
  obtain ⟨ls, r, d', hc, hrun, hbroken⟩ := h.run_outcome w fuel ⟨core, v⟩
  refine ⟨ls, r, d', hc, hrun, hbroken, hc.served, fun e d => ?_, ?_, fun ha x _ hx => ?_⟩
  · rw [h.run_handleEvent e d]
  · have hcount := hc.counted hw
    rw [Counted, ← concluded_tally (h := h) d'] at hcount
    exact hcount
  · exact ha.applied x.event x.daemon ((isDropped_iff x).mp hx)

/-- A host whose scope is cancelled while it tags. -/
def haltedByTag : Host Bool :=
  { smooth with
    cancelled := id
    tag := fun _ _ _ => (.ok (), true) }

/-- Waits for the events of a list, from which nothing comes after the last one. -/
def feed (es : List Event) : Waits σ where
  next _ position d :=
    match es[position]? with
    | some e => (.ok (some (e, position + 1)), d)
    | none => (.ok none, d)
  sleep _ d := (.ok true, d)

theorem feed_apart (es : List Event) : (feed es : Waits σ).Apart := by
  refine ⟨fun stream position d => ?_, fun seconds d => rfl⟩
  simp only [feed]
  split
  · rfl
  · rfl

theorem haltedByTag_neverAbandons : haltedByTag.NeverAbandons :=
  ⟨nofun, nofun, nofun, nofun, nofun⟩

theorem haltedByTag_run_handles_delivered :
    let start := Core.opening ⟨"10g", "12g", .ofInt 5, none⟩ ⟨1, 2, []⟩ ⟨"", []⟩
    let w := feed [⟨.delete, "b", []⟩, ⟨.create, "c", []⟩, ⟨.delete, "c", []⟩]
    haltedByTag.NeverAbandons ∧
    ∃ ls r d', haltedByTag.Course w ⟨{ start with failures := 0 }, false⟩ ls r d' ∧
      Act.run (haltedByTag.run w 5) ⟨start, false⟩ = (r, haltedByTag.concluded d') ∧
      (r = .error .unfinished → BrokenOff haltedByTag w 5 5 ls) ∧
      (∀ l ∈ ls, Served haltedByTag w l) ∧
      (∀ e d, (Act.run (haltedByTag.handleEvent e) d).1 = .ok ()) ∧
      let xs := ls.flatMap (·.delivered)
      let core' := (haltedByTag.concluded d').core
      core'.handled + core'.failed + xs.countP haltedByTag.isDropped =
          start.handled + start.failed + xs.length ∧
        (haltedByTag.NeverAbandons → ∀ x ∈ xs, haltedByTag.isDropped x = true →
          haltedByTag.cancelled (Act.run (haltedByTag.applyEvent x.event) x.daemon).2.outside =
            true) :=
  ⟨haltedByTag_neverAbandons, run_handles_delivered haltedByTag _ (feed_apart _) _ false 5⟩

end Host

end LayerQuota
