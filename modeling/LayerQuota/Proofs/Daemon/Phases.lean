import LayerQuota.Proofs.Daemon.Delivery
import LayerQuota.Proofs.Daemon.Watched
import Mathlib.Data.List.Chain
/-!
# The phases of a run

A run of a fresh daemon goes from phase to phase along the steps of its connections, and comes to
`stopped` once, at its end. It returns only where the scope is cancelled; a connection that is lost
before that is made again or given up.
-/

namespace LayerQuota

/-- The steps from one phase to the next. -/
inductive Phase.Step : Phase → Phase → Prop
  | connect : Step .disconnected .connecting
  | opened : Step .connecting .reconciling
  | unopened : Step .connecting .disconnected
  | reconciled : Step .reconciling .listening
  | unreconciled : Step .reconciling .disconnected
  | lost : Step .listening .disconnected
  | stop (p : Phase) : Step p .stopped

def HostCall.phase? : HostCall → Option Phase
  | .log l => Host.announced? l
  | _ => none

namespace Host

variable {σ : Type} {h : Host σ} {w : Waits σ}

/-! ### Announced phases -/

/-- The phases that the journal announces, in their order. -/
def phases (ns : List Noted) : List Phase := ns.filterMap fun n => n.call.phase?

theorem phases_append (ns ns' : List Noted) : phases (ns ++ ns') = phases ns ++ phases ns' :=
  List.filterMap_append

theorem phases_of_grown {P : Noted → Prop} (hP : ∀ n, P n → n.call.phase? = none)
    {ns ns' : List Noted} (hg : Grown P ns ns') : phases ns' = phases ns := by
  obtain ⟨new, rfl, hnew⟩ := hg
  have hnone : phases new = [] := List.filterMap_eq_nil_iff.mpr fun n hn => hP n (hnew n hn)
  rw [phases_append, hnone, List.append_nil]

theorem Steady.silent (n : Noted) (hn : Steady n) : n.call.phase? = none := by
  cases hn with
  | log late l hl => exact hl
  | _ => rfl

theorem Linking.silent (late : Bool) (n : Noted) (hn : Linking late n) : n.call.phase? = none := by
  cases hn <;> rfl

/-- A daemon whose phases so far were steps from `disconnected` to the one that it is in, and none of
them `stopped`. -/
structure OnPath (d : Daemon (σ × List Noted)) : Prop where
  chain : List.IsChain Phase.Step (.disconnected :: phases d.outside.2)
  now : ∃ before, .disconnected :: phases d.outside.2 = before ++ [d.core.phase]
  running : .stopped ∉ phases d.outside.2

theorem OnPath.congr {d d' : Daemon (σ × List Noted)} (hd : OnPath d)
    (hp : d'.core.phase = d.core.phase) (hn : phases d'.outside.2 = phases d.outside.2) :
    OnPath d' :=
  ⟨hn ▸ hd.chain, by rw [hn, hp]; exact hd.now, hn ▸ hd.running⟩

theorem OnPath.steady {d d' : Daemon (σ × List Noted)} (hd : OnPath d)
    (hp : d'.core.phase = d.core.phase) (hg : Grown Steady d.outside.2 d'.outside.2) : OnPath d' :=
  hd.congr hp (phases_of_grown Steady.silent hg)

theorem OnPath.log {d : Daemon (σ × List Noted)} (hd : OnPath d) (l : Line)
    (hl : l.level ≠ .debug) : OnPath ⟨d.core, h.watched.log l d.outside⟩ :=
  hd.steady rfl ((Grown.refl _).snoc _ (.log _ l (announced?_of_level l hl)))

theorem OnPath.linking {late : Bool} {d d' : Daemon (σ × List Noted)} (hd : OnPath d)
    (hp : d'.core.phase = d.core.phase) (hg : Grown (Linking late) d.outside.2 d'.outside.2) :
    OnPath d' :=
  hd.congr hp (phases_of_grown (Linking.silent late) hg)

theorem OnPath.ne_stopped {d : Daemon (σ × List Noted)} (hd : OnPath d) :
    d.core.phase ≠ .stopped := by
  intro hstop
  obtain ⟨before, hnow⟩ := hd.now
  have hmem : Phase.stopped ∈ Phase.disconnected :: phases d.outside.2 := by
    rw [hnow, hstop]
    exact List.mem_append_right before (List.mem_singleton.mpr rfl)
  rcases List.mem_cons.mp hmem with heq | hmem
  · cases heq
  · exact hd.running hmem

/-- A step more is a step of the path. -/
theorem OnPath.chain_snoc {d : Daemon (σ × List Noted)} (hd : OnPath d) (p : Phase)
    (hs : Phase.Step d.core.phase p) :
    List.IsChain Phase.Step (.disconnected :: (phases d.outside.2 ++ [p])) := by
  obtain ⟨before, hnow⟩ := hd.now
  have hchain := hd.chain
  rw [hnow] at hchain
  rw [← List.cons_append, hnow, List.append_assoc]
  exact List.isChain_append_cons_cons.mpr ⟨hchain, hs, List.isChain_singleton p⟩

theorem phases_entered (p : Phase) (d : Daemon (σ × List Noted)) (hp : d.core.phase ≠ p) :
    phases (h.watched.entered p d).outside.2 = phases d.outside.2 ++ [p] := by
  have hone : ∀ late, phases [⟨late, .log (phaseLine p)⟩] = [p] := fun late => by
    simp [phases, HostCall.phase?, announced?_phaseLine]
  rw [entered, if_neg hp]
  exact (phases_append _ _).trans (congrArg _ (hone _))

theorem OnPath.enter {d : Daemon (σ × List Noted)} (hd : OnPath d) (p : Phase)
    (hs : d.core.phase ≠ p → Phase.Step d.core.phase p) (hp : p ≠ .stopped) :
    OnPath (h.watched.entered p d) := by
  by_cases hsame : d.core.phase = p
  · rw [entered, if_pos hsame]
    exact hd
  · have hphases := phases_entered (h := h) p d hsame
    refine ⟨?_, ⟨.disconnected :: phases d.outside.2, ?_⟩, ?_⟩
    · rw [hphases]
      exact hd.chain_snoc p (hs hsame)
    · rw [hphases, entered_phase, List.cons_append]
    · rw [hphases]
      intro hmem
      rcases List.mem_append.mp hmem with hmem | hmem
      · exact hd.running hmem
      · exact hp (List.mem_singleton.mp hmem).symm

/-! ### Connections -/

section Connection

variable (hw : w.Apart)

include hw

theorem Receiving.onPath {stream position : Nat} {d d' : Daemon (σ × List Noted)}
    {xs : List (Delivery (σ × List Noted))} {r : Except Failure Unit}
    (hx : h.watched.Receiving (h.watchedWaits w) stream position d xs r d') (hd : OnPath d) :
    OnPath d' ∧ d'.core.phase = d.core.phase := by
  have hnext : ∀ {position d a d'}, (h.watchedWaits w).next stream position d = (a, d') →
      OnPath d → OnPath d' ∧ d'.core.phase = d.core.phase := by
    intro position d a d' hn hd
    have hphase := congrArg Core.phase ((watched_apart hw).next_core hn)
    exact ⟨hd.linking hphase (next_linking true hn), hphase⟩
  induction hx with
  | unfinished position d => exact ⟨hd, rfl⟩
  | broken position d d' f hn => exact hnext hn hd
  | ended position d d' hn hc => exact hnext hn hd
  | closed position d d' hn hc => exact hnext hn hd
  | last position behind d x hn hc =>
    obtain ⟨hx, hphase⟩ := hnext hn hd
    obtain ⟨hsame, hnotes⟩ := h.handled_steady x
    exact ⟨hx.steady hsame hnotes, hsame.trans hphase⟩
  | delivered position behind d d' x xs r hn hc hrest ih =>
    obtain ⟨hx, hphase⟩ := hnext hn hd
    obtain ⟨hsame, hnotes⟩ := h.handled_steady x
    obtain ⟨hd', hphase'⟩ := ih (hx.steady hsame hnotes)
    exact ⟨hd', hphase'.trans (hsame.trans hphase)⟩

theorem Listening.onPath {stream : Nat} {d d' : Daemon (σ × List Noted)}
    {xs : List (Delivery (σ × List Noted))} {r : Except Failure Unit}
    (hl : h.watched.Listening (h.watchedWaits w) stream d xs r d') (hd : OnPath d)
    (hp : d.core.phase = .connecting) :
    OnPath d' ∧ Phase.Step d'.core.phase .disconnected := by
  have henter : OnPath (h.watched.entered .reconciling d) :=
    hd.enter .reconciling (fun _ => by rw [hp]; exact .opened) nofun
  have hreconcile : ∀ {a d'}, Act.run h.watched.reconcile (h.watched.entered .reconciling d) =
      (a, d') → OnPath d' ∧ d'.core.phase = .reconciling := by
    intro a d' hr
    obtain ⟨hphase, hnotes⟩ := h.reconcile_steady (h.watched.entered .reconciling d)
    rw [hr] at hphase hnotes
    exact ⟨henter.steady hphase hnotes, hphase.trans (entered_phase .reconciling d)⟩
  cases hl with
  | unreconciled f d' hr =>
    obtain ⟨hd', hphase⟩ := hreconcile hr
    exact ⟨hd', by rw [hphase]; exact .unreconciled⟩
  | overtaken report d' hr hc =>
    obtain ⟨hd', hphase⟩ := hreconcile hr
    exact ⟨hd', by rw [hphase]; exact .unreconciled⟩
  | listened report d₁ d' xs r hr hc hx =>
    obtain ⟨hd₁, hphase⟩ := hreconcile hr
    have hlisten : OnPath (h.watched.entered .listening d₁) :=
      hd₁.enter .listening (fun _ => by rw [hphase]; exact .reconciled) nofun
    have hinfo := hlisten.log (h := h) ⟨.info, "Listening for container events..."⟩ nofun
    have hattend : OnPath (h.watched.attending d₁) := hinfo.congr rfl rfl
    obtain ⟨hd', hsame⟩ := hx.onPath hw hattend
    have hnow : (h.watched.attending d₁).core.phase = .listening := entered_phase .listening d₁
    exact ⟨hd', by rw [hsame, hnow]; exact .lost⟩

theorem Connecting.onPath {d d' : Daemon (σ × List Noted)}
    {xs : List (Delivery (σ × List Noted))} {r : Except Failure Unit}
    (hn : h.watched.Connecting (h.watchedWaits w) d xs r d') (hd : OnPath d)
    (hp : d.core.phase = .disconnected) :
    OnPath d' ∧ Phase.Step d'.core.phase .disconnected := by
  have henter : OnPath (h.watched.entered .connecting d) :=
    hd.enter .connecting (fun _ => by rw [hp]; exact .connect) nofun
  have hnow : (h.watched.entered .connecting d).core.phase = .connecting :=
    entered_phase .connecting d
  cases hn with
  | unopened f v ho =>
    refine ⟨henter.linking rfl ho.linking, ?_⟩
    rw [hnow]
    exact .unopened
  | opened stream token v v' xs r d' ho ht hl =>
    have hopen : OnPath ⟨(h.watched.entered .connecting d).core, v'⟩ :=
      henter.linking rfl (ho.linking.trans (onCancel_linking _ ht))
    obtain ⟨hd', hstep⟩ := hl.onPath hw hopen hnow
    exact ⟨hd'.linking rfl (hungUp_linking true stream token d'.outside), hstep⟩

theorem Retrying.onPath {m : String} {d d' : Daemon (σ × List Noted)} {r : Except Failure Bool}
    (hr : h.watched.Retrying (h.watchedWaits w) m d r d') (hd : OnPath d)
    (hp : Phase.Step d.core.phase .disconnected) :
    OnPath d' ∧ (r = .ok true → d'.core.phase = .disconnected) := by
  have hcount : OnPath ⟨{ d.core with failures := d.core.failures + 1 }, d.outside⟩ :=
    hd.congr rfl rfl
  have hlose : OnPath (h.watched.bereft d) := hcount.enter .disconnected (fun _ => hp) nofun
  have hnow : (h.watched.bereft d).core.phase = .disconnected := entered_phase .disconnected _
  have hwait : OnPath (h.watched.awaiting m d) :=
    hlose.log _ nofun
  have hslept : ∀ {x a d'}, (h.watchedWaits w).sleep x (h.watched.awaiting m d) = (a, d') →
      OnPath d' ∧ d'.core.phase = .disconnected := by
    intro x a d' hs
    have hphase := congrArg Core.phase ((watched_apart hw).sleep_core hs)
    refine ⟨hwait.congr hphase ?_, hphase.trans hnow⟩
    rw [(watched_sleep hs).2, phases_append]
    exact List.append_nil _
  cases hr with
  | overtaken hc => exact ⟨hd, nofun⟩
  | gaveUp n hc hg => exact ⟨hlose.log _ nofun, nofun⟩
  | unslept f d' hc hg hs => exact ⟨(hslept hs).1, nofun⟩
  | woken d' hc hg hs => exact ⟨(hslept hs).1, nofun⟩
  | slept d' hc hg hs =>
    obtain ⟨hd', hphase⟩ := hslept hs
    exact ⟨hd'.congr rfl rfl, fun _ => hphase⟩

/-- A run stays on the path: at its loop's head it is disconnected, unless the scope is cancelled. -/
theorem Course.onPath (hs : h.watched.Lasting) {d d' : Daemon (σ × List Noted)}
    {ls : List (Link (σ × List Noted))} {r : Except Failure Unit}
    (hc : h.watched.Course (h.watchedWaits w) d ls r d') (hd : OnPath d)
    (hp : h.watched.cancelled d.outside = false → d.core.phase = .disconnected) : OnPath d' := by
  induction hc with
  | unfinished d => exact hd
  | overtaken d hc => exact hd
  | again d d₁ d' xs ls r hc hn hrest ih =>
    -- a connection that comes to a good end leaves a scope that is cancelled
    refine ih (hn.onPath hw hd (hp hc)).1 fun hno => ?_
    rw [hn.cancelled hs] at hno
    cases hno
  | retried d d₁ d₂ d' m xs ls r hc hn hr hrest ih =>
    obtain ⟨hd₁, hstep⟩ := hn.onPath hw hd (hp hc)
    obtain ⟨hd₂, hnow⟩ := hr.onPath hw hd₁ hstep
    exact ih hd₂ fun _ => hnow rfl
  | left d d₁ d' m xs hc hn hr =>
    obtain ⟨hd₁, hstep⟩ := hn.onPath hw hd (hp hc)
    exact (hr.onPath hw hd₁ hstep).1
  | gaveUp d d₁ d' m f xs hc hn hr =>
    obtain ⟨hd₁, hstep⟩ := hn.onPath hw hd (hp hc)
    exact (hr.onPath hw hd₁ hstep).1
  | failed d d' f xs hc hn hf => exact (hn.onPath hw hd (hp hc)).1

end Connection

/-! ### Runs -/

theorem OnPath.concluded {d : Daemon (σ × List Noted)} (hd : OnPath d) :
    phases (h.watched.concluded d).outside.2 = phases d.outside.2 ++ [.stopped] := by
  have hgrown : Grown (Linking true) d.outside.2 (h.watched.disconnect d.outside).2 :=
    (Grown.refl d.outside.2).snoc _ (.disconnect _)
  have hleft : OnPath ⟨d.core, h.watched.disconnect d.outside⟩ := hd.linking rfl hgrown
  have hphases := phases_entered (h := h) .stopped _ hleft.ne_stopped
  rw [phases_of_grown (Linking.silent true) hgrown] at hphases
  rw [← hphases]
  refine phases_of_grown Steady.silent ((Grown.refl _).snoc _ (.log _ _ ?_))
  exact announced?_of_level _ nofun

theorem Course.of_nil {d d' : Daemon σ} {r : Except Failure Unit} (hc : h.Course w d [] r d') :
    r = .ok () ∨ r = .error .unfinished := by
  cases hc with
  | unfinished d => exact .inr rfl
  | overtaken d hc => exact .inl rfl

/-- Where the last connection of a run was lost, the run gives up for that, unless it returns, it is
broken off, or the clock fails. -/
theorem Course.lost {d d' : Daemon σ} {ls : List (Link σ)} {r : Except Failure Unit}
    (hc : h.Course w d ls r d') (l : Link σ) (m : String) (hlast : ls.getLast? = some l)
    (hl : l.result = .error (.stream m)) :
    r = .error (.stream m) ∨ r = .ok () ∨ r = .error .unfinished ∨
      ∃ x d₁ d₂ f, w.sleep x d₁ = (.error f, d₂) ∧ r = .error f := by
  induction hc with
  | unfinished d => cases hlast
  | overtaken d hc => cases hlast
  | again d d₁ d' xs ls r hc hn hrest ih =>
    cases ls with
    | nil =>
      cases hlast
      cases hl
    | cons k ls => exact ih (by rw [← hlast, List.getLast?_cons_cons])
  | retried d d₁ d₂ d' m' xs ls r hc hn hr hrest ih =>
    cases ls with
    | nil => exact .inr (hrest.of_nil.imp_right .inl)
    | cons k ls => exact ih (by rw [← hlast, List.getLast?_cons_cons])
  | left d d₁ d' m' xs hc hn hr => exact .inr (.inl rfl)
  | gaveUp d d₁ d' m' f xs hc hn hr =>
    cases hlast
    cases hl
    cases hr with
    | gaveUp n hc hg => exact .inl rfl
    | unslept f d' hc hg hs => exact .inr (.inr (.inr ⟨_, _, _, f, hs, rfl⟩))
  | failed d d' f xs hc hn hf =>
    cases hlast
    cases hl
    exact absurd rfl (hf m)

/-- In every run of a fresh daemon the phases are steps from `disconnected` on and end with the only
`stopped`; the run returns only where the scope is cancelled, and fails only as the runtime or the
clock does, until its rounds are used up. So a connection that is lost, be it that its stream just
ended, is made again, or the run fails for it. -/
theorem run_phases (h : Host σ) (w : Waits σ) (hg : Documented h w) (hs : h.Lasting)
    (hw : w.Apart)
    (hsleep : ∀ x d d', w.sleep x d = (.ok false, d') → h.cancelled d'.outside = true)
    (settings : Settings) (pool : Pool) (hmin : 0 < pool.least)
    (hmax : pool.greatest ≤ maxProjectId) (store : Store)
    (hn : Store.Nameable h.toDisk store.path) (v : σ) (fuel : Nat) :
    let start : Daemon (σ × List Noted) := ⟨Core.opening settings pool store, v, []⟩
    ∃ ls r d', h.watched.Course (h.watchedWaits w) start ls r d' ∧
      let last := h.watched.concluded d'
      Act.run (h.watched.run (h.watchedWaits w) fuel) start = (r, last) ∧
        List.IsChain Phase.Step (.disconnected :: phases last.outside.2) ∧
        (∃ before, phases last.outside.2 = before ++ [.stopped] ∧ .stopped ∉ before) ∧
        last.core.phase = .stopped ∧
        (r = .ok () → h.cancelled last.outside.1 = true) ∧
        (∀ f, r = .error f → (f = .unfinished ∧ UsedUp fuel fuel ls) ∨ (∃ m, f = .stream m) ∨
          ∃ x d₁ d₂, w.sleep x d₁ = (.error f, d₂)) ∧
        ∀ l m, ls.getLast? = some l → l.result = .error (.stream m) →
          r = .error (.stream m) ∨ h.cancelled last.outside.1 = true ∨
            (r = .error .unfinished ∧ ls.length = fuel) ∨
            ∃ x d₁ d₂ f, w.sleep x d₁ = (.error f, d₂) ∧ r = .error f := by
  intro start
  obtain ⟨ls, r, d', hc, hrun, hbroken⟩ := h.watched.run_outcome (h.watchedWaits w) fuel start
  have hlasting := watched_lasting hs
  have hable : ∀ v', h.watched.Able ⟨start.core, v'⟩ := by
    refine fun v' => watched_able ⟨fun n hin => ?_, hn⟩
    have hin : pool.least ≤ n ∧ n ≤ pool.greatest := (Pool.inRange_iff pool n).mp hin
    exact ⟨by omega, by omega⟩
  have hstart : OnPath start := ⟨List.isChain_singleton _, ⟨[], rfl⟩, List.not_mem_nil⟩
  have hpath : OnPath d' := hc.onPath hw hlasting hstart fun _ => rfl
  have hphases := hpath.concluded (h := h)
  have hreturned : r = .ok () → h.watched.cancelled (h.watched.concluded d').outside = true := by
    intro hr
    refine hlasting.concluded d' (hc.cancelled ?_ hr)
    exact fun x d d' hsl => hsleep x _ _ (watched_sleep hsl).1
  have hclock : ∀ {x d₁ d₂ f}, (h.watchedWaits w).sleep x d₁ = (.error f, d₂) →
      ∃ x d₁ d₂, w.sleep x d₁ = (.error f, d₂) := fun hsl => ⟨_, _, _, (watched_sleep hsl).1⟩
  have hused : r = .error .unfinished →
      UsedUp fuel fuel ls ∨ ∃ x d₁ d₂, w.sleep x d₁ = (.error .unfinished, d₂) := by
    intro hr
    rcases (hbroken hr).usedUp (watched_conclusive hg.conclusive) with hused | ⟨x, d₁, d₂, hsl⟩
    · exact .inl hused
    · exact .inr (hclock hsl)
  refine ⟨ls, r, d', hc, hrun, ?_, ⟨phases d'.outside.2, hphases, hpath.running⟩,
    entered_phase .stopped _, hreturned, fun f hf => ?_, fun l m hlast hl => ?_⟩
  · rw [hphases]
    exact hpath.chain_snoc .stopped (.stop _)
  · rcases (watched_documented hg).course_error (watched_apart hw) hc hable f hf with
      rfl | hm | ⟨x, d₁, d₂, hsl⟩
    · rcases hused hf with hall | hsl
      · exact .inl ⟨rfl, hall⟩
      · exact .inr (.inr hsl)
    · exact .inr (.inl hm)
    · exact .inr (.inr (hclock hsl))
  · rcases hc.lost l m hlast hl with hr | hr | hr | ⟨x, d₁, d₂, f, hsl, hr⟩
    · exact .inl hr
    · exact .inr (.inl (hreturned hr))
    · rcases hused hr with (hall | ⟨k, hk, hbad, -⟩) | ⟨x, d₁, d₂, hsl⟩
      · exact .inr (.inr (.inl ⟨hr, hall⟩))
      · -- the last connection was lost, and not broken off
        cases hlast.symm.trans hk
        cases hl.symm.trans hbad
      · exact .inr (.inr (.inr ⟨x, d₁, d₂, _, hsl, hr⟩))
    · obtain ⟨x, d₁, d₂, hsl⟩ := hclock hsl
      exact .inr (.inr (.inr ⟨x, d₁, d₂, f, hsl, hr⟩))

theorem haltedByTag_documented (es : List Event) : Documented haltedByTag (feed es) where
  tag _ _ _ _ _ ht := by cases ht
  setLimit _ _ _ _ _ _ hl := by cases hl
  resolve c _ _ _ hres := by
    cases hres
    exact ⟨c, rfl⟩
  connect _ _ _ hc := by cases hc
  subscribe _ _ _ hs := by cases hs
  list _ _ _ hl := by cases hl
  lookup _ _ _ _ hres := by cases hres
  isPresent _ _ _ _ hp := by cases hp
  next stream position d f d' hn := by
    simp only [feed] at hn
    split at hn
    · cases hn
    · cases hn

theorem haltedByTag_lasting : haltedByTag.Lasting :=
  ⟨fun _ _ hv => hv, fun _ _ hv => hv, fun _ hv => hv, fun _ _ hv => hv, fun _ _ hv => hv⟩

theorem haltedByTag_nameable (path : String) : Store.Nameable haltedByTag.toDisk path :=
  fun _ _ _ hs => by cases hs

theorem haltedByTag_run_phases :
    let w := feed [⟨.delete, "b", []⟩, ⟨.create, "c", []⟩, ⟨.delete, "c", []⟩]
    let start : Daemon (Bool × List Noted) :=
      ⟨Core.opening ⟨"10g", "12g", .ofInt 5, some 3⟩ ⟨1, 2, []⟩ ⟨"", []⟩, false, []⟩
    ∃ ls r d', haltedByTag.watched.Course (haltedByTag.watchedWaits w) start ls r d' ∧
      let last := haltedByTag.watched.concluded d'
      Act.run (haltedByTag.watched.run (haltedByTag.watchedWaits w) 5) start = (r, last) ∧
        List.IsChain Phase.Step (.disconnected :: phases last.outside.2) ∧
        (∃ before, phases last.outside.2 = before ++ [.stopped] ∧ .stopped ∉ before) ∧
        last.core.phase = .stopped ∧
        (r = .ok () → haltedByTag.cancelled last.outside.1 = true) ∧
        (∀ f, r = .error f → (f = .unfinished ∧ UsedUp 5 5 ls) ∨ (∃ m, f = .stream m) ∨
          ∃ x d₁ d₂, w.sleep x d₁ = (.error f, d₂)) ∧
        ∀ l m, ls.getLast? = some l → l.result = .error (.stream m) →
          r = .error (.stream m) ∨ haltedByTag.cancelled last.outside.1 = true ∨
            (r = .error .unfinished ∧ ls.length = 5) ∨
            ∃ x d₁ d₂ f, w.sleep x d₁ = (.error f, d₂) ∧ r = .error f :=
  run_phases haltedByTag _ (haltedByTag_documented _) haltedByTag_lasting (feed_apart _)
    (fun _ _ _ hs => by cases hs) ⟨"10g", "12g", .ofInt 5, some 3⟩ ⟨1, 2, []⟩ (by decide)
    (by decide) ⟨"", []⟩ (haltedByTag_nameable "") false 5

end Host

end LayerQuota
