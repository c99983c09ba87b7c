import LayerQuota.Proofs.Config.Accepted
import LayerQuota.Proofs.Config.Failing
import LayerQuota.Proofs.Gateway
import LayerQuota.Proofs.Waiting
/-!
# Reconnecting

A run comes back to the head of its loop after every connection that ended or was lost, so what each
of its steps keeps holds at every head. It fails in a connection or in the retry after one that was
lost. With a finite time-out, and a delay that the clock can count, the only failures of connecting
and of waiting are losses of the connection. A time-out without whole seconds ends every run at its
first connection, and a delay that is too long ends it at the first retry.
-/

namespace LayerQuota

open LayerQuota.Json LayerQuota.Number

namespace Host

open LayerQuota.Act

variable {σ : Type} (h : Host σ) (w : Waits σ)

/-! ### The head of the loop -/

/-- The daemons that stand at the head of the loop of a run. -/
inductive Head (d : Daemon σ) : Daemon σ → Prop
  | start : Head d ⟨{ d.core with failures := 0 }, d.outside⟩
  | again (d₁ d₂ : Daemon σ) (xs : List (Delivery σ)) (hd : Head d d₁)
    (hn : h.Connecting w d₁ xs (.ok ()) d₂) : Head d d₂
  | retried (d₁ d₂ d₃ : Daemon σ) (m : String) (xs : List (Delivery σ)) (hd : Head d d₁)
    (hn : h.Connecting w d₁ xs (.error (.stream m)) d₂) (hr : h.Retrying w m d₂ (.ok true) d₃) :
    Head d d₃

/-- Where a run fails: it has no more rounds, or it fails in a connection, or in the retry after one
that was lost. -/
inductive Fails (d : Daemon σ) : Failure → Prop
  | unfinished : Fails d .unfinished
  | connecting (d₁ d₂ : Daemon σ) (xs : List (Delivery σ)) (f : Failure) (hd : h.Head w d d₁)
    (hn : h.Connecting w d₁ xs (.error f) d₂) : Fails d f
  | retrying (d₁ d₂ d₃ : Daemon σ) (m : String) (xs : List (Delivery σ)) (f : Failure)
    (hd : h.Head w d d₁) (hn : h.Connecting w d₁ xs (.error (.stream m)) d₂)
    (hr : h.Retrying w m d₂ (.error f) d₃) : Fails d f

variable {h w}

theorem Course.fails {d d₀ d' : Daemon σ} {ls : List (Link σ)} {r : Except Failure Unit}
    (hc : h.Course w d₀ ls r d') (hd : h.Head w d d₀) (f : Failure) (hf : r = .error f) :
    h.Fails w d f := by
  induction hc with
  | unfinished d₀ =>
    cases hf
    exact .unfinished
  | overtaken d₀ hc => cases hf
  | again d₀ d₁ d' xs ls r hc hn hrest ih => exact ih (.again d₀ d₁ xs hd hn) hf
  | retried d₀ d₁ d₂ d' m xs ls r hc hn hr hrest ih =>
    exact ih (.retried d₀ d₁ d₂ m xs hd hn hr) hf
  | left d₀ d₁ d' m xs hc hn hr => cases hf
  | gaveUp d₀ d₁ d' m g xs hc hn hr =>
    cases hf
    exact .retrying d₀ d₁ d' m xs f hd hn hr
  | failed d₀ d' g xs hc hn hnot =>
    cases hf
    exact .connecting d₀ d' xs f hd hn

theorem run_fails (fuel : Nat) (d : Daemon σ) (f : Failure)
    (hf : (Act.run (h.run w fuel) d).1 = .error f) : h.Fails w d f := by
  obtain ⟨ls, r, d', hc, hrun, -⟩ := h.run_outcome w fuel d
  rw [hrun] at hf
  exact hc.fails .start f hf

/-! ### What holds at the head -/

variable (h w)

/-- What every step of a run keeps of a daemon, its settings being as they were. -/
structure Maintains (P : Daemon σ → Prop) : Prop where
  core : ∀ (d : Daemon σ) (core : Core), core.settings = d.core.settings → P d →
    P ⟨core, d.outside⟩
  line : ∀ l d, P d → P ⟨d.core, h.log l d.outside⟩
  handle : ∀ e d, P d → P (h.serve d (.handle e))
  reconcile : ∀ d, P d → P (h.serve d .reconcile)
  connect : ∀ d, P d → P ⟨d.core, (h.connect d.outside).2⟩
  subscribe : ∀ d, P d → P ⟨d.core, (h.subscribe d.outside).2⟩
  disconnect : ∀ d, P d → P ⟨d.core, h.disconnect d.outside⟩
  closeStream : ∀ n d, P d → P ⟨d.core, h.closeStream n d.outside⟩
  onCancel : ∀ n d, P d → P ⟨d.core, (h.onCancel n d.outside).2⟩
  unregister : ∀ t d, P d → P ⟨d.core, h.unregister t d.outside⟩
  next : ∀ stream position d, P d → P (w.next stream position d).2
  sleep : ∀ seconds d, P d → P (w.sleep seconds d).2

variable {h w} {P : Daemon σ → Prop} (hk : h.Maintains w P)

namespace Maintains

include hk

theorem entered (p : Phase) (d : Daemon σ) (hd : P d) : P (h.entered p d) := by
  unfold Host.entered
  split
  · exact hd
  · exact hk.core ⟨d.core, _⟩ _ rfl (hk.line _ d hd)

theorem attending (d : Daemon σ) (hd : P d) : P (h.attending d) :=
  hk.core ⟨(h.entered .listening d).core, _⟩ _ rfl (hk.line _ _ (hk.entered .listening d hd))

theorem awaiting (m : String) (d : Daemon σ) (hd : P d) : P (h.awaiting m d) :=
  hk.line _ _ (hk.entered .disconnected _ (hk.core d _ rfl hd))

theorem opening {d : Daemon σ} {r : Except Failure Nat} {v : σ} (ho : h.Opening d.outside r v)
    (hd : P d) : P ⟨d.core, v⟩ := by
  have hconnect := hk.connect d hd
  have hhang : ∀ (f : Failure) (v : σ), P ⟨d.core, v⟩ →
      P ⟨d.core, if f.isOwn then h.disconnect v else v⟩ := by
    intro f v hv
    split
    · exact hk.disconnect ⟨d.core, v⟩ hv
    · exact hv
  have hsubscribe : ∀ {a v₁ v₂}, h.subscribe v₁ = (a, v₂) → P ⟨d.core, v₁⟩ → P ⟨d.core, v₂⟩ := by
    intro a v₁ v₂ hs hv
    have hkept := hk.subscribe ⟨d.core, v₁⟩ hv
    rw [hs] at hkept
    exact hkept
  cases ho with
  | opened stream v₁ v₂ hc hs =>
    rw [hc] at hconnect
    exact hsubscribe hs hconnect
  | unconnected f v₁ hc =>
    rw [hc] at hconnect
    exact hhang f v₁ hconnect
  | unsubscribed f v₁ v₂ hc hs =>
    rw [hc] at hconnect
    exact hhang f v₂ (hsubscribe hs hconnect)

theorem receiving {stream position : Nat} {d d' : Daemon σ} {xs : List (Delivery σ)}
    {r : Except Failure Unit} (hx : h.Receiving w stream position d xs r d') (hd : P d) : P d' := by
  have hnext : ∀ {position d a d'}, w.next stream position d = (a, d') → P d → P d' := by
    intro position d a d' hn hd
    have hkept := hk.next stream position d hd
    rw [hn] at hkept
    exact hkept
  induction hx with
  | unfinished position d => exact hd
  | broken position d d' f hn => exact hnext hn hd
  | ended position d d' hn hc => exact hnext hn hd
  | closed position d d' hn hc => exact hnext hn hd
  | last position behind d x hn hc => exact hk.handle x.event x.daemon (hnext hn hd)
  | delivered position behind d d' x xs r hn hc hrest ih =>
    exact ih (hk.handle x.event x.daemon (hnext hn hd))

theorem listening {stream : Nat} {d d' : Daemon σ} {xs : List (Delivery σ)}
    {r : Except Failure Unit} (hl : h.Listening w stream d xs r d') (hd : P d) : P d' := by
  have hreconcile := hk.reconcile _ (hk.entered .reconciling d hd)
  cases hl with
  | unreconciled f d' hr =>
    rw [serve, hr] at hreconcile
    exact hreconcile
  | overtaken report d' hr hc =>
    rw [serve, hr] at hreconcile
    exact hreconcile
  | listened report d₁ d' xs r hr hc hx =>
    rw [serve, hr] at hreconcile
    exact hk.receiving hx (hk.attending d₁ hreconcile)

theorem connecting {d d' : Daemon σ} {xs : List (Delivery σ)} {r : Except Failure Unit}
    (hn : h.Connecting w d xs r d') (hd : P d) : P d' := by
  have henter := hk.entered .connecting d hd
  cases hn with
  | unopened f v ho => exact hk.opening ho henter
  | opened stream token v v' xs r d' ho ht hl =>
    have hregister := hk.onCancel stream ⟨_, v⟩ (hk.opening ho henter)
    rw [ht] at hregister
    have hlisten := hk.listening hl hregister
    cases token with
    | none => exact hk.disconnect ⟨_, _⟩ (hk.closeStream stream d' hlisten)
    | some t =>
      exact hk.disconnect ⟨_, _⟩ (hk.closeStream stream ⟨_, _⟩ (hk.unregister t d' hlisten))

theorem retrying {m : String} {d d' : Daemon σ} (hr : h.Retrying w m d (.ok true) d')
    (hd : P d) : P d' := by
  cases hr with
  | slept d' hc hg hs =>
    have hslept := hk.sleep (h.bereft d).core.settings.reconnectDelay _ (hk.awaiting m d hd)
    rw [hs] at hslept
    exact hk.core d' _ rfl hslept

theorem head {d d' : Daemon σ} (hd' : h.Head w d d') (hd : P d) : P d' := by
  induction hd' with
  | start => exact hk.core d _ rfl hd
  | again d₁ d₂ xs hd₁ hn ih => exact hk.connecting hn ih
  | retried d₁ d₂ d₃ m xs hd₁ hn hr ih => exact hk.retrying hr (hk.connecting hn ih)

end Maintains

/-! ### Failures of connecting and of waiting -/

/-- A connection is made from this head of the loop. -/
def Connects (h : Host σ) (d : Daemon σ) : Prop :=
  ∃ v, h.connect (h.entered .connecting d).outside = (.ok (), v)

/-- A connection that is not made fails as connecting failed: a failure of the daemon's own kinds
counts as a loss. -/
theorem Connecting.unconnected {d d' : Daemon σ} {xs : List (Delivery σ)} {r : Except Failure Unit}
    (hn : h.Connecting w d xs r d') {f : Failure} {v : σ}
    (hf : h.connect (h.entered .connecting d).outside = (.error f, v)) :
    r = .error (if f.isOwn then .stream f.message else f) := by
  cases hn with
  | unopened g v' ho =>
    generalize hg : (Except.error g : Except Failure Nat) = a at ho
    cases ho with
    | opened stream v₁ v₂ hc hs => cases hg
    | unconnected f' v₁ hc =>
      cases hf.symm.trans hc
      exact congrArg Except.error (Except.error.inj hg)
    | unsubscribed f' v₁ v₂ hc hs => cases hf.symm.trans hc
  | opened stream token v₁ v₂ xs r d' ho ht hl =>
    cases ho with
    | opened stream v₁ v₂ hc hs => cases hf.symm.trans hc

/-- A connection that is not made, by a failure not of the daemon's own kinds, is the last one. -/
theorem connections_unconnected (fuel n : Nat) (d : Daemon σ) {f : Failure} {v : σ}
    (hc : h.cancelled d.outside = false) (hforeign : f.isOwn = false)
    (hf : h.connect (h.entered .connecting d).outside = (.error f, v)) :
    (Act.run (h.connections w fuel (n + 1)) d).1 = .error f := by
  obtain ⟨xs, hn, -⟩ := h.connection_outcome w fuel d
  have hr := hn.unconnected hf
  rw [hforeign] at hr
  rw [connections, run_bind, run_isCancelled, hc]
  simp only [Bool.false_eq_true, if_false]
  rw [run_bind, run_attempt]
  generalize Act.run (h.connection w fuel) d = a at hr ⊢
  obtain ⟨r, d₁⟩ := a
  cases hr
  cases f with
  | stream m => cases hforeign
  | _ => rfl

/-- A retry fails as it gives up, or as it cannot sleep. -/
theorem Retrying.error {m : String} {d d' : Daemon σ} {f : Failure}
    (hr : h.Retrying w m d (.error f) d') :
    f = .stream m ∨
      (w.sleep (h.bereft d).core.settings.reconnectDelay (h.awaiting m d)).1 = .error f := by
  cases hr with
  | gaveUp n hc hg => exact .inl rfl
  | unslept f d' hc hg hs => exact .inr (congrArg Prod.fst hs)

end Host

/-! ### Configurations -/

namespace Config

/-- The delay of a configuration is so short that the clock can count it. -/
def ShortDelay (c : Config) : Prop :=
  ∃ negative m e, c.reconnectDelay = .finite negative m e ∧ (m : ℚ) * 2 ^ e * 10 ^ 9 < 2 ^ 63 - 512

theorem canWait_iff_of_load {path : String} {content : Except OsFault ByteArray} {c : Config}
    (hload : (load path content).1 = .ok c) :
    CancelScope.canWait c.reconnectDelay = true ↔ c.ShortDelay := by
  obtain ⟨bytes, ms, -, -, hcheck⟩ := holds_of_load path content c hload
  have hnonnegative := (parts_of_check _ c hcheck).1.delay_nonnegative
  rw [CancelScope.canWait_iff]
  unfold ShortDelay
  generalize c.reconnectDelay = x at hnonnegative
  cases x with
  | nan => cases hnonnegative
  | infinite negative =>
    cases negative with
    | true => cases hnonnegative
    | false => exact iff_of_false nofun nofun
  | finite negative m e =>
    constructor
    · rintro (rfl | hlt)
      · -- a negative number is accepted only as zero
        have hzero : m = 0 := by simpa [Binary64.isNonnegative] using hnonnegative
        subst hzero
        exact ⟨true, 0, e, rfl, by norm_num⟩
      · exact ⟨negative, m, e, rfl, hlt⟩
    · rintro ⟨_, _, _, heq, hlt⟩
      cases heq
      exact .inr hlt

end Config

namespace Launch

variable {τ : Type}

/-- A daemon is set as a configuration says, and so is its gateway. -/
structure Suits (c : Config) (d : Daemon (Station τ)) : Prop where
  settings : d.core.settings = settings c
  timeout : d.outside.gateway.timeout = .real c.runtimeTimeout

namespace Suits

variable {c : Config} {d : Daemon (Station τ)}

theorem congr {core : Core} {st : Station τ} (hd : Suits c d)
    (hs : core.settings = d.core.settings)
    (ht : st.gateway.timeout = d.outside.gateway.timeout) : Suits c ⟨core, st⟩ :=
  ⟨hs.trans hd.settings, ht.trans hd.timeout⟩

theorem stationed {st : Station τ} (hd : Suits c d) (hg : st.gateway = d.outside.gateway) :
    Suits c ⟨d.core, st⟩ :=
  hd.congr rfl (congrArg Gateway.timeout hg)

end Suits

theorem timeout_of_gateway {st st' : Station τ} {t : Seconds} (hg : st'.gateway = st.gateway)
    (ht : st.gateway.timeout = t) : st'.gateway.timeout = t :=
  (congrArg Gateway.timeout hg).trans ht

theorem upholds_timeout (o : Outside τ) (t : Seconds) :
    (Station.host o).Upholds fun st => st.gateway.timeout = t where
  log l st _ := timeout_of_gateway (Station.log_gateway l st)
  save path text st := timeout_of_gateway (Station.callFile_gateway .save (o.save path text) st)
  tag dir id st _ := timeout_of_gateway (Station.callLogged_gateway .tag (o.tag dir id) st)
  setLimit id soft hard st _ :=
    timeout_of_gateway (Station.callLogged_gateway .setLimit (o.setLimit id soft hard) st)
  list st := timeout_of_gateway (Station.onClient_gateway .list o.list st)
  resolve c st := timeout_of_gateway (Station.resolve_gateway (.text c) st)
  isPresent dir st := timeout_of_gateway (Station.call_gateway .isPresent (o.isPresent dir) st)
  readTag dir st := timeout_of_gateway (Station.callLogged_gateway .readTag (o.readTag dir) st)
  clear id st :=
    timeout_of_gateway
      (Station.callLogged_gateway .setLimit (o.setLimit id Host.noLimit Host.noLimit) st)

/-- While the daemon waits it stays set as it is, and a sleep fails only where the scope cannot be
waited on. -/
structure Patient (c : Config) (s : Surroundings τ)
    (sleep : Binary64 → Daemon (Station τ) → Except Failure Bool × Daemon (Station τ)) :
    Prop where
  pull : ∀ stream position d, Suits c d → Suits c (s.pull stream position d).2
  rest : ∀ seconds d, Suits c d → Suits c (sleep seconds d).2
  fails : ∀ seconds d f, (sleep seconds d).1 = .error f → d.outside.scope.wait seconds = .error f

section Patient

variable {c : Config} {s : Surroundings τ}
  {sleep : Binary64 → Daemon (Station τ) → Except Failure Bool × Daemon (Station τ)}

theorem Patient.maintains (hp : Patient c s sleep) (o : Outside τ) :
    (Station.host o).Maintains { s.waits o with sleep } (Suits c) where
  core _ _ hs hd := hd.congr hs rfl
  line l d hd := hd.stationed (Station.log_gateway l d.outside)
  handle e d hd := ⟨(Host.serve_settings d _).trans hd.settings,
    ((upholds_timeout o _).handle e d hd.timeout).2⟩
  reconcile d hd := ⟨(Host.serve_settings d _).trans hd.settings,
    ((upholds_timeout o _).reconcile d hd.timeout).2⟩
  connect d hd := hd.congr rfl (Station.connect_timeout d.outside)
  subscribe d hd := hd.stationed (Station.onClient_gateway .events o.events d.outside)
  disconnect d hd := hd.congr rfl (Station.disconnect_timeout d.outside)
  closeStream n d hd := hd.stationed (Station.closeStream_gateway n d.outside)
  onCancel n d hd := hd.stationed (Station.onCancel_gateway n d.outside)
  unregister _ _ hd := hd.stationed rfl
  next stream position d hd :=
    EventStream.next_kept (fun _ _ hg hd => hd.stationed hg) hp.pull stream s.patience position d hd
  sleep := hp.rest

end Patient

theorem load_gateway {o : Outside τ} {store store' : Store} {st st' : Station τ}
    (hl : store.load (Station.host o).toDisk st = (.ok (), store', st')) :
    st'.gateway = st.gateway := by
  have hread : ∀ {r st₁}, (Station.host o).read store.path st = (r, st₁) →
      st₁.gateway = st.gateway := by
    intro r st₁ hr
    have hfile := Station.callFile_gateway (o := o) .read (o.read store.path) st
    rw [show Station.callFile o .read (o.read store.path) st = (r, st₁) from hr] at hfile
    exact hfile
  cases Store.load_outcome _ store store' st st' hl with
  | created f st₁ st₂ l hr hm hs =>
    have hsaved := Store.save_keeps (Station.host o).toDisk (fun v => v.gateway = st.gateway)
      (fun l v _ hv => (Station.log_gateway l v).trans hv)
      (fun path text v hv => (Station.callFile_gateway .save (o.save path text) v).trans hv)
      { store with table := [] } [] ((Station.host o).log l st₁)
      ((Station.log_gateway l st₁).trans (hread hr))
    rw [hs] at hsaved
    exact hsaved
  | blank bytes st₁ hr hb => exact hread hr
  | accepted bytes st₁ t l hr hb ha => exact (Station.log_gateway l st₁).trans (hread hr)

theorem prepare_suits {o : Outside τ} {c : Config} {core : Core} {st st' : Station τ}
    (hp : prepare o c st = (.ok core, st')) : Suits c ⟨core, st'⟩ := by
  unfold prepare at hp
  simp only at hp
  split at hp
  · cases hp
  · rename_i heq
    have hgateway := load_gateway heq
    split at hp
    · cases hp
    · cases hp
      exact ⟨rfl, congrArg Gateway.timeout hgateway⟩

/-! ### Runs -/

theorem secondsFault_foreign (x : Binary64) : (Station.secondsFault x).isOwn = false := by
  cases x with
  | _ => rfl

section Run

variable {c : Config} {s : Surroundings τ} {o : Outside τ}
  {sleep : Binary64 → Daemon (Station τ) → Except Failure Bool × Daemon (Station τ)}

/-- Connecting with the time-out of a configuration: with whole seconds it gives a client or is a
loss of the connection, without them it fails. -/
theorem connect_configured (ho : o.Dials) (st : Station τ)
    (ht : st.gateway.timeout = .real c.runtimeTimeout) :
    (∃ n, c.runtimeTimeout.truncate? = some n) ∧
        ((∃ st', st.connect o = (.ok (), st') ∧ st'.gateway.client.isSome = true) ∨
          ∃ m st', st.connect o = (.error (.stream m), st')) ∨
      c.runtimeTimeout.truncate? = none ∧
        st.connect o = (.error (Station.secondsFault c.runtimeTimeout), st.disconnect o) := by
  cases hx : c.runtimeTimeout.truncate? with
  | none => exact .inr ⟨rfl, Station.connect_secondsless st _ ht hx⟩
  | some n =>
    have hseconds : Station.wholeSeconds st.gateway.timeout = .ok n := by
      rw [ht, Station.wholeSeconds_real, hx]
    refine .inl ⟨⟨n, rfl⟩, ?_⟩
    exact (Station.connect_outcome ho st n hseconds).imp_right fun ⟨m, st', hc⟩ => ⟨_, st', hc⟩

/-- The delay of a configuration that is loaded can be waited for, in a scope that is cancelled or
with a short delay, or is too long. -/
theorem nap_configured {path : String} {content : Except OsFault ByteArray}
    (hload : (Config.load path content).1 = .ok c) (d : Daemon (Station τ)) :
    (d.outside.scope.cancelled = true ∨ c.ShortDelay) ∧
        (∃ slept, (Surroundings.nap c.reconnectDelay d).1 = .ok slept) ∨
      (d.outside.scope.cancelled = false ∧ ¬c.ShortDelay) ∧
        (Surroundings.nap c.reconnectDelay d).1 = .error .tooLongWait := by
  have herror := d.outside.scope.wait_eq_error c.reconnectDelay
  rw [← Config.canWait_iff_of_load hload]
  unfold Surroundings.nap
  cases hw : d.outside.scope.wait c.reconnectDelay with
  | ok b =>
    refine .inl ⟨?_, !b, rfl⟩
    by_contra hno
    obtain ⟨hc, hlong⟩ := not_or.mp hno
    rw [(herror _).mpr ⟨Bool.eq_false_iff.mpr hc, Bool.eq_false_iff.mpr hlong, rfl⟩] at hw
    cases hw
  | error f =>
    obtain ⟨hc, hlong, rfl⟩ := (herror f).mp hw
    exact .inr ⟨⟨hc, Bool.eq_false_iff.mp hlong⟩, rfl⟩

/-- What a run fails by is a loss of the connection, unless it was broken off, or failed in a
connection that was made, or the time-out has no whole seconds, or the delay is too long. -/
theorem Patient.fails_as (hp : Patient c s sleep) (ho : o.Dials) {d : Daemon (Station τ)}
    {f : Failure} (hf : (Station.host o).Fails { s.waits o with sleep } d f) (hd : Suits c d) :
    (∃ m, f = .stream m) ∨ f = .unfinished ∨
      (∃ d₁ d₂ xs, (Station.host o).Head { s.waits o with sleep } d d₁ ∧
        (Station.host o).Connects d₁ ∧
        (Station.host o).Connecting { s.waits o with sleep } d₁ xs (.error f) d₂) ∨
      (c.runtimeTimeout.truncate? = none ∧ f = Station.secondsFault c.runtimeTimeout) ∨
      (CancelScope.canWait c.reconnectDelay = false ∧ f = .tooLongWait) := by
  have hk := hp.maintains o
  cases hf with
  | unfinished => exact .inr (.inl rfl)
  | connecting d₁ d₂ xs f hd₁ hn =>
    have hset := hk.entered .connecting d₁ (hk.head hd₁ hd)
    rcases connect_configured ho _ hset.timeout with ⟨-, ⟨st', hc, -⟩ | ⟨m, st', hc⟩⟩ | ⟨hx, hc⟩
    · exact .inr (.inr (.inl ⟨d₁, d₂, xs, hd₁, ⟨st', hc⟩, hn⟩))
    · exact .inl ⟨m, Except.error.inj (hn.unconnected hc)⟩
    · have hr := hn.unconnected hc
      rw [secondsFault_foreign] at hr
      exact .inr (.inr (.inr (.inl ⟨hx, Except.error.inj hr⟩)))
  | retrying d₁ d₂ d₃ m xs f hd₁ hn hr =>
    have hset := hk.awaiting m d₂ (hk.connecting hn (hk.head hd₁ hd))
    rcases hr.error with rfl | hs
    · exact .inl ⟨m, rfl⟩
    · have hdelay : ((Station.host o).bereft d₂).core.settings.reconnectDelay =
          c.reconnectDelay := congrArg Settings.reconnectDelay hset.settings
      rw [hdelay] at hs
      obtain ⟨-, hw, rfl⟩ := (CancelScope.wait_eq_error _ _ f).mp (hp.fails _ _ f hs)
      exact .inr (.inr (.inr (.inr ⟨hw, rfl⟩)))

end Run

/-- With a configuration that is loaded, connecting gives a client or is a loss of the connection just
where the time-out is finite, and the delay can be waited for just where the scope is cancelled or the
delay is so short that the clock can count it. With such a configuration every failure of a run is a
loss of the connection, unless the run is broken off or fails in a connection that was made. With a
time-out that is not finite, every run in a scope that is not cancelled fails at its first connection
without coming to a retry. -/
theorem run_reconnects (s : Surroundings τ) (path : String) (content : Except OsFault ByteArray)
    (c : Config) (hload : (Config.load path content).1 = .ok c) (hdials : s.toOutside.Dials)
    (sleep : Binary64 → Daemon (Station τ) → Except Failure Bool × Daemon (Station τ))
    (hpatient : Patient c s sleep) :
    let o := s.equipped (tools c)
    let h := Station.host o
    let w : Waits (Station τ) := { s.waits o with sleep }
    (∀ st core st', prepare o c st = (.ok core, st') → Suits c ⟨core, st'⟩) ∧
    (∀ st : Station τ, st.gateway.timeout = .real c.runtimeTimeout →
      (∃ n, c.runtimeTimeout.truncate? = some n) ∧
          ((∃ st', h.connect st = (.ok (), st') ∧ st'.gateway.client.isSome = true) ∨
            ∃ m st', h.connect st = (.error (.stream m), st')) ∨
        c.runtimeTimeout.truncate? = none ∧
          ∃ st', h.connect st = (.error (Station.secondsFault c.runtimeTimeout), st')) ∧
    (∀ d : Daemon (Station τ),
      (d.outside.scope.cancelled = true ∨ c.ShortDelay) ∧
          (∃ slept, (Surroundings.nap c.reconnectDelay d).1 = .ok slept) ∨
        (d.outside.scope.cancelled = false ∧ ¬c.ShortDelay) ∧
          (Surroundings.nap c.reconnectDelay d).1 = .error .tooLongWait) ∧
    (∀ fuel d f, Suits c d → (Act.run (h.run w fuel) d).1 = .error f →
      (∃ m, f = .stream m) ∨ f = .unfinished ∨
        (∃ d₁ d₂ xs, h.Head w d d₁ ∧ h.Connects d₁ ∧ h.Connecting w d₁ xs (.error f) d₂) ∨
        (c.runtimeTimeout.truncate? = none ∧ f = Station.secondsFault c.runtimeTimeout) ∨
        (¬c.ShortDelay ∧ f = .tooLongWait)) ∧
    ∀ fuel d, Suits c d → c.runtimeTimeout.truncate? = none → d.outside.scope.cancelled = false →
      (Act.run (h.run w (fuel + 1)) d).1 = .error (Station.secondsFault c.runtimeTimeout) := by
  intro o h w
  have ho : o.Dials := ⟨hdials.makeClient, hdials.ping⟩
  refine ⟨fun st core st' hp => prepare_suits hp, fun st ht => ?_, nap_configured hload,
    fun fuel d f hd hf => ?_, fun fuel d hd hx hc => ?_⟩
  · exact (connect_configured ho st ht).imp_right fun ⟨hx, hc⟩ => ⟨hx, _, hc⟩
  · have hall := hpatient.fails_as ho (Host.run_fails fuel d f hf) hd
    rwa [← Bool.not_eq_true, Config.canWait_iff_of_load hload] at hall
  · have hset := (hpatient.maintains o).entered .connecting
      ⟨{ d.core with failures := 0 }, d.outside⟩ (hd.congr rfl rfl)
    rw [Host.run_run]
    exact Host.connections_unconnected (fuel + 1) fuel _ hc (secondsFault_foreign _)
      (Station.connect_secondsless _ _ hset.timeout hx)

/-! ### Two configurations -/

theorem nap_error (x : Binary64) (d : Daemon (Station τ)) (f : Failure)
    (hf : (Surroundings.nap x d).1 = .error f) : d.outside.scope.wait x = .error f := by
  unfold Surroundings.nap at hf
  cases hw : d.outside.scope.wait x with
  | ok b =>
    rw [hw] at hf
    cases hf
  | error g =>
    rw [hw] at hf
    exact hf

theorem still_dials (file : ByteArray) : (still file).toOutside.Dials := ⟨nofun, nofun⟩

theorem still_patient (c : Config) (file : ByteArray) :
    Patient c (still file) Surroundings.nap :=
  ⟨fun _ _ _ hd => hd, fun _ _ hd => hd, nap_error⟩

/-- A daemon that is prepared by a configuration and has no record. -/
def prepared (c : Config) : Daemon (Station Unit) :=
  ⟨Core.opening (settings c) ⟨c.leastId, c.greatestId, []⟩ ⟨c.stateFile, []⟩,
    { opening () with gateway := ⟨c.runtimeSocket, .real c.runtimeTimeout, none⟩ }⟩

theorem prepared_suits (c : Config) : Suits c (prepared c) := ⟨rfl, rfl⟩

theorem run_reconnects_lax :
    let s := still (dump (.object Config.lax)).toUTF8
    let c := Config.laxConfig
    let o := s.equipped (tools c)
    let h := Station.host o
    let d := prepared c
    (Config.load "config.json" (.ok (dump (.object Config.lax)).toUTF8)).1 = .ok c ∧
      s.toOutside.Dials ∧ Patient c s Surroundings.nap ∧ Suits c d ∧
      ((∃ st', h.connect d.outside = (.ok (), st') ∧ st'.gateway.client.isSome = true) ∨
        ∃ m st', h.connect d.outside = (.error (.stream m), st')) ∧
      (∃ slept, (Surroundings.nap c.reconnectDelay d).1 = .ok slept) ∧
      ∀ fuel f, (Act.run (h.run (s.waits o) fuel) d).1 = .error f →
        (∃ m, f = .stream m) ∨ f = .unfinished ∨
          ∃ d₁ d₂ xs, h.Connects d₁ ∧ h.Connecting (s.waits o) d₁ xs (.error f) d₂ := by
  intro s c o h d
  have hload : (Config.load "config.json" (.ok (dump (.object Config.lax)).toUTF8)).1 = .ok c :=
    Config.load_lax
  have hdials := still_dials (dump (.object Config.lax)).toUTF8
  have hpatient := still_patient c (dump (.object Config.lax)).toUTF8
  have hshort : c.ShortDelay := (Config.canWait_iff_of_load hload).mp rfl
  obtain ⟨-, hconnect, hnap, hrun, -⟩ :=
    run_reconnects s "config.json" _ c hload hdials Surroundings.nap hpatient
  refine ⟨hload, hdials, hpatient, prepared_suits c, ?_, ?_, fun fuel f hf => ?_⟩
  · rcases hconnect d.outside rfl with ⟨-, hc⟩ | ⟨hx, -⟩
    · exact hc
    · cases hx
  · rcases hnap d with ⟨-, hslept⟩ | ⟨⟨-, hlong⟩, -⟩
    · exact hslept
    · exact absurd hshort hlong
  · rcases hrun fuel d f (prepared_suits c) hf with hlost | hbroken | ⟨d₁, d₂, xs, -, hc, hn⟩ |
      ⟨hx, -⟩ | ⟨hlong, -⟩
    · exact .inl hlost
    · exact .inr (.inl hbroken)
    · exact .inr (.inr ⟨d₁, d₂, xs, hc, hn⟩)
    · cases hx
    · exact absurd hshort hlong

/-- A document with a time-out of infinity. -/
def endless : List (Str × Value) :=
  ("runtime_timeout_seconds", .float (.infinite false)) :: Config.lax

def endlessConfig : Config := { Config.laxConfig with runtimeTimeout := .infinite false }

set_option maxRecDepth 20000 in
theorem load_endless :
    (Config.load "config.json" (.ok (dump (.object endless)).toUTF8)).1 = .ok endlessConfig := by
  rw [Config.load_holds "config.json" _ endless (Config.holds_dump endless rfl)]
  rfl

/-- Not every configuration that is loaded lets a run come to a retry. -/
theorem endless_not_retried :
    let s := still (dump (.object endless)).toUTF8
    let o := s.equipped (tools endlessConfig)
    (Config.load "config.json" (.ok (dump (.object endless)).toUTF8)).1 = .ok endlessConfig ∧
      ((prepared endlessConfig).outside.connect o).1 = .error .infiniteInteger ∧
      (Act.run ((Station.host o).run (s.waits o) 1) (prepared endlessConfig)).1 =
        .error .infiniteInteger := by
  intro s o
  exact ⟨load_endless, rfl, rfl⟩

end Launch

end LayerQuota
