import LayerQuota.Proofs.Daemon.Frame
import LayerQuota.Proofs.Daemon.Rounds
/-!
# What a whole run keeps

What every call of a run keeps outside holds at the run's end. A connection is opened and a sleep is
begun only where the scope is not cancelled, since nothing between the look at the scope and these
calls cancels it.
-/

namespace LayerQuota.Host

open LayerQuota.Act

variable {σ : Type}

/-- What the calls keep that a connection makes while it is open. -/
structure Attends (h : Host σ) (w : Waits σ) (P : σ → Prop) : Prop extends Upholds h P where
  line : ∀ l v, P v → P (h.log l v)
  next : ∀ stream position d, P d.outside → P (w.next stream position d).2.outside

/-- What all calls of a run keep. -/
structure Sustains (h : Host σ) (w : Waits σ) (P : σ → Prop) : Prop extends Upholds h P where
  line : ∀ l v, P v → P (h.log l v)
  connect : ∀ v, h.cancelled v = false → P v → P (h.connect v).2
  subscribe : ∀ v, P v → P (h.subscribe v).2
  disconnect : ∀ v, P v → P (h.disconnect v)
  closeStream : ∀ n v, P v → P (h.closeStream n v)
  onCancel : ∀ n v, P v → P (h.onCancel n v).2
  unregister : ∀ n v, P v → P (h.unregister n v)
  next : ∀ stream position d, P d.outside → P (w.next stream position d).2.outside
  sleep : ∀ seconds d, h.cancelled d.outside = false → P d.outside →
    P (w.sleep seconds d).2.outside

variable {h : Host σ} {w : Waits σ} {P : σ → Prop}

namespace Attends

variable (ha : h.Attends w P)

include ha

theorem receiving {stream position : Nat} {d d' : Daemon σ} {xs : List (Delivery σ)}
    {r : Except Failure Unit} (hx : h.Receiving w stream position d xs r d') (hd : P d.outside) :
    P d'.outside := by
  have hnext : ∀ {position d a d'}, w.next stream position d = (a, d') → P d.outside →
      P d'.outside := by
    intro position d a d' hn hd
    have hkept := ha.next stream position d hd
    rw [hn] at hkept
    exact hkept
  induction hx with
  | unfinished position d => exact hd
  | broken position d d' f hn => exact hnext hn hd
  | ended position d d' hn hc => exact hnext hn hd
  | closed position d d' hn hc => exact hnext hn hd
  | last position behind d x hn hc =>
    exact (ha.handle x.event x.daemon (hnext hn hd)).2
  | delivered position behind d d' x xs r hn hc hrest ih =>
    exact ih (ha.handle x.event x.daemon (hnext hn hd)).2

theorem listening {stream : Nat} {d d' : Daemon σ} {xs : List (Delivery σ)}
    {r : Except Failure Unit} (hl : h.Listening w stream d xs r d') (hd : P d.outside) :
    P d'.outside := by
  have hreconcile := (ha.toUpholds.reconcile _ (entered_kept ha.line .reconciling d hd)).2
  cases hl with
  | unreconciled f d' hr =>
    rw [hr] at hreconcile
    exact hreconcile
  | overtaken report d' hr hc =>
    rw [hr] at hreconcile
    exact hreconcile
  | listened report d₁ d' xs r hr hc hx =>
    rw [hr] at hreconcile
    exact ha.receiving hx (attending_kept ha.line d₁ hreconcile)

end Attends

/-- What each connection keeps and each retry, a run keeps. -/
theorem Course.kept
    (hconnecting : ∀ {d xs r d'}, h.cancelled d.outside = false → h.Connecting w d xs r d' →
      P d.outside → P d'.outside)
    (hretrying : ∀ {m d r d'}, h.Retrying w m d r d' → P d.outside → P d'.outside)
    {d d' : Daemon σ} {ls : List (Link σ)} {r : Except Failure Unit} (hc : h.Course w d ls r d')
    (hd : P d.outside) : P d'.outside := by
  induction hc with
  | unfinished d => exact hd
  | overtaken d hc => exact hd
  | again d d₁ d' xs ls r hc hn hrest ih => exact ih (hconnecting hc hn hd)
  | retried d d₁ d₂ d' m xs ls r hc hn hr hrest ih =>
    exact ih (hretrying hr (hconnecting hc hn hd))
  | left d d₁ d' m xs hc hn hr => exact hretrying hr (hconnecting hc hn hd)
  | gaveUp d d₁ d' m f xs hc hn hr => exact hretrying hr (hconnecting hc hn hd)
  | failed d d' f xs hc hn hf => exact hconnecting hc hn hd

namespace Sustains

variable (hs : h.Sustains w P)

include hs

theorem attends : h.Attends w P := ⟨hs.toUpholds, hs.line, hs.next⟩

theorem opening {v v' : σ} {r : Except Failure Nat} (ho : h.Opening v r v')
    (hc : h.cancelled v = false) (hv : P v) : P v' := by
  have hconnect := hs.connect v hc hv
  have hhang : ∀ (f : Failure) (v : σ), P v → P (if f.isOwn then h.disconnect v else v) := by
    intro f v hv
    split
    · exact hs.disconnect v hv
    · exact hv
  cases ho with
  | opened stream v₁ v₂ hc hsub =>
    rw [hc] at hconnect
    have hsubscribe := hs.subscribe v₁ hconnect
    rw [hsub] at hsubscribe
    exact hsubscribe
  | unconnected f v₁ hc =>
    rw [hc] at hconnect
    exact hhang f v₁ hconnect
  | unsubscribed f v₁ v₂ hc hsub =>
    rw [hc] at hconnect
    have hsubscribe := hs.subscribe v₁ hconnect
    rw [hsub] at hsubscribe
    exact hhang f v₂ hsubscribe

section Punctual

variable (hp : h.Punctual)

include hp

theorem connecting {d d' : Daemon σ} {xs : List (Delivery σ)} {r : Except Failure Unit}
    (hn : h.Connecting w d xs r d') (hc : h.cancelled d.outside = false) (hd : P d.outside) :
    P d'.outside := by
  have hstart := hp.entered .connecting d hc
  have henter := entered_kept hs.line .connecting d hd
  cases hn with
  | unopened f v ho => exact hs.opening ho hstart henter
  | opened stream token v v' xs r d' ho ht hl =>
    have hregister := hs.onCancel stream v (hs.opening ho hstart henter)
    rw [ht] at hregister
    exact hungUp_kept hs.disconnect hs.closeStream hs.unregister stream token d'.outside
      (hs.attends.listening hl hregister)

theorem retrying {m : String} {d d' : Daemon σ} {r : Except Failure Bool}
    (hr : h.Retrying w m d r d') (hd : P d.outside) : P d'.outside := by
  have hslept : ∀ {a d'}, h.cancelled d.outside = false →
      w.sleep (h.bereft d).core.settings.reconnectDelay (h.awaiting m d) = (a, d') →
      P d'.outside := by
    intro a d' hc hsl
    have hkept := hs.sleep (h.bereft d).core.settings.reconnectDelay (h.awaiting m d)
      (hp.log _ _ (hp.bereft d hc)) (hs.line _ _ (bereft_kept hs.line d hd))
    rw [hsl] at hkept
    exact hkept
  cases hr with
  | overtaken hc => exact hd
  | gaveUp n hc hg => exact hs.line _ _ (bereft_kept hs.line d hd)
  | unslept f d' hc hg hsl => exact hslept hc hsl
  | woken d' hc hg hsl => exact hslept hc hsl
  | slept d' hc hg hsl =>
    have hkept := hslept hc hsl
    exact hkept

/-- A run keeps what each of its calls keeps. -/
theorem course {d d' : Daemon σ} {ls : List (Link σ)} {r : Except Failure Unit}
    (hc : h.Course w d ls r d') (hd : P d.outside) : P d'.outside :=
  hc.kept (fun hno hn => hs.connecting hp hn hno) (hs.retrying hp) hd

end Punctual

end Sustains

end LayerQuota.Host
