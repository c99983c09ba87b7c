import LayerQuota.Daemon.Connection
import LayerQuota.Proofs.Daemon.Conclusive
/-!
# The course of a run

What a run of the daemon comes to, as relations that know no bound: one connection after the other,
in each the reconciliation and then the events of its stream, one handled before the next is waited
for. Only a run that has used up its rounds is broken off: the connections that it was given, or the
events that it was given in one of them.
-/

namespace LayerQuota

/-- Waits in which nothing happens to the core. -/
structure Waits.Apart {σ : Type} (w : Waits σ) : Prop where
  next : ∀ stream position d, (w.next stream position d).2.core = d.core
  sleep : ∀ seconds d, (w.sleep seconds d).2.core = d.core

namespace Waits.Apart

variable {σ : Type} {w : Waits σ} (hw : w.Apart) {d d' : Daemon σ}

include hw

theorem next_core {stream position : Nat} {a : Except Failure (Option (Event × Nat))}
    (hn : w.next stream position d = (a, d')) : d'.core = d.core := by
  rw [← hw.next stream position d, hn]

theorem sleep_core {seconds : Number.Binary64} {a : Except Failure Bool}
    (hs : w.sleep seconds d = (a, d')) : d'.core = d.core := by
  rw [← hw.sleep seconds d, hs]

end Waits.Apart

namespace Host

open LayerQuota.Act

variable {σ : Type} (h : Host σ) (w : Waits σ)

/-! ### Steps -/

def phaseLine (p : Phase) : Line := ⟨.debug, s!"Handler state -> {p.name}"⟩

/-- A daemon that enters a phase. -/
def entered (p : Phase) (d : Daemon σ) : Daemon σ :=
  if d.core.phase = p then d
  else ⟨{ d.core with phase := p }, h.log (phaseLine p) d.outside⟩

/-- A daemon that goes over from its reconciliation to the events. -/
def attending (d : Daemon σ) : Daemon σ :=
  let d := h.entered .listening d
  ⟨{ d.core with failures := 0 }, h.log ⟨.info, "Listening for container events..."⟩ d.outside⟩

/-- What is left outside when a connection was given up. -/
def hungUp (stream : Nat) (token : Option Nat) (v : σ) : σ :=
  let v := match token with
    | some t => h.unregister t v
    | none => v
  h.disconnect (h.closeStream stream v)

/-- A daemon that counts the loss of a connection. -/
def bereft (d : Daemon σ) : Daemon σ :=
  h.entered .disconnected ⟨{ d.core with failures := d.core.failures + 1 }, d.outside⟩

/-- A daemon at the end of its run. -/
def concluded (d : Daemon σ) : Daemon σ :=
  let d := h.entered .stopped ⟨d.core, h.disconnect d.outside⟩
  ⟨d.core, h.log ⟨.info, "Quota handler stopped"⟩ d.outside⟩

theorem run_enter (p : Phase) (d : Daemon σ) :
    Act.run (h.enter p) d = (.ok (), h.entered p d) := by
  rw [enter, run_bind, run_core, entered]
  simp only
  split
  · rfl
  · rfl

variable {h} in
theorem entered_phase (p : Phase) (d : Daemon σ) : (h.entered p d).core.phase = p := by
  unfold entered
  split
  · assumption
  · rfl

/-! What the journal and the calls that close a connection keep, these steps keep. -/

section Kept

variable {h} {P : σ → Prop} (hlog : ∀ l v, P v → P (h.log l v))

include hlog

theorem entered_kept (p : Phase) (d : Daemon σ) (hd : P d.outside) : P (h.entered p d).outside := by
  unfold entered
  split
  · exact hd
  · exact hlog _ _ hd

theorem attending_kept (d : Daemon σ) (hd : P d.outside) : P (h.attending d).outside :=
  hlog _ _ (entered_kept hlog .listening d hd)

theorem bereft_kept (d : Daemon σ) (hd : P d.outside) : P (h.bereft d).outside :=
  entered_kept hlog .disconnected _ hd

variable (hdisconnect : ∀ v, P v → P (h.disconnect v))

include hdisconnect

theorem concluded_kept (d : Daemon σ) (hd : P d.outside) : P (h.concluded d).outside :=
  hlog _ _ (entered_kept hlog .stopped _ (hdisconnect _ hd))

omit hlog in
theorem hungUp_kept (hclose : ∀ n v, P v → P (h.closeStream n v))
    (hunregister : ∀ n v, P v → P (h.unregister n v)) (stream : Nat) (token : Option Nat) (v : σ)
    (hv : P v) : P (h.hungUp stream token v) := by
  cases token with
  | none => exact hdisconnect _ (hclose stream v hv)
  | some t => exact hdisconnect _ (hclose stream _ (hunregister t v hv))

end Kept

/-! ### Opening -/

/-- How opening a connection can end. A failure of the daemon's own kinds hangs up again. -/
inductive Opening (v : σ) : Except Failure Nat → σ → Prop
  | opened (stream : Nat) (v₁ v₂ : σ) (hc : h.connect v = (.ok (), v₁))
    (hs : h.subscribe v₁ = (.ok stream, v₂)) : Opening v (.ok stream) v₂
  | unconnected (f : Failure) (v₁ : σ) (hc : h.connect v = (.error f, v₁)) :
    Opening v (.error (if f.isOwn then .stream f.message else f))
      (if f.isOwn then h.disconnect v₁ else v₁)
  | unsubscribed (f : Failure) (v₁ v₂ : σ) (hc : h.connect v = (.ok (), v₁))
    (hs : h.subscribe v₁ = (.error f, v₂)) :
    Opening v (.error (if f.isOwn then .stream f.message else f))
      (if f.isOwn then h.disconnect v₂ else v₂)

theorem openStream_outcome (d : Daemon σ) :
    ∃ r v, Act.run h.openStream d = (r, ⟨d.core, v⟩) ∧ h.Opening d.outside r v := by
  rw [openStream, run_bind, run_attempt, run_bind, run_call]
  rcases hc : h.connect d.outside with ⟨f | _, v₁⟩
  · have ho := Opening.unconnected f v₁ hc
    simp only
    cases hf : f.isOwn with
    | true => exact ⟨_, _, rfl, by simpa only [hf, if_true] using ho⟩
    | false => exact ⟨_, _, rfl, by simpa only [hf, Bool.false_eq_true, if_false] using ho⟩
  · simp only
    rw [run_call]
    rcases hs : h.subscribe v₁ with ⟨f | stream, v₂⟩
    · have ho := Opening.unsubscribed f v₁ v₂ hc hs
      simp only
      cases hf : f.isOwn with
      | true => exact ⟨_, _, rfl, by simpa only [hf, if_true] using ho⟩
      | false => exact ⟨_, _, rfl, by simpa only [hf, Bool.false_eq_true, if_false] using ho⟩
    · exact ⟨_, _, rfl, .opened stream v₁ v₂ hc hs⟩

/-! ### Events -/

/-- An event, and the daemon that it came to. -/
structure Delivery (σ : Type) where
  event : Event
  daemon : Daemon σ

/-- What handling an event that was delivered leaves. -/
def handled (x : Delivery σ) : Daemon σ := h.serve x.daemon (.handle x.event)

/-- What the events of a stream come to from a position on: each is handled by the daemon that it
came to, and the next one is asked for from what that leaves, unless the scope is cancelled now. -/
inductive Receiving (stream : Nat) :
    Nat → Daemon σ → List (Delivery σ) → Except Failure Unit → Daemon σ → Prop
  | unfinished (position : Nat) (d : Daemon σ) :
    Receiving stream position d [] (.error .unfinished) d
  | broken (position : Nat) (d d' : Daemon σ) (f : Failure)
    (hn : w.next stream position d = (.error f, d')) : Receiving stream position d [] (.error f) d'
  | ended (position : Nat) (d d' : Daemon σ) (hn : w.next stream position d = (.ok none, d'))
    (hc : h.cancelled d'.outside = false) :
    Receiving stream position d [] (.error (.stream "event stream ended")) d'
  | closed (position : Nat) (d d' : Daemon σ) (hn : w.next stream position d = (.ok none, d'))
    (hc : h.cancelled d'.outside = true) : Receiving stream position d [] (.ok ()) d'
  | last (position behind : Nat) (d : Daemon σ) (x : Delivery σ)
    (hn : w.next stream position d = (.ok (some (x.event, behind)), x.daemon))
    (hc : h.cancelled (h.handled x).outside = true) :
    Receiving stream position d [x] (.ok ()) (h.handled x)
  | delivered (position behind : Nat) (d d' : Daemon σ) (x : Delivery σ) (xs : List (Delivery σ))
    (r : Except Failure Unit)
    (hn : w.next stream position d = (.ok (some (x.event, behind)), x.daemon))
    (hc : h.cancelled (h.handled x).outside = false)
    (hrest : Receiving stream behind (h.handled x) xs r d') :
    Receiving stream position d (x :: xs) r d'

theorem run_handleEvent (e : Event) (d : Daemon σ) :
    Act.run (h.handleEvent e) d = (.ok (), h.serve d (.handle e)) := by
  obtain ⟨d', hrun, -⟩ := h.handleEvent_outcome e d
  rw [serve, hrun]

/-- One connection of a run: the events that were delivered to it, and how it ended. -/
structure Link (σ : Type) where
  delivered : List (Delivery σ)
  result : Except Failure Unit

/-- A connection was broken off only where as many events were delivered to it as the bound allows,
unless a call answered that it was. -/
def Link.Spent (fuel : Nat) (l : Link σ) : Prop :=
  l.result = .error .unfinished → Conclusive h w → l.delivered.length = fuel

variable {h w} in
theorem Link.Spent.cons {fuel : Nat} {xs : List (Delivery σ)} {r : Except Failure Unit}
    (hs : Link.Spent h w fuel ⟨xs, r⟩) (x : Delivery σ) :
    Link.Spent h w (fuel + 1) ⟨x :: xs, r⟩ :=
  fun hr hf => congrArg (· + 1) (hs hr hf)

theorem receive_outcome (stream fuel position : Nat) (d : Daemon σ) :
    let a := Act.run (h.receive w stream fuel position) d
    ∃ xs, h.Receiving w stream position d xs a.1 a.2 ∧ Link.Spent h w fuel ⟨xs, a.1⟩ := by
  induction fuel generalizing position d with
  | zero => exact ⟨[], .unfinished position d, fun _ _ => rfl⟩
  | succ fuel ih =>
    rw [receive, run_bind, run_ofStep]
    rcases hn : w.next stream position d with ⟨f | _ | ⟨e, behind⟩, d₁⟩
    · refine ⟨[], .broken position d d₁ f hn, fun hr hf => ?_⟩
      cases hr
      exact absurd (congrArg Prod.fst hn) (hf.next stream position d)
    · simp only
      rw [run_bind, run_isCancelled]
      cases hc : h.cancelled d₁.outside with
      | true => exact ⟨[], .closed position d d₁ hn hc, nofun⟩
      | false => exact ⟨[], .ended position d d₁ hn hc, nofun⟩
    · simp only
      rw [run_bind, run_handleEvent]
      simp only
      rw [run_bind, run_isCancelled]
      cases hc : h.cancelled (h.serve d₁ (.handle e)).outside with
      | true => exact ⟨_, .last position behind d ⟨e, d₁⟩ hn hc, nofun⟩
      | false =>
        obtain ⟨xs, hxs, hspent⟩ := ih behind (h.serve d₁ (.handle e))
        exact ⟨_, .delivered position behind d _ ⟨e, d₁⟩ xs _ hn hc hxs, hspent.cons _⟩

/-! ### Connections -/

/-- What a connection that was opened comes to: it reconciles before anything else, and takes up the
events only where that went through and the scope is not cancelled. -/
inductive Listening (stream : Nat) (d : Daemon σ) :
    List (Delivery σ) → Except Failure Unit → Daemon σ → Prop
  | unreconciled (f : Failure) (d' : Daemon σ)
    (hr : Act.run h.reconcile (h.entered .reconciling d) = (.error f, d')) :
    Listening stream d [] (.error f) d'
  | overtaken (report : Report) (d' : Daemon σ)
    (hr : Act.run h.reconcile (h.entered .reconciling d) = (.ok report, d'))
    (hc : h.cancelled d'.outside = true) : Listening stream d [] (.ok ()) d'
  | listened (report : Report) (d₁ d' : Daemon σ) (xs : List (Delivery σ))
    (r : Except Failure Unit)
    (hr : Act.run h.reconcile (h.entered .reconciling d) = (.ok report, d₁))
    (hc : h.cancelled d₁.outside = false)
    (hx : h.Receiving w stream 0 (h.attending d₁) xs r d') : Listening stream d xs r d'

/-- What one connection comes to, with the events that were delivered to it. -/
inductive Connecting (d : Daemon σ) : List (Delivery σ) → Except Failure Unit → Daemon σ → Prop
  | unopened (f : Failure) (v : σ)
    (ho : h.Opening (h.entered .connecting d).outside (.error f) v) :
    Connecting d [] (.error f) ⟨(h.entered .connecting d).core, v⟩
  | opened (stream : Nat) (token : Option Nat) (v v' : σ) (xs : List (Delivery σ))
    (r : Except Failure Unit) (d' : Daemon σ)
    (ho : h.Opening (h.entered .connecting d).outside (.ok stream) v)
    (ht : h.onCancel stream v = (token, v'))
    (hl : h.Listening w stream ⟨(h.entered .connecting d).core, v'⟩ xs r d') :
    Connecting d xs r ⟨d'.core, h.hungUp stream token d'.outside⟩

theorem listen_outcome (fuel stream : Nat) (d : Daemon σ) :
    let a := Act.run (h.listen w fuel stream) d
    ∃ xs, h.Listening w stream d xs a.1 a.2 ∧ Link.Spent h w fuel ⟨xs, a.1⟩ := by
  rw [listen, run_bind, run_enter]
  simp only
  rw [run_bind]
  rcases hr : Act.run h.reconcile (h.entered .reconciling d) with ⟨f | report, d₁⟩
  · refine ⟨[], .unreconciled f d₁ hr, fun hbroken hf => ?_⟩
    cases hbroken
    exact absurd (congrArg Prod.fst hr) (hf.reconcile _)
  · simp only
    rw [run_bind, run_isCancelled]
    cases hc : h.cancelled d₁.outside with
    | true => exact ⟨[], .overtaken report d₁ hr hc, nofun⟩
    | false =>
      simp only [Bool.false_eq_true, if_false]
      rw [run_bind, run_enter]
      simp only
      rw [run_bind, run_modifyCore]
      simp only
      rw [run_bind, run_note]
      obtain ⟨xs, hxs, hspent⟩ := h.receive_outcome w stream fuel 0 (h.attending d₁)
      exact ⟨xs, .listened report d₁ _ xs _ hr hc hxs, hspent⟩

variable {h} in
/-- A connection that was not opened was not broken off either. -/
theorem Opening.finishes (hf : Conclusive h w) {v v' : σ} {r : Except Failure Nat}
    (ho : h.Opening v r v') : r ≠ .error .unfinished := by
  have hanswer : ∀ f : Failure, f ≠ .unfinished →
      (.error (if f.isOwn then .stream f.message else f) : Except Failure Nat) ≠
        .error .unfinished := by
    intro f hne heq
    cases hown : f.isOwn with
    | true =>
      rw [hown] at heq
      cases heq
    | false =>
      rw [hown] at heq
      exact hne (Except.error.inj heq)
  cases ho with
  | opened stream v₁ v₂ hc hs => exact nofun
  | unconnected f v₁ hc =>
    refine hanswer f ?_
    rintro rfl
    exact hf.connect v (congrArg Prod.fst hc)
  | unsubscribed f v₁ v₂ hc hs =>
    refine hanswer f ?_
    rintro rfl
    exact hf.subscribe v₁ (congrArg Prod.fst hs)

theorem connection_outcome (fuel : Nat) (d : Daemon σ) :
    let a := Act.run (h.connection w fuel) d
    ∃ xs, h.Connecting w d xs a.1 a.2 ∧ Link.Spent h w fuel ⟨xs, a.1⟩ := by
  rw [connection, run_bind, run_enter]
  simp only
  rw [run_bind]
  obtain ⟨r, v, hrun, ho⟩ := h.openStream_outcome (h.entered .connecting d)
  rw [hrun]
  rcases r with f | stream
  · refine ⟨[], .unopened f v ho, fun hbroken hf => ?_⟩
    cases hbroken
    exact absurd rfl (ho.finishes w hf)
  · simp only
    rw [run_bind, run_ask]
    rcases ht : h.onCancel stream v with ⟨token, v'⟩
    obtain ⟨xs, hl, hspent⟩ := h.listen_outcome w fuel stream ⟨(h.entered .connecting d).core, v'⟩
    have hc := Connecting.opened stream token v v' xs _ _ ho ht hl
    simp only
    rw [run_bind, run_attempt]
    generalize Act.run (h.listen w fuel stream) ⟨(h.entered .connecting d).core, v'⟩ = a
      at hc hspent ⊢
    obtain ⟨r, d'⟩ := a
    cases token with
    | none => exact ⟨xs, hc, hspent⟩
    | some t => exact ⟨xs, hc, hspent⟩

/-! ### Runs -/

/-- A daemon that lost a connection and is going to wait. -/
def awaiting (m : String) (d : Daemon σ) : Daemon σ :=
  let d := h.bereft d
  let delay := d.core.settings.reconnectDelay
  ⟨d.core, h.log ⟨.error, s!"Event listener failed, retrying in {delay.textOneDecimal}s: {m}"⟩
    d.outside⟩

/-- What follows the loss of a connection. -/
inductive Retrying (m : String) (d : Daemon σ) : Except Failure Bool → Daemon σ → Prop
  | overtaken (hc : h.cancelled d.outside = true) : Retrying m d (.ok false) d
  | gaveUp (n : Int) (hc : h.cancelled d.outside = false)
    (hg : Host.gaveUp (h.bereft d).core = some n) :
    Retrying m d (.error (.stream m)) ⟨(h.bereft d).core,
      h.log ⟨.error, s!"Giving up after {n} reconnect attempts: {m}"⟩ (h.bereft d).outside⟩
  | unslept (f : Failure) (d' : Daemon σ) (hc : h.cancelled d.outside = false)
    (hg : Host.gaveUp (h.bereft d).core = none)
    (hs : w.sleep (h.bereft d).core.settings.reconnectDelay (h.awaiting m d) = (.error f, d')) :
    Retrying m d (.error f) d'
  | woken (d' : Daemon σ) (hc : h.cancelled d.outside = false)
    (hg : Host.gaveUp (h.bereft d).core = none)
    (hs : w.sleep (h.bereft d).core.settings.reconnectDelay (h.awaiting m d) = (.ok false, d')) :
    Retrying m d (.ok false) d'
  | slept (d' : Daemon σ) (hc : h.cancelled d.outside = false)
    (hg : Host.gaveUp (h.bereft d).core = none)
    (hs : w.sleep (h.bereft d).core.settings.reconnectDelay (h.awaiting m d) = (.ok true, d')) :
    Retrying m d (.ok true) ⟨{ d'.core with reconnects := d'.core.reconnects + 1 }, d'.outside⟩

theorem retry_outcome (m : String) (d : Daemon σ) :
    h.Retrying w m d (Act.run (h.retry w m) d).1 (Act.run (h.retry w m) d).2 := by
  rw [retry, run_bind, run_isCancelled]
  cases hc : h.cancelled d.outside with
  | true => exact .overtaken hc
  | false =>
    simp only [Bool.false_eq_true, if_false]
    rw [run_bind, run_modifyCore]
    simp only
    rw [run_bind, run_enter]
    simp only
    rw [run_bind, run_core]
    simp only
    rw [show h.entered .disconnected ⟨{ d.core with failures := d.core.failures + 1 }, d.outside⟩
      = h.bereft d from rfl]
    cases hg : Host.gaveUp (h.bereft d).core with
    | some n => exact .gaveUp n hc hg
    | none =>
      simp only
      rw [run_bind, run_note]
      change h.Retrying w m d (Act.run _ (h.awaiting m d)).1 (Act.run _ (h.awaiting m d)).2
      rw [run_bind, run_ofStep]
      rcases hs : w.sleep (h.bereft d).core.settings.reconnectDelay (h.awaiting m d) with
        ⟨f | _ | _, d'⟩
      · exact .unslept f d' hc hg hs
      · exact .woken d' hc hg hs
      · exact .slept d' hc hg hs

/-- What a run comes to from the loop's head on: its connections, its result, and the daemon that is
left. -/
inductive Course : Daemon σ → List (Link σ) → Except Failure Unit → Daemon σ → Prop
  | unfinished (d : Daemon σ) : Course d [] (.error .unfinished) d
  | overtaken (d : Daemon σ) (hc : h.cancelled d.outside = true) : Course d [] (.ok ()) d
  | again (d d₁ d' : Daemon σ) (xs : List (Delivery σ)) (ls : List (Link σ))
    (r : Except Failure Unit) (hc : h.cancelled d.outside = false)
    (hn : h.Connecting w d xs (.ok ()) d₁) (hrest : Course d₁ ls r d') :
    Course d (⟨xs, .ok ()⟩ :: ls) r d'
  | retried (d d₁ d₂ d' : Daemon σ) (m : String) (xs : List (Delivery σ)) (ls : List (Link σ))
    (r : Except Failure Unit) (hc : h.cancelled d.outside = false)
    (hn : h.Connecting w d xs (.error (.stream m)) d₁) (hr : h.Retrying w m d₁ (.ok true) d₂)
    (hrest : Course d₂ ls r d') : Course d (⟨xs, .error (.stream m)⟩ :: ls) r d'
  | left (d d₁ d' : Daemon σ) (m : String) (xs : List (Delivery σ))
    (hc : h.cancelled d.outside = false) (hn : h.Connecting w d xs (.error (.stream m)) d₁)
    (hr : h.Retrying w m d₁ (.ok false) d') : Course d [⟨xs, .error (.stream m)⟩] (.ok ()) d'
  | gaveUp (d d₁ d' : Daemon σ) (m : String) (f : Failure) (xs : List (Delivery σ))
    (hc : h.cancelled d.outside = false) (hn : h.Connecting w d xs (.error (.stream m)) d₁)
    (hr : h.Retrying w m d₁ (.error f) d') : Course d [⟨xs, .error (.stream m)⟩] (.error f) d'
  | failed (d d' : Daemon σ) (f : Failure) (xs : List (Delivery σ))
    (hc : h.cancelled d.outside = false) (hn : h.Connecting w d xs (.error f) d')
    (hf : ∀ m, f ≠ .stream m) : Course d [⟨xs, .error f⟩] (.error f) d'

/-- Where a course of `n` connections with `fuel` events each was broken off: after its last
connection, in it, after the last of its events, or in a sleep. -/
def BrokenOff (fuel n : Nat) (ls : List (Link σ)) : Prop :=
  ls.length = n ∨
    (∃ l, ls.getLast? = some l ∧ l.result = .error .unfinished ∧
      (Conclusive h w → l.delivered.length = fuel)) ∨
    ∃ x d d', w.sleep x d = (.error .unfinished, d')

variable {h w} in
theorem BrokenOff.cons {fuel n : Nat} {ls : List (Link σ)} (hb : BrokenOff h w fuel n ls)
    (l : Link σ) : BrokenOff h w fuel (n + 1) (l :: ls) := by
  rcases hb with hlen | ⟨k, hk, hl⟩ | hsleep
  · exact .inl (congrArg (· + 1) hlen)
  · cases ls with
    | nil => cases hk
    | cons a ls => exact .inr (.inl ⟨k, by rw [List.getLast?_cons_cons, hk], hl⟩)
  · exact .inr (.inr hsleep)

/-- Of `n` connections with `fuel` events each, all connections were made, or all events were
delivered to the last one that was. -/
def UsedUp (fuel n : Nat) (ls : List (Link σ)) : Prop :=
  ls.length = n ∨
    ∃ l, ls.getLast? = some l ∧ l.result = .error .unfinished ∧ l.delivered.length = fuel

variable {h w} in
theorem BrokenOff.usedUp {fuel n : Nat} {ls : List (Link σ)} (hb : BrokenOff h w fuel n ls)
    (hf : Conclusive h w) :
    UsedUp fuel n ls ∨ ∃ x d d', w.sleep x d = (.error .unfinished, d') := by
  rcases hb with hall | ⟨l, hl, hr, hspent⟩ | hsleep
  · exact .inl (.inl hall)
  · exact .inl (.inr ⟨l, hl, hr, hspent hf⟩)
  · exact .inr hsleep

theorem connections_outcome (fuel n : Nat) (d : Daemon σ) :
    let a := Act.run (h.connections w fuel n) d
    ∃ ls, h.Course w d ls a.1 a.2 ∧
      (a.1 = .error .unfinished → BrokenOff h w fuel n ls) := by
  induction n generalizing d with
  | zero => exact ⟨[], .unfinished d, fun _ => .inl rfl⟩
  | succ n ih =>
    rw [connections, run_bind, run_isCancelled]
    cases hc : h.cancelled d.outside with
    | true => exact ⟨[], .overtaken d hc, nofun⟩
    | false =>
      simp only [Bool.false_eq_true, if_false]
      rw [run_bind, run_attempt]
      obtain ⟨xs, hn, hspent⟩ := h.connection_outcome w fuel d
      generalize Act.run (h.connection w fuel) d = a at hn hspent ⊢
      obtain ⟨f | _, d₁⟩ := a
      · simp only
        split
        · contradiction
        · rename_i m heq
          cases heq
          rw [run_bind]
          have hr := h.retry_outcome w m d₁
          generalize Act.run (h.retry w m) d₁ = b at hr ⊢
          obtain ⟨f | _ | _, d₂⟩ := b
          · refine ⟨_, .gaveUp d d₁ d₂ m f xs hc hn hr, fun hf => ?_⟩
            cases hf
            cases hr with
            | unslept f d' hc hg hs => exact .inr (.inr ⟨_, _, _, hs⟩)
          · exact ⟨_, .left d d₁ d₂ m xs hc hn hr, nofun⟩
          · obtain ⟨ls, hrest, hbroken⟩ := ih d₂
            exact ⟨_, .retried d d₁ d₂ _ m xs ls _ hc hn hr hrest, fun hf => (hbroken hf).cons _⟩
        · rename_i f hf heq
          cases heq
          exact ⟨_, .failed d d₁ _ xs hc hn hf, fun hr => .inr (.inl ⟨_, rfl, hr, hspent hr⟩)⟩
      · obtain ⟨ls, hrest, hbroken⟩ := ih d₁
        exact ⟨_, .again d d₁ _ xs ls _ hc hn hrest, fun hf => (hbroken hf).cons _⟩

/-- A run makes its connections, and concludes. -/
theorem run_run (fuel : Nat) (d : Daemon σ) :
    Act.run (h.run w fuel) d =
      let a := Act.run (h.connections w fuel fuel) ⟨{ d.core with failures := 0 }, d.outside⟩
      (a.1, h.concluded a.2) := by
  rw [run, run_bind, run_modifyCore]
  simp only
  rw [run_bind, run_attempt]
  simp only
  rw [run_bind, run_effect]
  simp only
  rw [run_bind, run_enter]
  rfl

/-- Every run has a course, and concludes. It is broken off only where its rounds are used up. -/
theorem run_outcome (fuel : Nat) (d : Daemon σ) :
    ∃ ls r d', h.Course w ⟨{ d.core with failures := 0 }, d.outside⟩ ls r d' ∧
      Act.run (h.run w fuel) d = (r, h.concluded d') ∧
      (r = .error .unfinished → BrokenOff h w fuel fuel ls) := by
  obtain ⟨ls, hc, hbroken⟩ :=
    h.connections_outcome w fuel fuel ⟨{ d.core with failures := 0 }, d.outside⟩
  exact ⟨ls, _, _, hc, h.run_run w fuel d, hbroken⟩

/-! ### What holds along a run -/

/-- What holds of the pool and the record at any time of a run, and what holds from a reconciliation
on for as long as the connection lasts. -/
structure Carries (P Q : Core → Prop) : Prop where
  congr : ∀ c c', c'.pool = c.pool → c'.store = c.store → P c → P c'
  weaken : ∀ c, Q c → P c
  reconcile : ∀ d, P d.core → Q (h.serve d .reconcile).core
  congrQ : ∀ c c', c'.pool = c.pool → c'.store = c.store → Q c → Q c'
  handle : ∀ e d, Q d.core → Q (h.serve d (.handle e)).core

theorem entered_pool (p : Phase) (d : Daemon σ) : (h.entered p d).core.pool = d.core.pool := by
  unfold entered
  split
  · rfl
  · rfl

theorem entered_store (p : Phase) (d : Daemon σ) : (h.entered p d).core.store = d.core.store := by
  unfold entered
  split
  · rfl
  · rfl

section Along

variable {h} {w} {P Q : Core → Prop} (hk : h.Carries P Q) (hw : w.Apart)

include hk

theorem Carries.entered (p : Phase) (d : Daemon σ) (hd : P d.core) : P (h.entered p d).core :=
  hk.congr d.core _ (h.entered_pool p d) (h.entered_store p d) hd

theorem Carries.attending (d : Daemon σ) (hd : Q d.core) : Q (h.attending d).core :=
  hk.congrQ d.core _ (h.entered_pool .listening d) (h.entered_store .listening d) hd

theorem Carries.bereft (d : Daemon σ) (hd : P d.core) : P (h.bereft d).core :=
  hk.entered .disconnected ⟨{ d.core with failures := d.core.failures + 1 }, d.outside⟩
    (hk.congr d.core _ rfl rfl hd)

include hw

theorem Receiving.carries {stream position : Nat} {d d' : Daemon σ} {xs : List (Delivery σ)}
    {r : Except Failure Unit} (hx : h.Receiving w stream position d xs r d') (hd : Q d.core) :
    Q d'.core ∧ ∀ x ∈ xs, Q x.daemon.core := by
  have hnext : ∀ {position d a d'}, w.next stream position d = (a, d') → Q d.core → Q d'.core := by
    intro position d a d' hn hd
    rw [hw.next_core hn]
    exact hd
  induction hx with
  | unfinished position d => exact ⟨hd, fun _ hm => absurd hm List.not_mem_nil⟩
  | broken position d d' f hn => exact ⟨hnext hn hd, fun _ hm => absurd hm List.not_mem_nil⟩
  | ended position d d' hn hc => exact ⟨hnext hn hd, fun _ hm => absurd hm List.not_mem_nil⟩
  | closed position d d' hn hc => exact ⟨hnext hn hd, fun _ hm => absurd hm List.not_mem_nil⟩
  | last position behind d x hn hc =>
    have hx := hnext hn hd
    exact ⟨hk.handle x.event x.daemon hx, List.forall_mem_singleton.mpr hx⟩
  | delivered position behind d d' x xs r hn hc hrest ih =>
    have hx := hnext hn hd
    obtain ⟨hd', hxs⟩ := ih (hk.handle x.event x.daemon hx)
    exact ⟨hd', List.forall_mem_cons.mpr ⟨hx, hxs⟩⟩

theorem Listening.carries {stream : Nat} {d d' : Daemon σ} {xs : List (Delivery σ)}
    {r : Except Failure Unit} (hl : h.Listening w stream d xs r d') (hd : P d.core) :
    P d'.core ∧ ∀ x ∈ xs, Q x.daemon.core := by
  have hreconcile : ∀ {a d'}, Act.run h.reconcile (h.entered .reconciling d) = (a, d') →
      Q d'.core := by
    intro a d' hr
    have hq := hk.reconcile _ (hk.entered .reconciling d hd)
    rw [serve, hr] at hq
    exact hq
  cases hl with
  | unreconciled f d' hr =>
    exact ⟨hk.weaken _ (hreconcile hr), fun _ hm => absurd hm List.not_mem_nil⟩
  | overtaken report d' hr hc =>
    exact ⟨hk.weaken _ (hreconcile hr), fun _ hm => absurd hm List.not_mem_nil⟩
  | listened report d₁ d' xs r hr hc hx =>
    obtain ⟨hd', hxs⟩ := hx.carries hk hw (hk.attending d₁ (hreconcile hr))
    exact ⟨hk.weaken _ hd', hxs⟩

theorem Connecting.carries {d d' : Daemon σ} {xs : List (Delivery σ)} {r : Except Failure Unit}
    (hn : h.Connecting w d xs r d') (hd : P d.core) : P d'.core ∧ ∀ x ∈ xs, Q x.daemon.core := by
  have henter := hk.entered .connecting d hd
  cases hn with
  | unopened f v ho => exact ⟨henter, fun _ hm => absurd hm List.not_mem_nil⟩
  | opened stream token v v' xs r d' ho ht hl => exact hl.carries hk hw henter

theorem Retrying.carries {m : String} {d d' : Daemon σ} {r : Except Failure Bool}
    (hr : h.Retrying w m d r d') (hd : P d.core) : P d'.core := by
  have hb := hk.bereft d hd
  have hslept : ∀ {a d'}, w.sleep (h.bereft d).core.settings.reconnectDelay (h.awaiting m d) =
      (a, d') → P d'.core := by
    intro a d' hs
    rw [hw.sleep_core hs]
    exact hb
  cases hr with
  | overtaken hc => exact hd
  | gaveUp n hc hg => exact hb
  | unslept f d' hc hg hs => exact hslept hs
  | woken d' hc hg hs => exact hslept hs
  | slept d' hc hg hs => exact hk.congr d'.core _ rfl rfl (hslept hs)

theorem Course.carries {d d' : Daemon σ} {ls : List (Link σ)} {r : Except Failure Unit}
    (hc : h.Course w d ls r d') (hd : P d.core) :
    P d'.core ∧ ∀ l ∈ ls, ∀ x ∈ l.delivered, Q x.daemon.core := by
  induction hc with
  | unfinished d => exact ⟨hd, fun _ hm => absurd hm List.not_mem_nil⟩
  | overtaken d hc => exact ⟨hd, fun _ hm => absurd hm List.not_mem_nil⟩
  | again d d₁ d' xs ls r hc hn hrest ih =>
    obtain ⟨hd₁, hxs⟩ := hn.carries hk hw hd
    obtain ⟨hd', hls⟩ := ih hd₁
    exact ⟨hd', List.forall_mem_cons.mpr ⟨hxs, hls⟩⟩
  | retried d d₁ d₂ d' m xs ls r hc hn hr hrest ih =>
    obtain ⟨hd₁, hxs⟩ := hn.carries hk hw hd
    obtain ⟨hd', hls⟩ := ih (hr.carries hk hw hd₁)
    exact ⟨hd', List.forall_mem_cons.mpr ⟨hxs, hls⟩⟩
  | left d d₁ d' m xs hc hn hr =>
    obtain ⟨hd₁, hxs⟩ := hn.carries hk hw hd
    exact ⟨hr.carries hk hw hd₁, List.forall_mem_singleton.mpr hxs⟩
  | gaveUp d d₁ d' m f xs hc hn hr =>
    obtain ⟨hd₁, hxs⟩ := hn.carries hk hw hd
    exact ⟨hr.carries hk hw hd₁, List.forall_mem_singleton.mpr hxs⟩
  | failed d d' f xs hc hn hf =>
    obtain ⟨hd', hxs⟩ := hn.carries hk hw hd
    exact ⟨hd', List.forall_mem_singleton.mpr hxs⟩

end Along

end Host

end LayerQuota
