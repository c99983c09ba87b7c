import LayerQuota.Proofs.Charted
import LayerQuota.Proofs.Daemon.Sustained
/-!
# A run leaves nothing behind

However a run ends, each stream that it subscribed to was closed after that, the gateway holds no
client, the daemon is stopped, and of the callbacks of its scope there are those that were there
before, or none if the scope was cancelled.
-/

namespace LayerQuota

/-! ### Scopes -/

/-- A scope as it comes about: one that was cancelled keeps no callback, and no token is given out
twice. -/
structure CancelScope.Orderly {κ : Type} (s : CancelScope κ) : Prop where
  spent : s.cancelled = true → s.pending = []
  fresh : ∀ p ∈ s.pending, p.1 < s.nextToken

namespace CancelScope

variable {κ : Type} {s : CancelScope κ}

theorem orderly_fresh : (fresh : CancelScope κ).Orderly :=
  ⟨nofun, fun _ hm => absurd hm List.not_mem_nil⟩

theorem Orderly.trip (hs : s.Orderly) : s.trip.2.Orderly := by
  unfold CancelScope.trip
  split
  · exact hs
  · exact ⟨fun _ => rfl, fun _ hm => absurd hm List.not_mem_nil⟩

theorem Orderly.unregister (hs : s.Orderly) (token : Nat) : (s.unregister token).Orderly := by
  refine ⟨fun hc => ?_, fun p hp => hs.fresh p (List.mem_filter.mp hp).1⟩
  show s.pending.filter _ = []
  rw [hs.spent hc, List.filter_nil]

theorem register_spent (hc : s.cancelled = true) (callback : κ) :
    s.register callback = (none, { s with nextToken := s.nextToken + 1 }) :=
  if_pos hc

theorem register_open (hc : s.cancelled = false) (callback : κ) :
    s.register callback = (some s.nextToken, { s with
      nextToken := s.nextToken + 1
      pending := s.pending ++ [(s.nextToken, callback)] }) :=
  if_neg (by rw [hc]; exact Bool.false_ne_true)

theorem Orderly.register (hs : s.Orderly) (callback : κ) : (s.register callback).2.Orderly := by
  have hnext : ∀ p ∈ s.pending, p.1 < s.nextToken + 1 := by
    intro p hp
    have hlt := hs.fresh p hp
    omega
  cases hc : s.cancelled with
  | true =>
    rw [register_spent hc]
    exact ⟨hs.spent, hnext⟩
  | false =>
    rw [register_open hc]
    refine ⟨fun hc' => absurd (hc.symm.trans hc') Bool.false_ne_true, fun p hp => ?_⟩
    rcases List.mem_append.mp hp with hp | hp
    · exact hnext p hp
    · rw [List.mem_singleton.mp hp]
      exact Nat.lt_succ_self s.nextToken

end CancelScope

namespace Station

variable {τ : Type} {o : Outside τ}

/-! ### What is held -/

/-- The station holds streams at most that are in a list, and of callbacks, unless the scope was
cancelled, those of before and its own. -/
structure Holds (before own : List (Nat × Callback)) (streams : List Nat)
    (st : Station (τ × List StreamNote)) : Prop where
  streams : (unclosed st.outside.2).Sublist streams
  pending : st.scope.pending = if st.scope.cancelled then [] else before ++ own
  fresh : ∀ p ∈ before, p.1 < st.scope.nextToken

variable {before own : List (Nat × Callback)} {streams : List Nat}
  {st st' : Station (τ × List StreamNote)}

theorem Holds.lull (hd : Holds before own streams st) (hl : Lull st st') :
    Holds before own streams st' := by
  have hstreams := hl.chart.sublist.trans hd.streams
  rcases hl.scope with hscope | hscope
  · exact ⟨hstreams, by rw [hscope]; exact hd.pending, by rw [hscope]; exact hd.fresh⟩
  · exact ⟨hstreams, by rw [hscope]; rfl, by rw [hscope]; exact hd.fresh⟩

theorem Holds.logged (hd : Holds before own streams st) (l : Line) :
    Holds before own streams (st.log l) :=
  hd.lull (log_lull l st)

theorem Holds.subscribed {stream : Nat} (hd : Holds before own [] st)
    (hs : st.subscribe o.charted = (.ok stream, st')) : Holds before own [stream] st' := by
  obtain ⟨st₁, v, hbefore, hopen, hafter⟩ := subscribe_opens hs
  have hd₁ := hd.lull hbefore
  have hopened : Holds before own [stream] { st₁ with outside := v } := by
    refine ⟨?_, hd₁.pending, hd₁.fresh⟩
    show (unclosed v.2).Sublist [stream]
    rw [hopen, unclosed_snoc]
    exact hd₁.streams.cons_cons stream
  exact hopened.lull hafter

theorem Holds.closed {stream : Nat} (hd : Holds before own [stream] st) :
    Holds before own [] (st.closeStream o.charted stream) := by
  have hlull := hd.lull (closeStream_lull (o := o) stream)
  refine ⟨?_, hlull.pending, hlull.fresh⟩
  obtain ⟨chart, hbefore, hafter⟩ := closeStreamWith_closes (o := o) takeSignal_lull stream st
  -- a callback may have closed the stream already
  have hnone : (unclosed chart).erase stream = [] := by
    rcases List.sublist_singleton.mp (hbefore.sublist.trans hd.streams) with h | h
    · rw [h, List.erase_nil]
    · rw [h, List.erase_cons_head]
  have hsub := hafter.sublist
  rw [unclosed_snoc] at hsub
  exact hnone ▸ hsub

def ownCallback (stream : Nat) (token : Option Nat) : List (Nat × Callback) :=
  token.toList.map fun t => (t, .closeStream stream)

theorem Holds.registered {stream : Nat} {token : Option Nat} (hd : Holds before [] streams st)
    (ht : st.onCancel o.charted stream = (token, st')) :
    Holds before (ownCallback stream token) streams st' ∧
      ∀ t, token = some t → ∀ p ∈ before, p.1 < t := by
  have hnext : ∀ p ∈ before, p.1 < st.scope.nextToken + 1 := by
    intro p hp
    have hlt := hd.fresh p hp
    omega
  have hpending := hd.pending
  cases hc : st.scope.cancelled with
  | true =>
    have hcounted : Holds before [] streams
        { st with scope := { st.scope with nextToken := st.scope.nextToken + 1 } } :=
      ⟨hd.streams, hpending, hnext⟩
    rw [onCancel, CancelScope.register_spent hc] at ht
    cases ht
    exact ⟨hcounted.lull (closeStream_lull stream), nofun⟩
  | false =>
    rw [onCancel, CancelScope.register_open hc] at ht
    cases ht
    refine ⟨⟨hd.streams, ?_, hnext⟩, fun t ht => ?_⟩
    · show st.scope.pending ++ [_] = if st.scope.cancelled then [] else before ++ [_]
      rw [hpending, hc]
      simp only [Bool.false_eq_true, if_false, List.append_nil]
    · cases ht
      exact hd.fresh

theorem Holds.unregistered {stream t : Nat}
    (hd : Holds before (ownCallback stream (some t)) streams st)
    (hbefore : ∀ p ∈ before, p.1 < t) : Holds before [] streams (st.unregister t) := by
  refine ⟨hd.streams, ?_, hd.fresh⟩
  show st.scope.pending.filter _ = if st.scope.cancelled then [] else _
  rw [hd.pending]
  cases st.scope.cancelled with
  | true => rfl
  | false =>
    have hkept : before.filter (·.1 != t) = before := by
      refine List.filter_eq_self.mpr fun p hp => ?_
      exact bne_iff_ne.mpr (Nat.ne_of_lt (hbefore p hp))
    have hgone : (ownCallback stream (some t)).filter (·.1 != t) = [] := by
      simp [ownCallback]
    simp only [Bool.false_eq_true, if_false, List.filter_append, hkept, hgone]

end Station

namespace Host

open LayerQuota.Station

variable {τ : Type} {o : Outside τ} {w : Waits (Station (τ × List StreamNote))}
  {before own : List (Nat × Callback)} {streams : List Nat}

theorem station_attends
    (hnext : ∀ stream position d, Lull d.outside (w.next stream position d).2.outside) :
    (Station.host o.charted).Attends w (Holds before own streams) where
  log l _ _ hd := hd.logged l
  save path text st hd := hd.lull (callFile_lull .save st (onFirst_unnoted (o.save path text)))
  tag dir id st _ hd := hd.lull (callLogged_lull .tag st (onFirst_unnoted (o.tag dir id)))
  setLimit id soft hard st _ hd :=
    hd.lull (callLogged_lull .setLimit st (onFirst_unnoted (o.setLimit id soft hard)))
  list st hd := hd.lull (list_lull st)
  resolve c st hd := hd.lull (resolve_lull st (.text c))
  isPresent dir st hd := hd.lull (call_lull .isPresent st (onFirst_unnoted (o.isPresent dir)))
  readTag dir st hd := hd.lull (callLogged_lull .readTag st (onFirst_unnoted (o.readTag dir)))
  clear id st hd :=
    hd.lull (callLogged_lull .setLimit st (onFirst_unnoted (o.setLimit id noLimit noLimit)))
  line l _ hd := hd.logged l
  next stream position d hd := hd.lull (hnext stream position d)

theorem Opening.fails {st st' : Station (τ × List StreamNote)} {f : Failure}
    (ho : (Station.host o.charted).Opening st (.error f) st') : Lull st st' := by
  generalize hr : (Except.error f : Except Failure Nat) = r at ho
  have hhang : ∀ (b : Bool) (st₁ : Station (τ × List StreamNote)),
      Lull st₁ (if b then (Station.host o.charted).disconnect st₁ else st₁) := by
    intro b st₁
    cases b with
    | true => exact disconnect_lull st₁
    | false => exact .refl st₁
  cases ho with
  | opened stream st₁ st₂ hc hs => cases hr
  | unconnected g st₁ hc =>
    have hconnect : Lull st st₁ := (connect_lull st).landed hc
    exact hconnect.trans (hhang g.isOwn st₁)
  | unsubscribed g st₁ st₂ hc hs =>
    have hconnect : Lull st st₁ := (connect_lull st).landed hc
    exact (hconnect.trans (subscribe_fails hs)).trans (hhang g.isOwn st₂)

theorem Opening.opens {st st' : Station (τ × List StreamNote)} {stream : Nat}
    (ho : (Station.host o.charted).Opening st (.ok stream) st') (hd : Holds before own [] st) :
    Holds before own [stream] st' := by
  cases ho with
  | opened stream st₁ st₂ hc hs =>
    have hconnect : Lull st st₁ := (connect_lull st).landed hc
    exact (hd.lull hconnect).subscribed hs

theorem hungUp_holds {stream : Nat} {token : Option Nat} {st : Station (τ × List StreamNote)}
    (hd : Holds before (ownCallback stream token) [stream] st)
    (htoken : ∀ t, token = some t → ∀ p ∈ before, p.1 < t) :
    Holds before [] [] ((Station.host o.charted).hungUp stream token st) := by
  have hclose : ∀ st₁ : Station (τ × List StreamNote), Holds before [] [stream] st₁ →
      Holds before [] [] ((st₁.closeStream o.charted stream).disconnect o.charted) := fun st₁ h₁ =>
    h₁.closed.lull (disconnect_lull _)
  cases token with
  | none => exact hclose st hd
  | some t => exact hclose (st.unregister t) (hd.unregistered (htoken t rfl))

/-- A connection takes back what it registered, and closes what it opened. -/
theorem Connecting.holds
    (hnext : ∀ stream position d, Lull d.outside (w.next stream position d).2.outside)
    {d d' : Daemon (Station (τ × List StreamNote))}
    {xs : List (Delivery (Station (τ × List StreamNote)))} {r : Except Failure Unit}
    (hn : (Station.host o.charted).Connecting w d xs r d') (hd : Holds before [] [] d.outside) :
    Holds before [] [] d'.outside := by
  have henter : Holds before [] [] ((Station.host o.charted).entered .connecting d).outside :=
    entered_kept (fun l _ hst => hst.logged l) .connecting d hd
  cases hn with
  | unopened f st ho => exact henter.lull ho.fails
  | opened stream token st st' xs r d' ho ht hl =>
    obtain ⟨hregister, htoken⟩ := (ho.opens henter).registered ht
    exact hungUp_holds ((station_attends hnext).listening hl hregister) htoken

theorem Retrying.holds
    (hsleep : ∀ seconds d, Lull d.outside (w.sleep seconds d).2.outside) {m : String}
    {d d' : Daemon (Station (τ × List StreamNote))} {r : Except Failure Bool}
    (hr : (Station.host o.charted).Retrying w m d r d') (hd : Holds before [] [] d.outside) :
    Holds before [] [] d'.outside := by
  have hlost : Holds before [] [] ((Station.host o.charted).bereft d).outside :=
    bereft_kept (fun l _ hst => hst.logged l) d hd
  have hslept : ∀ {x a d'}, w.sleep x ((Station.host o.charted).awaiting m d) = (a, d') →
      Holds before [] [] d'.outside := by
    intro x a d' hs
    have hlull := hsleep x ((Station.host o.charted).awaiting m d)
    rw [hs] at hlull
    exact (hlost.logged _).lull hlull
  cases hr with
  | overtaken hc => exact hd
  | gaveUp n hc hg => exact hlost.logged _
  | unslept f d' hc hg hs => exact hslept hs
  | woken d' hc hg hs => exact hslept hs
  | slept d' hc hg hs =>
    have hd' := hslept hs
    exact hd'

theorem concluded_client (d : Daemon (Station (τ × List StreamNote))) :
    ((Station.host o.charted).concluded d).outside.gateway.client = none := by
  have hlog : ∀ l (st : Station (τ × List StreamNote)), st.gateway.client = none →
      ((Station.host o.charted).log l st).gateway.client = none := by
    intro l st hnone
    show (st.log l).gateway.client = none
    unfold Station.log
    split
    · exact hnone
    · exact hnone
  -- after the client is closed only lines are written
  have hstop := entered_kept hlog .stopped ⟨d.core, d.outside.disconnect o.charted⟩
    (disconnect_client d.outside)
  exact hlog _ _ hstop

/-! ### Runs -/

/-- However a run ends, after it no stream is open that it subscribed to, the gateway has no client,
the daemon is stopped, and the scope keeps the callbacks of before, or none if it was cancelled. All
that is said of the looks at a stream and of the sleeps is that they are lulls. -/
theorem run_leaves_nothing (o : Outside τ)
    (pull : Nat → Nat → Daemon (Station (τ × List StreamNote)) →
      Pulled × Daemon (Station (τ × List StreamNote)))
    (patience : Nat)
    (sleep : Number.Binary64 → Daemon (Station (τ × List StreamNote)) →
      Except Failure Bool × Daemon (Station (τ × List StreamNote)))
    (hpull : ∀ stream position d, Lull d.outside (pull stream position d).2.outside)
    (hsleep : ∀ seconds d, Lull d.outside (sleep seconds d).2.outside) (core : Core)
    (st : Station (τ × List StreamNote)) (hscope : st.scope.Orderly)
    (hchart : unclosed st.outside.2 = []) (fuel : Nat) :
    let w : Waits (Station (τ × List StreamNote)) :=
      ⟨fun stream => EventStream.next o.charted pull stream patience, sleep⟩
    let last := (Act.run ((Station.host o.charted).run w fuel) ⟨core, st⟩).2
    unclosed last.outside.outside.2 = [] ∧ last.outside.gateway.client = none ∧
      last.core.phase = .stopped ∧
      last.outside.scope.pending =
        if last.outside.scope.cancelled then [] else st.scope.pending := by
  intro w last
  have hnext : ∀ stream position d, Lull d.outside (w.next stream position d).2.outside :=
    fun stream position d => EventStream.next_lull hpull stream patience position d
  obtain ⟨ls, r, d', hc, hrun, -⟩ := (Station.host o.charted).run_outcome w fuel ⟨core, st⟩
  have hlast : last = (Station.host o.charted).concluded d' := congrArg Prod.snd hrun
  have hstart : Holds st.scope.pending [] [] st := by
    refine ⟨by rw [hchart], ?_, hscope.fresh⟩
    cases hcancel : st.scope.cancelled with
    | true => exact hscope.spent hcancel
    | false => exact (List.append_nil _).symm
  have hend : Holds st.scope.pending [] [] d'.outside :=
    hc.kept (fun _ hn => hn.holds hnext) (fun hr => hr.holds hsleep) hstart
  have hconclude : Holds st.scope.pending [] [] last.outside := by
    rw [hlast]
    exact concluded_kept (fun l _ hd => hd.logged l) (fun _ hd => hd.lull (disconnect_lull _)) d'
      hend
  have hpending := hconclude.pending
  rw [List.append_nil] at hpending
  refine ⟨List.sublist_nil.mp hconclude.streams, ?_, ?_, hpending⟩
  · rw [hlast]
    exact concluded_client d'
  · rw [hlast]
    exact entered_phase .stopped _

def stubborn : Outside Unit where
  interrupt _ _ := (false, ())
  makeClient _ _ _ := (.ok 1, ())
  ping _ _ := (.ok (), ())
  closeClient _ _ := (.error (.runtime "connection reset"), ())
  list _ _ := (.ok [], ())
  inspect _ _ _ := (.error (.runtime "no such container"), ())
  info _ _ := (.error (.runtime "not found"), ())
  events _ _ := (.ok 0, ())
  closeStream _ _ := (.error (.runtime "connection reset"), ())
  tag _ _ _ := ((.ok (), []), ())
  setLimit _ _ _ _ := ((.ok (), []), ())
  readTag _ _ := ((.ok 0, []), ())
  isPresent _ _ := (.ok false, ())
  read path _ := (.error (.noSuchFile [path]), ())
  save _ _ _ := (.ok (), ())

theorem stubborn_run_leaves_nothing :
    -- the scope is cancelled while the daemon waits for the first event
    let pull : Nat → Nat → Daemon (Station (Unit × List StreamNote)) →
        Pulled × Daemon (Station (Unit × List StreamNote)) :=
      fun _ _ d => (.ended, { d with outside := d.outside.cancel stubborn.charted })
    let core := Core.opening ⟨"10g", "12g", .ofInt 5, some 3⟩ ⟨1, 2, []⟩ ⟨"", []⟩
    let scope := (CancelScope.fresh.register Callback.stopServer).2
    let st : Station (Unit × List StreamNote) :=
      ⟨⟨"/run/docker.sock", .whole 10, none⟩, scope, [], false, 0, [], (), []⟩
    st.scope.Orderly ∧ unclosed st.outside.2 = [] ∧
      let w : Waits (Station (Unit × List StreamNote)) :=
        ⟨fun stream => EventStream.next stubborn.charted pull stream 9, fun _ d => (.ok true, d)⟩
      let last := (Act.run ((Station.host stubborn.charted).run w 5) ⟨core, st⟩).2
      unclosed last.outside.outside.2 = [] ∧ last.outside.gateway.client = none ∧
        last.core.phase = .stopped ∧
        last.outside.scope.pending =
          if last.outside.scope.cancelled then [] else st.scope.pending := by
  intro pull core scope st
  have hscope : scope.Orderly := CancelScope.orderly_fresh.register Callback.stopServer
  have hchart : unclosed st.outside.2 = [] := rfl
  have hpull : ∀ stream position d, Lull d.outside (pull stream position d).2.outside :=
    fun _ _ d => cancel_lull d.outside
  have hrun := run_leaves_nothing stubborn pull 9 (fun _ d => (.ok true, d)) hpull
    (fun _ d => .refl d.outside) core st hscope hchart 5
  exact ⟨hscope, hchart, hrun⟩

end Host

end LayerQuota
