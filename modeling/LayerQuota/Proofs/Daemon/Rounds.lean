import LayerQuota.Proofs.Daemon.Failing
/-!
# More rounds

A run that was not broken off comes to the same with more rounds. Where nothing but a call that
waits or asks cancels the scope, a run is broken off with the scope cancelled only at its loop's
head, and with one round more it returns.
-/

namespace LayerQuota.Host

open LayerQuota.Act

variable {σ α β : Type} {h : Host σ} {w : Waits σ}

/-! ### The same with more rounds -/

/-- An act comes to what another comes to that is not broken off. -/
def Completes (x y : Act σ α) : Prop :=
  ∀ d, (Act.run x d).1 ≠ .error .unfinished → Act.run y d = Act.run x d

theorem Completes.refl (x : Act σ α) : Completes x x := fun _ _ => rfl

theorem Completes.bind {x x' : Act σ α} {f f' : α → Act σ β} (hx : Completes x x')
    (hf : ∀ a, Completes (f a) (f' a)) : Completes (x >>= f) (x' >>= f') := by
  intro d hd
  have hsame := hx d
  rw [run_bind] at hd ⊢
  rw [run_bind]
  generalize Act.run x d = a at hd hsame
  generalize Act.run x' d = a' at hsame ⊢
  obtain ⟨e | a, d₁⟩ := a
  · have hdone : (Except.error e : Except Failure α) ≠ .error .unfinished := by
      rintro heq
      cases heq
      exact hd rfl
    rw [hsame hdone]
  · rw [hsame nofun]
    exact hf a d₁ hd

theorem receive_more (stream fuel extra position : Nat) :
    Completes (h.receive w stream fuel position) (h.receive w stream (fuel + extra) position) := by
  induction fuel generalizing position with
  | zero => exact fun d hd => absurd rfl hd
  | succ fuel ih =>
    rw [Nat.add_right_comm]
    refine (Completes.refl _).bind fun a => ?_
    rcases a with _ | ⟨e, behind⟩
    · exact .refl _
    · refine (Completes.refl _).bind fun _ => (Completes.refl _).bind fun b => ?_
      cases b with
      | true => exact .refl _
      | false => exact ih behind

theorem listen_more (stream fuel extra : Nat) :
    Completes (h.listen w fuel stream) (h.listen w (fuel + extra) stream) := by
  refine (Completes.refl _).bind fun _ => (Completes.refl _).bind fun _ =>
    (Completes.refl _).bind fun b => ?_
  cases b with
  | true => exact .refl _
  | false =>
    exact (Completes.refl _).bind fun _ => (Completes.refl _).bind fun _ =>
      (Completes.refl _).bind fun _ => receive_more stream fuel extra 0

theorem connection_more (fuel extra : Nat) :
    Completes (h.connection w fuel) (h.connection w (fuel + extra)) := by
  refine (Completes.refl _).bind fun _ => (Completes.refl _).bind fun stream =>
    (Completes.refl _).bind fun token => ?_
  intro d hd
  have hlisten := listen_more (h := h) (w := w) stream fuel extra d
  rw [run_bind, run_attempt] at hd ⊢
  rw [run_bind, run_attempt]
  generalize Act.run (h.listen w fuel stream) d = a at hd hlisten ⊢
  -- what was broken off while listening was broken off altogether
  have hdone : a.1 ≠ .error .unfinished := by
    intro hbroken
    refine hd ?_
    obtain ⟨r, d₁⟩ := a
    cases hbroken
    cases token with
    | none => rfl
    | some t => rfl
  rw [hlisten hdone]

theorem connections_more (fuel n extra more : Nat) :
    Completes (h.connections w fuel n) (h.connections w (fuel + extra) (n + more)) := by
  induction n with
  | zero => exact fun d hd => absurd rfl hd
  | succ n ih =>
    rw [Nat.add_right_comm, connections, connections]
    refine (Completes.refl _).bind fun b => ?_
    cases b with
    | true =>
      simp only [if_true]
      exact .refl _
    | false =>
      intro d hd
      have hconnection := connection_more (h := h) (w := w) fuel extra d
      simp only [Bool.false_eq_true, if_false] at hd ⊢
      rw [run_bind, run_attempt] at hd ⊢
      rw [run_bind, run_attempt]
      generalize Act.run (h.connection w fuel) d = a at hd hconnection ⊢
      have hdone : a.1 ≠ .error .unfinished := by
        intro hbroken
        refine hd ?_
        obtain ⟨r, d₁⟩ := a
        cases hbroken
        rfl
      rw [hconnection hdone]
      obtain ⟨f | u, d₁⟩ := a
      · cases f with
        | stream m =>
          simp only at hd ⊢
          refine (Completes.refl (h.retry w m)).bind (fun again => ?_) d₁ hd
          cases again with
          | true =>
            simp only [if_true]
            exact ih
          | false =>
            simp only [Bool.false_eq_true, if_false]
            exact .refl _
        | _ => rfl
      · exact ih d₁ hd

/-! ### Broken off -/

/-- A scope that is not cancelled by what is noted, registered or closed. -/
structure Punctual (h : Host σ) : Prop where
  log : ∀ l v, h.cancelled v = false → h.cancelled (h.log l v) = false
  disconnect : ∀ v, h.cancelled v = false → h.cancelled (h.disconnect v) = false
  closeStream : ∀ n v, h.cancelled v = false → h.cancelled (h.closeStream n v) = false
  onCancel : ∀ n v, h.cancelled v = false → h.cancelled (h.onCancel n v).2 = false
  unregister : ∀ n v, h.cancelled v = false → h.cancelled (h.unregister n v) = false

section Punctual

variable (hp : h.Punctual)

include hp

theorem Punctual.entered (p : Phase) (d : Daemon σ) (hd : h.cancelled d.outside = false) :
    h.cancelled (h.entered p d).outside = false :=
  entered_kept hp.log p d hd

theorem Punctual.attending (d : Daemon σ) (hd : h.cancelled d.outside = false) :
    h.cancelled (h.attending d).outside = false :=
  attending_kept hp.log d hd

theorem Punctual.bereft (d : Daemon σ) (hd : h.cancelled d.outside = false) :
    h.cancelled (h.bereft d).outside = false :=
  bereft_kept hp.log d hd

theorem Punctual.hungUp (stream : Nat) (token : Option Nat) (v : σ)
    (hv : h.cancelled v = false) : h.cancelled (h.hungUp stream token v) = false :=
  hungUp_kept hp.disconnect hp.closeStream hp.unregister stream token v hv

theorem Punctual.concluded (d : Daemon σ) (hd : h.cancelled d.outside = false) :
    h.cancelled (h.concluded d).outside = false :=
  concluded_kept hp.log hp.disconnect d hd

omit hp in
theorem Documented.receiving_brokenOff (hg : Documented h w) {stream position : Nat}
    {d d' : Daemon σ} {xs : List (Delivery σ)} {r : Except Failure Unit}
    (hx : h.Receiving w stream position d xs r d') (hd : h.cancelled d.outside = false)
    (hr : r = .error .unfinished) : h.cancelled d'.outside = false := by
  induction hx with
  | unfinished position d => exact hd
  | broken position d d' f hn =>
    cases hr
    obtain ⟨m, hm⟩ := hg.next stream position d _ d' hn
    cases hm
  | ended position d d' hn hc => cases hr
  | closed position d d' hn hc => cases hr
  | last position behind d x hn hc => cases hr
  | delivered position behind d d' x xs r hn hc hrest ih => exact ih hc hr

/-- A connection is broken off only among its events, each of which looks at the scope first. -/
theorem Punctual.connecting_brokenOff (hg : Documented h w) {d d' : Daemon σ}
    {xs : List (Delivery σ)} (hn : h.Connecting w d xs (.error .unfinished) d')
    (hd : ∀ v, h.Able ⟨d.core, v⟩) : h.cancelled d'.outside = false := by
  cases hn with
  | unopened f v ho =>
    obtain ⟨m, hm⟩ := hg.opening_error ho
    cases hm
  | opened stream token v v' xs r d' ho ht hl =>
    refine hp.hungUp stream token d'.outside ?_
    cases hl with
    | unreconciled f d' hr =>
      have hd₁ := able_carries.entered .reconciling ⟨(h.entered .connecting d).core, v'⟩
        (able_carries.entered .connecting d hd)
      obtain ⟨m, hm⟩ := hg.reconcile_error _ (hd₁ _) .unfinished (by rw [hr])
      cases hm
    | listened report d₁ d' xs r hr hc hx =>
      exact hg.receiving_brokenOff hx (hp.attending d₁ hc) rfl

/-- Nothing is retried in a scope that is cancelled, so what fails there has failed before. -/
theorem Punctual.retrying_failed {m : String} {d d' : Daemon σ} {f : Failure}
    (hsleep : ∀ x d f d', w.sleep x d = (.error f, d') → h.cancelled d'.outside = false)
    (hr : h.Retrying w m d (.error f) d') : h.cancelled d'.outside = false := by
  cases hr with
  | gaveUp n hc hg => exact hp.log _ _ (hp.bereft d hc)
  | unslept f d' hc hg hs => exact hsleep _ _ f d' hs

/-- A run that fails leaves a scope that is not cancelled, unless it was broken off. -/
theorem Punctual.course_failed (hg : Documented h w) (hw : w.Apart)
    (hsleep : ∀ x d f d', w.sleep x d = (.error f, d') → h.cancelled d'.outside = false)
    {d d' : Daemon σ} {ls : List (Link σ)} {r : Except Failure Unit} (hc : h.Course w d ls r d')
    (hd : ∀ v, h.Able ⟨d.core, v⟩) (f : Failure) (hf : r = .error f) :
    f = .unfinished ∨ h.cancelled d'.outside = false := by
  induction hc with
  | unfinished d =>
    cases hf
    exact .inl rfl
  | overtaken d hc => cases hf
  | again d d₁ d' xs ls r hc hn hrest ih => exact ih (hn.carries able_carries hw hd).1 hf
  | retried d d₁ d₂ d' m xs ls r hc hn hr hrest ih =>
    exact ih (hr.carries able_carries hw (hn.carries able_carries hw hd).1) hf
  | left d d₁ d' m xs hc hn hr => cases hf
  | gaveUp d d₁ d' m g xs hc hn hr => exact .inr (hp.retrying_failed hsleep hr)
  | failed d d' g xs hc hn hnot =>
    cases hf
    obtain rfl | ⟨m, rfl⟩ := hg.connecting_error hn hd
    · exact .inl rfl
    · exact absurd rfl (hnot m)

/-- Connections that were broken off although the scope is cancelled end with one round more. -/
theorem Punctual.connections_resumed (hg : Documented h w) (hw : w.Apart)
    (hsleep : ∀ x d f d', w.sleep x d = (.error f, d') → h.cancelled d'.outside = false)
    (fuel n extra more : Nat) (d d' : Daemon σ) (hd : ∀ v, h.Able ⟨d.core, v⟩)
    (hrun : Act.run (h.connections w fuel n) d = (.error .unfinished, d'))
    (hc : h.cancelled d'.outside = true) :
    Act.run (h.connections w (fuel + extra) (n + (more + 1))) d = (.ok (), d') := by
  induction n generalizing d with
  | zero =>
    cases hrun
    rw [Nat.zero_add, connections, run_bind, run_isCancelled, hc]
    rfl
  | succ n ih =>
    rw [connections, run_bind, run_isCancelled] at hrun
    rw [Nat.add_right_comm, connections, run_bind, run_isCancelled]
    cases hstart : h.cancelled d.outside with
    | true =>
      rw [hstart] at hrun
      cases hrun
    | false =>
      rw [hstart] at hrun
      simp only [Bool.false_eq_true, if_false] at hrun ⊢
      rw [run_bind, run_attempt] at hrun ⊢
      obtain ⟨xs, hn, -⟩ := h.connection_outcome w fuel d
      have hmore := connection_more (h := h) (w := w) fuel extra d
      generalize Act.run (h.connection w fuel) d = a at hrun hn hmore
      obtain ⟨r, d₁⟩ := a
      have hd₁ := (hn.carries able_carries hw hd).1
      -- a connection that is broken off would not leave the scope cancelled
      have hdone : r ≠ .error .unfinished := by
        rintro rfl
        cases hrun
        rw [hp.connecting_brokenOff hg hn hd] at hc
        cases hc
      rw [hmore hdone]
      rcases r with f | _
      · cases f with
        | stream m =>
          simp only at hrun ⊢
          rw [run_bind] at hrun ⊢
          have hr := h.retry_outcome w m d₁
          generalize Act.run (h.retry w m) d₁ = b at hrun hr ⊢
          obtain ⟨f | _ | _, d₂⟩ := b
          · cases hrun
            rw [hp.retrying_failed hsleep hr] at hc
            cases hc
          · cases hrun
          · exact ih d₂ (hr.carries able_carries hw hd₁) hrun
        | unfinished => exact absurd rfl hdone
        | _ => cases hrun
      · exact ih d₁ hd₁ hrun

/-- Connections after which the scope is cancelled have returned, or return with more rounds. -/
theorem Punctual.connections_cancelled (hg : Documented h w) (hw : w.Apart)
    (hsleep : ∀ x d f d', w.sleep x d = (.error f, d') → h.cancelled d'.outside = false)
    (fuel n : Nat) (d d' : Daemon σ) (r : Except Failure Unit) (hd : ∀ v, h.Able ⟨d.core, v⟩)
    (hrun : Act.run (h.connections w fuel n) d = (r, d')) (hc : h.cancelled d'.outside = true) :
    (r = .ok () ∨ r = .error .unfinished) ∧ ∀ extra more,
      Act.run (h.connections w (fuel + extra) (n + (more + 1))) d = (.ok (), d') := by
  obtain ⟨ls, hcourse, -⟩ := h.connections_outcome w fuel n d
  rw [hrun] at hcourse
  rcases r with f | _
  · have hbroken : f = .unfinished := by
      rcases hp.course_failed hg hw hsleep hcourse hd f rfl with hf | hno
      · exact hf
      · cases hno.symm.trans hc
    subst hbroken
    exact ⟨.inr rfl, fun extra more =>
      hp.connections_resumed hg hw hsleep fuel n extra more d d' hd hrun hc⟩
  · refine ⟨.inl rfl, fun extra more => ?_⟩
    rw [connections_more fuel n extra (more + 1) d (by rw [hrun]; nofun), hrun]

end Punctual

end LayerQuota.Host
