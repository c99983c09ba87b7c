import LayerQuota.Outside.EventStream
import LayerQuota.Proofs.Daemon.Sustained
/-!
# Connecting

Connecting gives a client or is a loss of the connection, as long as the client fails by its own
kind of failure and the time-out has whole seconds. Infinity has none, and what is no number has
none: then no client is made at all, and the failure to tell the seconds passes through. No call of
the station changes the time-out.
-/

namespace LayerQuota

/-- Making a client and asking it for a sign of life fail as failures of the runtime only. -/
structure Outside.Dials {τ : Type} (o : Outside τ) : Prop where
  makeClient : ∀ address seconds w f, (o.makeClient address seconds w).1 = .error f →
    ∃ m, f = .runtime m
  ping : ∀ n w f, (o.ping n w).1 = .error f → ∃ m, f = .runtime m

namespace Station

variable {τ α : Type} {o : Outside τ}

/-! ### What leaves the gateway alone -/

@[simp] theorem log_gateway (l : Line) (st : Station τ) : (st.log l).gateway = st.gateway := by
  unfold log
  split <;> rfl

@[simp] theorem logAll_gateway (ls : List Line) (st : Station τ) :
    (st.logAll ls).gateway = st.gateway := by
  induction ls generalizing st with
  | nil => rfl
  | cons l ls ih => exact (ih (st.log l)).trans (log_gateway l st)

section Calling

variable {signal : Moment → Station τ → Station τ}
  (hsignal : ∀ m st, (signal m st).gateway = st.gateway)

include hsignal

theorem callWith_gateway (c : Call) (f : τ → Except Failure α × τ) (st : Station τ) :
    (callWith signal c f st).2.gateway = st.gateway :=
  (hsignal _ _).trans (hsignal (.before c) st)

theorem closeStreamWith_gateway (stream : Nat) (st : Station τ) :
    (closeStreamWith signal o stream st).gateway = st.gateway := by
  have hcall := callWith_gateway hsignal .closeStream (o.closeStream stream)
    { st with closed := stream :: st.closed }
  unfold closeStreamWith
  split
  · rename_i heq
    rw [heq] at hcall
    exact hcall
  · rename_i heq
    rw [heq] at hcall
    exact (log_gateway _ _).trans hcall

end Calling

theorem passSignal_gateway (m : Moment) (st : Station τ) :
    (passSignal o m st).gateway = st.gateway := rfl

theorem runCallbacks_gateway (cs : List Callback) (st : Station τ) :
    (cs.foldl (runCallback o) st).gateway = st.gateway := by
  induction cs generalizing st with
  | nil => rfl
  | cons c cs ih =>
    refine (ih _).trans ?_
    cases c with
    | closeStream stream => exact closeStreamWith_gateway passSignal_gateway stream st
    | stopServer => rfl

@[simp] theorem cancel_gateway (st : Station τ) : (st.cancel o).gateway = st.gateway :=
  runCallbacks_gateway st.scope.trip.1 { st with scope := st.scope.trip.2 }

@[simp] theorem takeSignal_gateway (m : Moment) (st : Station τ) :
    (takeSignal o m st).gateway = st.gateway := by
  unfold takeSignal
  simp only
  split
  · exact cancel_gateway _
  · rfl

@[simp] theorem call_gateway (c : Call) (f : τ → Except Failure α × τ) (st : Station τ) :
    (call o c f st).2.gateway = st.gateway :=
  callWith_gateway takeSignal_gateway c f st

@[simp] theorem callLogged_gateway (c : Call) (f : τ → Reply α × τ) (st : Station τ) :
    (callLogged o c f st).2.gateway = st.gateway := by
  simp [callLogged]

@[simp] theorem callFile_gateway (c : Call) (f : τ → Except OsFault α × τ) (st : Station τ) :
    (callFile o c f st).2.gateway = st.gateway := by
  simp [callFile]

@[simp] theorem onClient_gateway (c : Call) (f : Nat → τ → Except Failure α × τ) (st : Station τ) :
    (onClient o c f st).2.gateway = st.gateway := by
  unfold onClient
  split
  · exact call_gateway c _ st
  · rfl

@[simp] theorem inspect_gateway (container : Json.Value) (st : Station τ) :
    (inspect o container st).2.gateway = st.gateway :=
  onClient_gateway .inspect _ st

@[simp] theorem resolve_gateway (container : Json.Value) (st : Station τ) :
    (resolve o container st).2.gateway = st.gateway := by
  have hinspect := inspect_gateway (o := o) container st
  unfold resolve
  generalize inspect o container st = a at hinspect
  obtain ⟨f | attrs, st'⟩ := a
  · exact hinspect
  · simp only
    split <;> exact hinspect

@[simp] theorem closeStream_gateway (stream : Nat) (st : Station τ) :
    (st.closeStream o stream).gateway = st.gateway :=
  closeStreamWith_gateway takeSignal_gateway stream st

@[simp] theorem onCancel_gateway (stream : Nat) (st : Station τ) :
    (st.onCancel o stream).2.gateway = st.gateway := by
  unfold onCancel
  split
  · rfl
  · exact closeStream_gateway stream _

/-! ### Opening and closing -/

@[simp] theorem disconnect_timeout (st : Station τ) :
    (st.disconnect o).gateway.timeout = st.gateway.timeout := by
  unfold disconnect
  split
  · rfl
  · rename_i n _
    have hcall := congrArg Gateway.timeout (call_gateway (o := o) .closeClient (o.closeClient n) st)
    generalize call o .closeClient (o.closeClient n) st = a at hcall
    obtain ⟨f | _, st'⟩ := a
    · simp only [log_gateway]
      exact hcall
    · exact hcall

@[simp] theorem openClient_gateway (st : Station τ) : (openClient o st).2.gateway = st.gateway := by
  unfold openClient
  split
  · rfl
  · rename_i seconds _
    have hmake := call_gateway (o := o) .makeClient (o.makeClient st.gateway.address seconds) st
    generalize call o .makeClient (o.makeClient st.gateway.address seconds) st = a at hmake
    obtain ⟨f | n, st₁⟩ := a
    · exact hmake
    · have hping := call_gateway (o := o) .ping (o.ping n) st₁
      simp only
      generalize call o .ping (o.ping n) st₁ = b at hping
      obtain ⟨f | _, st₂⟩ := b
      · exact hping.trans hmake
      · exact hping.trans hmake

@[simp] theorem connect_timeout (st : Station τ) :
    (st.connect o).2.gateway.timeout = st.gateway.timeout := by
  have hopen : (openClient o (st.disconnect o)).2.gateway.timeout = st.gateway.timeout :=
    (congrArg Gateway.timeout (openClient_gateway _)).trans (disconnect_timeout st)
  unfold connect
  simp only
  split
  · rename_i heq
    rw [heq] at hopen
    exact hopen
  · rename_i heq
    rw [heq] at hopen
    exact hopen
  · rename_i heq
    rw [heq] at hopen
    exact (congrArg Gateway.timeout (log_gateway _ _)).trans hopen

/-! ### How connecting ends -/

/-- The failure to tell the whole seconds of a number. -/
def secondsFault : Number.Binary64 → Failure
  | .nan => .noInteger
  | _ => .infiniteInteger

theorem wholeSeconds_real (x : Number.Binary64) :
    wholeSeconds (.real x) =
      match x.truncate? with
      | some n => .ok n
      | none => .error (secondsFault x) := by
  cases x with
  | _ => rfl

theorem openClient_error (ho : o.Dials) {st st' : Station τ} {n : Int} {f : Failure}
    (hseconds : wholeSeconds st.gateway.timeout = .ok n)
    (hopen : openClient o st = (.error f, st')) : ∃ m, f = .runtime m := by
  unfold openClient at hopen
  rw [hseconds] at hopen
  simp only at hopen
  split at hopen
  · rename_i hmake
    cases hopen
    exact ho.makeClient _ _ _ f (congrArg Prod.fst hmake)
  · split at hopen
    · rename_i hping
      cases hopen
      exact ho.ping _ _ f (congrArg Prod.fst hping)
    · cases hopen

/-- Connecting with whole seconds gives a client, or is a loss of the connection. -/
theorem connect_outcome (ho : o.Dials) (st : Station τ) (n : Int)
    (hseconds : wholeSeconds st.gateway.timeout = .ok n) :
    (∃ st', st.connect o = (.ok (), st') ∧ st'.gateway.client.isSome = true) ∨
      ∃ (m : String) (st' : Station τ), st.connect o =
        (.error (.stream s!"cannot connect to docker at {st.gateway.address}: {m}"), st') := by
  have hseconds' : wholeSeconds (st.disconnect o).gateway.timeout = .ok n := by
    rw [disconnect_timeout, hseconds]
  unfold connect
  simp only
  rcases hopen : openClient o (st.disconnect o) with ⟨f | client, st'⟩
  · obtain ⟨m, rfl⟩ := openClient_error ho hseconds' hopen
    exact .inr ⟨m, st', rfl⟩
  · refine .inl ⟨_, rfl, ?_⟩
    rw [log_gateway]
    rfl

/-- Without whole seconds no client is made. -/
theorem connect_secondsless (st : Station τ) (x : Number.Binary64)
    (htimeout : st.gateway.timeout = .real x) (hx : x.truncate? = none) :
    st.connect o = (.error (secondsFault x), st.disconnect o) := by
  have hopen : openClient o (st.disconnect o) = (.error (secondsFault x), st.disconnect o) := by
    unfold openClient
    rw [disconnect_timeout, htimeout, wholeSeconds_real, hx]
  unfold connect
  rw [hopen]
  cases x with
  | _ => rfl

end Station

/-! ### The stream of events -/

namespace EventStream

open LayerQuota.Station

variable {τ : Type} {o : Outside τ}

theorem mounts_gateway (container : Json.Value) (st : Station τ) :
    (mounts o container st).2.gateway = st.gateway := by
  have hinspect := inspect_gateway (o := o) container st
  unfold mounts
  split
  · rename_i heq
    rw [heq] at hinspect
    exact hinspect
  · rename_i heq
    rw [heq] at hinspect
    split
    · exact (log_gateway _ _).trans hinspect
    · exact hinspect
  · rename_i heq
    rw [heq] at hinspect
    exact hinspect

theorem eventOf_gateway (notice : Json.Value) (st : Station τ) :
    (eventOf o notice st).2.gateway = st.gateway := by
  unfold eventOf
  split
  · rfl
  · rfl
  · rfl
  · rename_i container _
    have hmounts := mounts_gateway (o := o) container st
    generalize mounts o container st = a at hmounts
    obtain ⟨f | rootfs, st'⟩ := a
    · exact hmounts
    · exact hmounts

/-- What the looks at a stream keep of a daemon, its core and its gateway, waiting for the next event
keeps. -/
theorem next_kept {P : Daemon (Station τ) → Prop}
    (hP : ∀ d st, st.gateway = d.outside.gateway → P d → P { d with outside := st })
    {pull : Nat → Nat → Daemon (Station τ) → Pulled × Daemon (Station τ)}
    (hpull : ∀ stream position d, P d → P (pull stream position d).2)
    (stream fuel position : Nat) (d : Daemon (Station τ)) (hd : P d) :
    P (next o pull stream fuel position d).2 := by
  induction fuel generalizing position d with
  | zero => exact hd
  | succ fuel ih =>
    have hlook := hpull stream position d hd
    unfold next
    generalize pull stream position d = a at hlook
    obtain ⟨p, d₁⟩ := a
    cases p with
    | nothing => exact ih (position + 1) d₁ hlook
    | ended => exact hlook
    | broken f =>
      cases f <;> exact hlook
    | notice v =>
      have hevent := hP d₁ _ (eventOf_gateway (o := o) v d₁.outside) hlook
      simp only
      generalize eventOf o v d₁.outside = b at hevent
      obtain ⟨f | _ | e, st⟩ := b
      · exact hevent
      · exact ih (position + 1) { d₁ with outside := st } hevent
      · exact hevent

end EventStream

end LayerQuota
