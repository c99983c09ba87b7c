import LayerQuota.Proofs.EventStream
import LayerQuota.Proofs.Gateway
/-!
# What becomes of the clients

Connecting closes the client that was open, makes a new one and asks it for a sign of life; the
client becomes the open one only when it answers. So a client is closed, or open still, or it never
answered: then nothing holds it any more, and no later call closes it. The clients are noted as they
are made and closed, with those that did not answer.
-/

namespace LayerQuota

inductive ClientNote
  | made (client : Nat)
  | unanswered (client : Nat)
  | closed (client : Nat)
deriving DecidableEq, Repr

/-- A call that adds notes to a list, by its answer. -/
def ClientNote.beside {τ α : Type} (notes : Except Failure α → List ClientNote)
    (f : τ → Except Failure α × τ) (v : τ × List ClientNote) :
    Except Failure α × (τ × List ClientNote) :=
  ((f v.1).1, (f v.1).2, v.2 ++ notes (f v.1).1)

def ClientNote.ofMaking : Except Failure Nat → List ClientNote
  | .ok n => [.made n]
  | .error _ => []

def ClientNote.ofPing (client : Nat) : Except Failure Unit → List ClientNote
  | .ok _ => []
  | .error _ => [.unanswered client]

/-- An outside that notes which clients are made, which do not answer, and which are closed. -/
def Outside.tallied {τ : Type} (o : Outside τ) : Outside (τ × List ClientNote) where
  interrupt m := Host.onFirst (o.interrupt m)
  makeClient address seconds := ClientNote.beside ClientNote.ofMaking (o.makeClient address seconds)
  ping n := ClientNote.beside (ClientNote.ofPing n) (o.ping n)
  closeClient n := ClientNote.beside (fun _ => [.closed n]) (o.closeClient n)
  list n := Host.onFirst (o.list n)
  inspect n c := Host.onFirst (o.inspect n c)
  info n := Host.onFirst (o.info n)
  events n := Host.onFirst (o.events n)
  closeStream n := Host.onFirst (o.closeStream n)
  tag dir id := Host.onFirst (o.tag dir id)
  setLimit id soft hard := Host.onFirst (o.setLimit id soft hard)
  readTag dir := Host.onFirst (o.readTag dir)
  isPresent dir := Host.onFirst (o.isPresent dir)
  read path := Host.onFirst (o.read path)
  save path text := Host.onFirst (o.save path text)

/-! ### Accounts -/

/-- Every client that was made was closed, or did not answer, or is the one that is open. -/
def Balanced (notes : List ClientNote) (client : Option Nat) : Prop :=
  ∀ n, notes.count (.made n) =
    notes.count (.closed n) + notes.count (.unanswered n) + if client = some n then 1 else 0

namespace Balanced

variable {notes : List ClientNote}

theorem start : Balanced [] none := fun _ => rfl

theorem closed {client : Nat} (hb : Balanced notes (some client)) :
    Balanced (notes ++ [.closed client]) none := by
  intro n
  have hn := hb n
  by_cases hc : client = n
  · subst hc
    simp only [if_pos] at hn
    simp [List.count_append, hn]
    omega
  · simp [List.count_append, hn, hc]

theorem unanswered (hb : Balanced notes none) (client : Nat) :
    Balanced (notes ++ [.made client, .unanswered client]) none := by
  intro n
  have hn := hb n
  by_cases hc : client = n
  · subst hc
    simp [List.count_append, hn]
    omega
  · simp [List.count_append, hn, hc]

theorem made (hb : Balanced notes none) (client : Nat) :
    Balanced (notes ++ [.made client]) (some client) := by
  intro n
  have hn := hb n
  by_cases hc : client = n
  · subst hc
    simp [List.count_append, hn]
  · simp [List.count_append, hn, hc]

end Balanced

namespace Station

variable {τ α : Type} {o : Outside τ}

/-! ### Signals -/

/-- A property of the outside that polls for signals and closing streams keep. -/
structure Overlooked (o : Outside τ) (P : τ → Prop) : Prop where
  interrupt : ∀ m w, P w → P (o.interrupt m w).2
  closeStream : ∀ n w, P w → P (o.closeStream n w).2

theorem log_outside (l : Line) (st : Station τ) : (st.log l).outside = st.outside := by
  unfold log
  split
  · rfl
  · rfl

section Overlooked

variable {P : τ → Prop} (hP : Overlooked o P)

include hP

theorem runCallback_keeps (c : Callback) (st : Station τ) (hst : P st.outside) :
    P (runCallback o st c).outside := by
  cases c with
  | stopServer => exact hst
  | closeStream stream =>
    have hcall : P (callWith (passSignal o) .closeStream (o.closeStream stream)
        { st with closed := stream :: st.closed }).2.outside :=
      hP.interrupt _ _ (hP.closeStream stream _ (hP.interrupt _ _ hst))
    show P (closeStreamWith (passSignal o) o stream st).outside
    unfold closeStreamWith
    split
    · rename_i heq
      rw [heq] at hcall
      exact hcall
    · rename_i heq
      rw [heq] at hcall
      rw [log_outside]
      exact hcall

theorem runCallbacks_keeps (cs : List Callback) (st : Station τ) (hst : P st.outside) :
    P (cs.foldl (runCallback o) st).outside := by
  induction cs generalizing st with
  | nil => exact hst
  | cons c cs ih => exact ih _ (runCallback_keeps hP c st hst)

theorem cancel_keeps (st : Station τ) (hst : P st.outside) : P (st.cancel o).outside :=
  runCallbacks_keeps hP st.scope.trip.1 { st with scope := st.scope.trip.2 } hst

theorem takeSignal_keeps (m : Moment) (st : Station τ) (hst : P st.outside) :
    P (takeSignal o m st).outside := by
  have hpoll := hP.interrupt m st.outside hst
  unfold takeSignal
  simp only
  split
  · exact cancel_keeps hP _ hpoll
  · exact hpoll

end Overlooked

theorem tallied_overlooks (notes : List ClientNote) : Overlooked o.tallied fun v => v.2 = notes :=
  ⟨fun _ _ h => h, fun _ _ h => h⟩

theorem call_tallied (c : Call) (notes : Except Failure α → List ClientNote)
    (f : τ → Except Failure α × τ) {r : Except Failure α} {st st' : Station (τ × List ClientNote)}
    (hc : call o.tallied c (ClientNote.beside notes f) st = (r, st')) :
    st'.outside.2 = st.outside.2 ++ notes r := by
  have hbefore := takeSignal_keeps (tallied_overlooks (o := o) st.outside.2) (.before c) st rfl
  cases hc
  refine takeSignal_keeps (tallied_overlooks _) _ _ ?_
  exact congrArg (· ++ _) hbefore

/-! ### Connecting and closing -/

variable {st : Station (τ × List ClientNote)}

theorem disconnect_balanced (hb : Balanced st.outside.2 st.gateway.client) :
    Balanced (st.disconnect o.tallied).outside.2 (st.disconnect o.tallied).gateway.client ∧
      (st.disconnect o.tallied).gateway.client = none := by
  unfold disconnect
  split
  · rename_i hnone
    exact ⟨hb, hnone⟩
  · rename_i n hn
    rw [hn] at hb
    refine ⟨?_, rfl⟩
    rcases hc : call o.tallied .closeClient (o.tallied.closeClient n) st with ⟨r, st₁⟩
    have hnotes := call_tallied .closeClient (fun _ => [.closed n]) (o.closeClient n) hc
    cases r with
    | ok a =>
      show Balanced st₁.outside.2 none
      rw [hnotes]
      exact hb.closed
    | error f =>
      show Balanced (st₁.log _).outside.2 none
      rw [log_outside, hnotes]
      exact hb.closed

/-- How making a client and asking it for a sign of life ends, and what was noted by then. -/
inductive Dialled (notes : List ClientNote) : Except Failure Nat → List ClientNote → Prop
  | unmade (f : Failure) : Dialled notes (.error f) notes
  | unanswered (client : Nat) (f : Failure) :
    Dialled notes (.error f) (notes ++ [.made client, .unanswered client])
  | answered (client : Nat) : Dialled notes (.ok client) (notes ++ [.made client])

theorem Dialled.balanced {notes notes' : List ClientNote} {r : Except Failure Nat}
    (hd : Dialled notes r notes') (hb : Balanced notes none) : Balanced notes' r.toOption := by
  cases hd with
  | unmade f => exact hb
  | unanswered client f => exact hb.unanswered client
  | answered client => exact hb.made client

theorem openClient_dialled (st : Station (τ × List ClientNote)) :
    Dialled st.outside.2 (openClient o.tallied st).1 (openClient o.tallied st).2.outside.2 := by
  unfold openClient
  split
  · exact .unmade _
  · rename_i seconds _
    rcases hmake : call o.tallied .makeClient (o.tallied.makeClient st.gateway.address seconds) st
      with ⟨r, st₁⟩
    have hmade := call_tallied .makeClient _ _ hmake
    cases r with
    | error f =>
      show Dialled _ (.error f) st₁.outside.2
      rw [hmade, ClientNote.ofMaking.eq_2, List.append_nil]
      exact .unmade f
    | ok n =>
      simp only
      rcases hping : call o.tallied .ping (o.tallied.ping n) st₁ with ⟨r, st₂⟩
      have hpinged := call_tallied .ping _ (o.ping n) hping
      rw [hmade, List.append_assoc] at hpinged
      cases r with
      | error f =>
        show Dialled _ (.error f) st₂.outside.2
        rw [hpinged]
        exact .unanswered n f
      | ok _ =>
        show Dialled _ (.ok n) st₂.outside.2
        rw [hpinged]
        exact .answered n

theorem connect_balanced (hb : Balanced st.outside.2 st.gateway.client) :
    Balanced (st.connect o.tallied).2.outside.2 (st.connect o.tallied).2.gateway.client := by
  obtain ⟨hclosed, hnone⟩ := disconnect_balanced (o := o) hb
  rw [hnone] at hclosed
  have hopened := (openClient_dialled (o := o) (st.disconnect o.tallied)).balanced hclosed
  have hgateway := openClient_gateway (o := o.tallied) (st.disconnect o.tallied)
  unfold connect
  simp only
  generalize openClient o.tallied (st.disconnect o.tallied) = a at hopened hgateway
  obtain ⟨r, st'⟩ := a
  -- A client is installed only here, so where opening failed none is open.
  have hclient : st'.gateway.client = none := (congrArg Gateway.client hgateway).trans hnone
  split
  · rename_i heq
    cases heq
    rw [hclient]
    exact hopened
  · rename_i heq
    cases heq
    rw [hclient]
    exact hopened
  · rename_i heq
    cases heq
    rw [log_outside, log_gateway]
    exact hopened

/-! ### Sequences of calls -/

inductive GatewayCall
  | connect
  | close
deriving DecidableEq, Repr

def dial (o : Outside τ) (st : Station τ) : GatewayCall → Station τ
  | .connect => (st.connect o).2
  | .close => st.disconnect o

/-- The station after a sequence of calls, whatever each of them came to. -/
def dialAll (o : Outside τ) (calls : List GatewayCall) (st : Station τ) : Station τ :=
  calls.foldl (dial o) st

theorem dial_balanced (call : GatewayCall) (st : Station (τ × List ClientNote))
    (hb : Balanced st.outside.2 st.gateway.client) :
    Balanced (dial o.tallied st call).outside.2 (dial o.tallied st call).gateway.client := by
  cases call with
  | connect => exact connect_balanced hb
  | close => exact (disconnect_balanced hb).1

theorem dialAll_balanced (calls : List GatewayCall) (st : Station (τ × List ClientNote))
    (hb : Balanced st.outside.2 st.gateway.client) :
    Balanced (dialAll o.tallied calls st).outside.2
      (dialAll o.tallied calls st).gateway.client := by
  induction calls generalizing st with
  | nil => exact hb
  | cons call calls ih => exact ih _ (dial_balanced call st hb)

/-- After any sequence of calls on a gateway that had no client, whatever the outside answers, each
client was closed as often as it was made, but for the one that is open, and but for those that did
not answer when they were asked for a sign of life: these are held by nothing and are never closed. -/
theorem dialAll_releases (o : Outside τ) (calls : List GatewayCall)
    (st : Station (τ × List ClientNote)) (hclient : st.gateway.client = none)
    (hnotes : st.outside.2 = []) :
    let st' := dialAll o.tallied calls st
    let notes := st'.outside.2
    (∀ n, notes.count (.made n) = notes.count (.closed n) + notes.count (.unanswered n) +
        if st'.gateway.client = some n then 1 else 0) ∧
      (∀ n, .made n ∈ notes → .unanswered n ∉ notes →
        st'.gateway.client = some n ∨ .closed n ∈ notes) ∧
      ∀ n, notes.count (.made n) = 1 → .unanswered n ∈ notes →
        st'.gateway.client ≠ some n ∧ .closed n ∉ notes := by
  intro st' notes
  have hstart : Balanced st.outside.2 st.gateway.client := by
    rw [hclient, hnotes]
    exact Balanced.start
  have hb : Balanced notes st'.gateway.client := dialAll_balanced calls st hstart
  refine ⟨hb, fun n hmade hanswered => ?_, fun n honce hunanswered => ?_⟩
  · have hn := hb n
    have hpos := List.count_pos_iff.mpr hmade
    rw [List.count_eq_zero.mpr hanswered] at hn
    by_cases hopen : st'.gateway.client = some n
    · exact .inl hopen
    · rw [if_neg hopen] at hn
      exact .inr (List.count_pos_iff.mp (by omega))
  · have hn := hb n
    have hpos := List.count_pos_iff.mpr hunanswered
    have hopen : st'.gateway.client ≠ some n := by
      intro hopen
      rw [if_pos hopen] at hn
      omega
    refine ⟨hopen, fun hclosed => ?_⟩
    have hclosed := List.count_pos_iff.mpr hclosed
    omega

/-- A gateway that was not connected yet. -/
def unconnected : Station (Unit × List ClientNote) :=
  ⟨⟨"", .whole 10, none⟩, .fresh, [], false, 0, [], ((), [])⟩

theorem knowing_dialAll_releases :
    let st' := dialAll EventStream.knowing.tallied [.connect, .close, .connect] unconnected
    let notes := st'.outside.2
    unconnected.gateway.client = none ∧ unconnected.outside.2 = [] ∧
      notes = [.made 1, .closed 1, .made 1] ∧
      (∀ n, notes.count (.made n) = notes.count (.closed n) + notes.count (.unanswered n) +
          if st'.gateway.client = some n then 1 else 0) ∧
        (∀ n, .made n ∈ notes → .unanswered n ∉ notes →
          st'.gateway.client = some n ∨ .closed n ∈ notes) ∧
        ∀ n, notes.count (.made n) = 1 → .unanswered n ∈ notes →
          st'.gateway.client ≠ some n ∧ .closed n ∉ notes :=
  ⟨rfl, rfl, by decide +kernel, dialAll_releases EventStream.knowing _ unconnected rfl rfl⟩

/-- A runtime whose clients can be made and do not answer. -/
def refusing : Outside Unit :=
  { EventStream.knowing with ping := fun _ _ => (.error (.runtime "connection refused"), ()) }

/-- A client that does not answer is not closed, not even when the gateway is closed after it. -/
theorem refusing_client_lost :
    ¬∀ (o : Outside Unit) (calls : List GatewayCall) (st : Station (Unit × List ClientNote)),
      st.gateway.client = none → st.outside.2 = [] →
      ∀ n, .made n ∈ (dialAll o.tallied calls st).outside.2 →
        (dialAll o.tallied calls st).gateway.client = some n ∨
          .closed n ∈ (dialAll o.tallied calls st).outside.2 := by
  intro h
  have hlost := h refusing [.connect, .close] unconnected rfl rfl 1 (by decide +kernel)
  revert hlost
  decide +kernel

end Station

end LayerQuota
