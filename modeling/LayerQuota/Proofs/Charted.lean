import LayerQuota.Outside.EventStream
import LayerQuota.Proofs.Daemon.Run
/-!
# Streams on a chart

An outside that charts its streams: which were opened and which were closed, in the order of these
calls. All that the station does, save that it subscribes, is a lull for the chart: streams are
closed at most, and at most the scope is cancelled, which leaves no callback behind.
-/

namespace LayerQuota

inductive StreamNote
  | opened (stream : Nat)
  | closed (stream : Nat)

/-- The streams that a note leaves open, if those of a list were open before. -/
def StreamNote.leaves : List Nat → StreamNote → List Nat
  | streams, .opened n => n :: streams
  | streams, .closed n => streams.erase n

/-- The streams of a chart that were opened and not closed since. -/
def unclosed (chart : List StreamNote) : List Nat := chart.foldl StreamNote.leaves []

def Outside.charted {τ : Type} (o : Outside τ) : Outside (τ × List StreamNote) where
  interrupt m := Host.onFirst (o.interrupt m)
  makeClient address seconds := Host.onFirst (o.makeClient address seconds)
  ping n := Host.onFirst (o.ping n)
  closeClient n := Host.onFirst (o.closeClient n)
  list n := Host.onFirst (o.list n)
  inspect n c := Host.onFirst (o.inspect n c)
  info n := Host.onFirst (o.info n)
  events n v :=
    match o.events n v.1 with
    | (.ok stream, x) => (.ok stream, x, v.2 ++ [.opened stream])
    | (.error f, x) => (.error f, x, v.2)
  closeStream n v :=
    let (r, x) := o.closeStream n v.1
    (r, x, v.2 ++ [.closed n])
  tag dir id := Host.onFirst (o.tag dir id)
  setLimit id soft hard := Host.onFirst (o.setLimit id soft hard)
  readTag dir := Host.onFirst (o.readTag dir)
  isPresent dir := Host.onFirst (o.isPresent dir)
  read path := Host.onFirst (o.read path)
  save path text := Host.onFirst (o.save path text)

/-! ### Charts -/

def Closes (chart chart' : List StreamNote) : Prop :=
  ∃ ns : List Nat, chart' = chart ++ ns.map .closed

theorem Closes.refl (chart : List StreamNote) : Closes chart chart :=
  ⟨[], (List.append_nil chart).symm⟩

theorem Closes.trans {a b c : List StreamNote} (hab : Closes a b) (hbc : Closes b c) :
    Closes a c := by
  obtain ⟨ns, rfl⟩ := hab
  obtain ⟨ms, rfl⟩ := hbc
  exact ⟨ns ++ ms, by rw [List.map_append, List.append_assoc]⟩

theorem unclosed_snoc (chart : List StreamNote) (n : StreamNote) :
    unclosed (chart ++ [n]) = n.leaves (unclosed chart) :=
  List.foldl_concat ..

theorem Closes.sublist {chart chart' : List StreamNote} (hc : Closes chart chart') :
    (unclosed chart').Sublist (unclosed chart) := by
  obtain ⟨ns, rfl⟩ := hc
  induction ns generalizing chart with
  | nil => rw [List.map_nil, List.append_nil]
  | cons n ns ih =>
    have hrest : (unclosed (chart ++ [.closed n] ++ ns.map .closed)).Sublist
        (unclosed (chart ++ [.closed n])) := ih
    rw [List.append_assoc] at hrest
    refine hrest.trans ?_
    rw [unclosed_snoc]
    exact List.erase_sublist

namespace Station

variable {τ α : Type} {o : Outside τ}

/-! ### Lulls -/

/-- Streams were closed at most, and the scope is as it was or was cancelled. -/
structure Lull (st st' : Station (τ × List StreamNote)) : Prop where
  scope : st'.scope = st.scope ∨ st'.scope = { st.scope with cancelled := true, pending := [] }
  chart : Closes st.outside.2 st'.outside.2

namespace Lull

variable {st st₁ st' : Station (τ × List StreamNote)}

theorem refl (st : Station (τ × List StreamNote)) : Lull st st := ⟨.inl rfl, .refl _⟩

theorem trans (ha : Lull st st₁) (hb : Lull st₁ st') : Lull st st' := by
  refine ⟨?_, ha.chart.trans hb.chart⟩
  rcases hb.scope with hb | hb
  · rw [hb]
    exact ha.scope
  · rw [hb]
    rcases ha.scope with ha | ha
    · rw [ha]
      exact .inr rfl
    · rw [ha]
      exact .inr rfl

theorem reach {v : τ × List StreamNote} (hv : Closes st.outside.2 v.2) :
    Lull st { st with outside := v } :=
  ⟨.inl rfl, hv⟩

end Lull

theorem Lull.landed {β : Type} {a : β} {p : β × Station (τ × List StreamNote)}
    {st st' : Station (τ × List StreamNote)} (hl : Lull st p.2) (hp : p = (a, st')) :
    Lull st st' := by
  rw [hp] at hl
  exact hl

theorem Lull.withGateway {st st' : Station (τ × List StreamNote)} (hl : Lull st st') (g : Gateway) :
    Lull st { st' with gateway := g } :=
  ⟨hl.scope, hl.chart⟩

theorem log_lull (l : Line) (st : Station (τ × List StreamNote)) : Lull st (st.log l) := by
  unfold log
  split
  · exact ⟨.inl rfl, .refl _⟩
  · exact .refl st

theorem logAll_lull (ls : List Line) (st : Station (τ × List StreamNote)) :
    Lull st (st.logAll ls) := by
  induction ls generalizing st with
  | nil => exact .refl st
  | cons l ls ih => exact (log_lull l st).trans (ih (st.log l))

/-! ### Signals and calls -/

section Calling

variable {signal : Moment → Station (τ × List StreamNote) → Station (τ × List StreamNote)}
  (hsignal : ∀ m st, Lull st (signal m st))

include hsignal

theorem callWith_lull (c : Call)
    {f : τ × List StreamNote → Except Failure α × (τ × List StreamNote)}
    (hf : ∀ v, Closes v.2 (f v).2.2) (st : Station (τ × List StreamNote)) :
    Lull st (callWith signal c f st).2 :=
  ((hsignal (.before c) st).trans (.reach (hf _))).trans (hsignal _ _)

theorem closeStreamWith_lull (stream : Nat) (st : Station (τ × List StreamNote)) :
    Lull st (closeStreamWith signal o.charted stream st) := by
  have hcall := callWith_lull hsignal .closeStream
    (f := o.charted.closeStream stream) (fun v => ⟨[stream], rfl⟩)
    { st with closed := stream :: st.closed }
  have hmark : Lull st { st with closed := stream :: st.closed } := ⟨.inl rfl, .refl _⟩
  unfold closeStreamWith
  split
  · rename_i heq
    exact hmark.trans (hcall.landed heq)
  · rename_i heq
    exact (hmark.trans (hcall.landed heq)).trans (log_lull _ _)

/-- A stream that is closed is on the chart as closed, whatever else happens meanwhile. -/
theorem closeStreamWith_closes (stream : Nat) (st : Station (τ × List StreamNote)) :
    ∃ chart, Closes st.outside.2 chart ∧
      Closes (chart ++ [.closed stream])
        (closeStreamWith signal o.charted stream st).outside.2 := by
  have hafter : ∀ r st', callWith signal .closeStream (o.charted.closeStream stream)
      { st with closed := stream :: st.closed } = (r, st') → ∃ chart, Closes st.outside.2 chart ∧
        Closes (chart ++ [.closed stream]) st'.outside.2 := by
    intro r st' heq
    have hbefore := hsignal (.before .closeStream) { st with closed := stream :: st.closed }
    cases heq
    exact ⟨_, hbefore.chart, (hsignal _ _).chart⟩
  unfold closeStreamWith
  split
  · rename_i heq
    exact hafter _ _ heq
  · rename_i heq
    obtain ⟨chart, hbefore, hrest⟩ := hafter _ _ heq
    exact ⟨chart, hbefore, hrest.trans (log_lull _ _).chart⟩

end Calling

theorem passSignal_lull (m : Moment) (st : Station (τ × List StreamNote)) :
    Lull st (passSignal o.charted m st) :=
  .reach (.refl _)

theorem runCallback_lull (c : Callback) (st : Station (τ × List StreamNote)) :
    Lull st (runCallback o.charted st c) := by
  cases c with
  | closeStream stream => exact closeStreamWith_lull passSignal_lull stream st
  | stopServer => exact ⟨.inl rfl, .refl _⟩

theorem runCallbacks_lull (cs : List Callback) (st : Station (τ × List StreamNote)) :
    Lull st (cs.foldl (runCallback o.charted) st) := by
  induction cs generalizing st with
  | nil => exact .refl st
  | cons c cs ih => exact (runCallback_lull c st).trans (ih _)

theorem cancel_lull (st : Station (τ × List StreamNote)) : Lull st (st.cancel o.charted) := by
  have htrip : Lull st { st with scope := st.scope.trip.2 } := by
    refine ⟨?_, .refl _⟩
    unfold CancelScope.trip
    split
    · exact .inl rfl
    · exact .inr rfl
  exact htrip.trans (runCallbacks_lull st.scope.trip.1 _)

theorem takeSignal_lull (m : Moment) (st : Station (τ × List StreamNote)) :
    Lull st (takeSignal o.charted m st) := by
  have hpoll : Lull st { st with outside := (o.charted.interrupt m st.outside).2 } :=
    .reach (.refl _)
  unfold takeSignal
  simp only
  split
  · exact hpoll.trans (cancel_lull _)
  · exact hpoll

def Unnoted {β : Type} (f : τ × List StreamNote → β × (τ × List StreamNote)) : Prop :=
  ∀ v, (f v).2.2 = v.2

theorem onFirst_unnoted {β : Type} (f : τ → β × τ) : Unnoted (Host.onFirst f) := fun _ => rfl

theorem Unnoted.closes {β : Type} {f : τ × List StreamNote → β × (τ × List StreamNote)}
    (hf : Unnoted f) (v : τ × List StreamNote) : Closes v.2 (f v).2.2 := by
  rw [hf v]
  exact .refl v.2

section Unnoted

variable (c : Call) (st : Station (τ × List StreamNote))

theorem call_lull {f : τ × List StreamNote → Except Failure α × (τ × List StreamNote)}
    (hf : Unnoted f) : Lull st (call o.charted c f st).2 :=
  callWith_lull takeSignal_lull c hf.closes st

theorem callLogged_lull {f : τ × List StreamNote → Reply α × (τ × List StreamNote)}
    (hf : Unnoted f) : Lull st (callLogged o.charted c f st).2 :=
  (((takeSignal_lull (.before c) st).trans (.reach (hf.closes _))).trans
    (takeSignal_lull _ _)).trans (logAll_lull _ _)

theorem callFile_lull {f : τ × List StreamNote → Except OsFault α × (τ × List StreamNote)}
    (hf : Unnoted f) : Lull st (callFile o.charted c f st).2 :=
  ((takeSignal_lull (.before c) st).trans (.reach (hf.closes _))).trans (takeSignal_lull _ _)

theorem onClient_lull {f : Nat → τ × List StreamNote → Except Failure α × (τ × List StreamNote)}
    (hf : ∀ n, Unnoted (f n)) : Lull st (onClient o.charted c f st).2 := by
  unfold onClient
  split
  · exact call_lull c st (hf _)
  · exact .refl st

end Unnoted

/-! ### The gateway -/

variable (st : Station (τ × List StreamNote))

theorem disconnect_lull : Lull st (st.disconnect o.charted) := by
  unfold disconnect
  split
  · exact .refl st
  · rename_i n hn
    have hcall := call_lull (o := o) .closeClient st (onFirst_unnoted (o.closeClient n))
    refine Lull.withGateway ?_ _
    split
    · rename_i heq
      exact hcall.landed heq
    · rename_i heq
      exact (hcall.landed heq).trans (log_lull _ _)

theorem disconnect_client : (st.disconnect o.charted).gateway.client = none := by
  unfold disconnect
  split
  · assumption
  · rfl

theorem openClient_lull : Lull st (openClient o.charted st).2 := by
  unfold openClient
  split
  · exact .refl st
  · rename_i seconds _
    have hmake := call_lull (o := o) .makeClient st
      (onFirst_unnoted (o.makeClient st.gateway.address seconds))
    split
    · rename_i heq
      exact hmake.landed heq
    · rename_i n st₁ heq
      have hmade : Lull st st₁ := hmake.landed heq
      have hping := call_lull (o := o) .ping st₁ (onFirst_unnoted (o.ping n))
      split
      · rename_i heq
        exact hmade.trans (hping.landed heq)
      · rename_i heq
        exact hmade.trans (hping.landed heq)

theorem connect_lull : Lull st (st.connect o.charted).2 := by
  have hopen : Lull st (openClient o.charted (st.disconnect o.charted)).2 :=
    (disconnect_lull st).trans (openClient_lull (st.disconnect o.charted))
  unfold connect
  simp only
  split
  · rename_i heq
    exact hopen.landed heq
  · rename_i heq
    exact hopen.landed heq
  · rename_i n st₁ heq
    have hopened : Lull st st₁ := hopen.landed heq
    exact (hopened.withGateway _).trans (log_lull _ _)

theorem inspect_lull (container : Json.Value) : Lull st (inspect o.charted container st).2 :=
  onClient_lull .inspect st fun n => onFirst_unnoted (o.inspect n container)

theorem resolve_lull (container : Json.Value) : Lull st (resolve o.charted container st).2 := by
  have hinspect := inspect_lull (o := o) st container
  unfold resolve
  split
  · rename_i heq
    exact hinspect.landed heq
  · rename_i heq
    have hlull := hinspect.landed heq
    split
    · exact hlull
    · exact hlull
    · exact hlull

theorem list_lull : Lull st (list o.charted st).2 :=
  onClient_lull .list st fun n => onFirst_unnoted (o.list n)

/-! ### Streams -/

variable {st}

theorem closeStream_lull (stream : Nat) : Lull st (st.closeStream o.charted stream) :=
  closeStreamWith_lull takeSignal_lull stream st

theorem rephrase_ok {f : String → Failure} {r : Except Failure α} {a : α}
    (hr : rephrase f r = .ok a) : r = .ok a := by
  unfold rephrase at hr
  split at hr
  · cases hr
  · exact hr

theorem events_opens {client stream : Nat} {v : τ × List StreamNote}
    (he : (o.charted.events client v).1 = .ok stream) :
    (o.charted.events client v).2.2 = v.2 ++ [.opened stream] := by
  unfold Outside.charted at he ⊢
  simp only at he ⊢
  split at he
  · cases he
    rfl
  · cases he

theorem events_fails {client : Nat} {f : Failure} {v : τ × List StreamNote}
    (he : (o.charted.events client v).1 = .error f) : (o.charted.events client v).2.2 = v.2 := by
  unfold Outside.charted at he ⊢
  simp only at he ⊢
  split at he
  · cases he
  · rfl

theorem call_eq {c : Call} {f : τ × List StreamNote → Except Failure α × (τ × List StreamNote)}
    {r : Except Failure α} {st' : Station (τ × List StreamNote)}
    (hc : call o.charted c f st = (r, st')) :
    let st₁ := takeSignal o.charted (.before c) st
    (f st₁.outside).1 = r ∧
      st' = takeSignal o.charted (.after c r.isOk) { st₁ with outside := (f st₁.outside).2 } := by
  cases hc
  exact ⟨rfl, rfl⟩

/-- A subscription opens the stream that it returns, between two lulls. -/
theorem subscribe_opens {stream : Nat} {st' : Station (τ × List StreamNote)}
    (hs : st.subscribe o.charted = (.ok stream, st')) :
    ∃ st₁ v, Lull st st₁ ∧ v.2 = st₁.outside.2 ++ [.opened stream] ∧
      Lull { st₁ with outside := v } st' := by
  rcases hc : onClient o.charted .events o.charted.events st with ⟨r, st₂⟩
  rw [subscribe, hc] at hs
  obtain ⟨hr, rfl⟩ := Prod.mk.inj hs
  rw [rephrase_ok hr] at hc
  unfold onClient at hc
  split at hc
  · obtain ⟨he, rfl⟩ := call_eq hc
    exact ⟨_, _, takeSignal_lull (.before .events) st, events_opens he, takeSignal_lull _ _⟩
  · cases hc

theorem subscribe_fails {f : Failure} {st' : Station (τ × List StreamNote)}
    (hs : st.subscribe o.charted = (.error f, st')) : Lull st st' := by
  rcases hc : onClient o.charted .events o.charted.events st with ⟨g | stream, st₂⟩
  · rw [subscribe, hc] at hs
    obtain ⟨-, rfl⟩ := Prod.mk.inj hs
    unfold onClient at hc
    split at hc
    · obtain ⟨he, rfl⟩ := call_eq hc
      have hbefore := takeSignal_lull (o := o) (.before .events) st
      refine (hbefore.trans (.reach ?_)).trans (takeSignal_lull _ _)
      rw [events_fails he]
      exact .refl _
    · cases hc
      exact .refl st
  · rw [subscribe, hc] at hs
    cases hs

end Station

namespace EventStream

open LayerQuota.Station

variable {τ : Type} {o : Outside τ}

theorem mounts_lull (container : Json.Value) (st : Station (τ × List StreamNote)) :
    Lull st (mounts o.charted container st).2 := by
  have hinspect := inspect_lull (o := o) st container
  unfold mounts
  split
  · rename_i heq
    exact hinspect.landed heq
  · rename_i heq
    split
    · exact (hinspect.landed heq).trans (log_lull _ _)
    · exact hinspect.landed heq
  · rename_i heq
    exact hinspect.landed heq

theorem eventOf_lull (notice : Json.Value) (st : Station (τ × List StreamNote)) :
    Lull st (eventOf o.charted notice st).2 := by
  unfold eventOf
  split
  · exact .refl st
  · exact .refl st
  · exact .refl st
  · rename_i container _
    have hmounts := mounts_lull (o := o) container st
    split
    · rename_i heq
      exact hmounts.landed heq
    · rename_i heq
      exact hmounts.landed heq

theorem next_lull
    {pull : Nat → Nat → Daemon (Station (τ × List StreamNote)) →
      Pulled × Daemon (Station (τ × List StreamNote))}
    (hpull : ∀ stream position d, Lull d.outside (pull stream position d).2.outside)
    (stream fuel position : Nat) (d : Daemon (Station (τ × List StreamNote))) :
    Lull d.outside (next o.charted pull stream fuel position d).2.outside := by
  induction fuel generalizing position d with
  | zero => exact .refl d.outside
  | succ fuel ih =>
    have hlook := hpull stream position d
    unfold next
    generalize pull stream position d = a at hlook
    obtain ⟨p, d₁⟩ := a
    cases p with
    | nothing => exact hlook.trans (ih (position + 1) d₁)
    | ended => exact hlook
    | broken f =>
      cases f <;> exact hlook
    | notice v =>
      have hevent := hlook.trans (eventOf_lull (o := o) v d₁.outside)
      simp only
      split
      · rename_i heq
        exact hevent.landed heq
      · rename_i st heq
        exact (hevent.landed heq).trans (ih (position + 1) { d₁ with outside := st })
      · rename_i heq
        exact hevent.landed heq

end EventStream

end LayerQuota
