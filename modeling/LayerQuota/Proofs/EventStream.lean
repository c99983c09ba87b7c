import LayerQuota.Proofs.Charted
import LayerQuota.Proofs.Json.Value
import LayerQuota.Rehearsal.Gateway
/-!
# What a stream of events yields

A stream that is read to its end yields one event for each notice that stands for one, in the order
of the notices and with the mounts that the look-up of the container gave. It ends quietly if it was
closed before, and as a lost connection otherwise.
-/

namespace LayerQuota

open LayerQuota.Json

/-! ### Reports of the runtime -/

/-- A value that is a text, unless it is empty. -/
def TextAtMost (v : Value) : Prop := v.truth = true → ∃ s, v = .str s

/-- A value that is an object, unless it is empty. -/
def ObjectAtMost (v : Value) : Prop := v.truth = true → ∃ ms, v = .object ms

theorem orElse_text (v w : Value) (hv : TextAtMost v) (hw : ∃ s, w = .str s) :
    ∃ s, orElse v w = .str s := by
  unfold orElse
  split
  · rename_i ht
    exact hv ht
  · exact hw

theorem orElse_object (v : Value) (hv : ObjectAtMost v) :
    ∃ ms, orElse v (.object []) = .object ms := by
  unfold orElse
  split
  · rename_i ht
    exact hv ht
  · exact ⟨[], rfl⟩

def memberOf (v : Value) (k : String) : Value := (v.get? k).getD .null

/-- The members of what a member holds, none if it is missing or empty. -/
def innerOf (v : Value) (k : String) : Value := orElse (memberOf v k) (.object [])

theorem member_object (ms : List (Str × Value)) (k : String) :
    member (.object ms) k = .ok (memberOf (.object ms) k) := rfl

namespace Inspection

/-- An inspection as the runtime gives it: what is there has its type. -/
structure WellTyped (attrs : Value) : Prop where
  object : ∃ ms, attrs = .object ms
  driver : ObjectAtMost (memberOf attrs "GraphDriver")
  data : ObjectAtMost (memberOf (innerOf attrs "GraphDriver") "Data")
  name : TextAtMost (memberOf (innerOf attrs "GraphDriver") "Name")

theorem options_object (ms : List (Str × Value)) (names : List (String × String)) :
    ∃ os, options (.object ms) names = .ok os := by
  induction names with
  | nil => exact ⟨[], rfl⟩
  | cons n names ih =>
    obtain ⟨os, hos⟩ := ih
    unfold options
    rw [member_object, hos]
    exact ⟨_, rfl⟩

theorem mounts_of_wellTyped {attrs : Value} (h : WellTyped attrs) :
    ∃ ms, mounts attrs = .ok ms := by
  obtain ⟨as, rfl⟩ := h.object
  obtain ⟨ds, hds⟩ := orElse_object _ h.driver
  have hdriver : driver (.object as) = .ok (.object ds) := congrArg Except.ok hds
  have hdata := h.data
  have hname := h.name
  rw [innerOf, hds] at hdata hname
  obtain ⟨ls, hls⟩ := orElse_object _ hdata
  have hlayers : layers (.object ds) = .ok (.object ls) := congrArg Except.ok hls
  obtain ⟨os, hos⟩ := options_object ls optionNames
  obtain ⟨n, hn⟩ := orElse_text _ (.text "overlay") hname ⟨_, rfl⟩
  have htype : (Field.text (orElse (memberOf (.object ds) "Name") (.text "overlay"))).under "type" =
      .valid n.text := by
    rw [hn]
    rfl
  unfold mounts
  rw [hdriver]
  simp only [bind, Except.bind, hlayers, hos]
  split
  · exact ⟨[], rfl⟩
  · rw [member_object]
    simp only [htype]
    exact ⟨_, rfl⟩

end Inspection

namespace Notice

structure WellTyped (notice : Value) : Prop where
  object : ∃ ms, notice = .object ms
  action : TextAtMost (memberOf notice "Action")
  status : TextAtMost (memberOf notice "status")
  actor : ObjectAtMost (memberOf notice "Actor")
  actorId : TextAtMost (memberOf (innerOf notice "Actor") "ID")
  lowerId : TextAtMost (memberOf notice "id")
  upperId : TextAtMost (memberOf notice "ID")

theorem container_of_wellTyped {notice : Value} (h : WellTyped notice) :
    ∃ id, container notice = .ok id ∧ TextAtMost id := by
  obtain ⟨ns, rfl⟩ := h.object
  obtain ⟨as, has⟩ := orElse_object _ h.actor
  have hactorId := h.actorId
  rw [innerOf, has] at hactorId
  unfold container
  simp only [bind, Except.bind, member_object, has]
  split
  · exact ⟨_, rfl, hactorId⟩
  · split
    · exact ⟨_, rfl, h.lowerId⟩
    · exact ⟨_, rfl, h.upperId⟩

/-- A notice stands for no event, or for one of a container that has a text for its name. -/
theorem event?_of_wellTyped {notice : Value} (h : WellTyped notice) :
    event? notice = .ok none ∨ ∃ kind s, event? notice = .ok (some (kind, .str s)) := by
  obtain ⟨id, hid, htext⟩ := container_of_wellTyped h
  obtain ⟨ns, rfl⟩ := h.object
  obtain ⟨action, haction⟩ := orElse_text _ _ h.action (orElse_text _ (.text "") h.status ⟨_, rfl⟩)
  have hkind : ∃ k, kindOf? (.str action) = .ok k := ⟨_, rfl⟩
  obtain ⟨k, hk⟩ := hkind
  unfold event?
  simp only [bind, Except.bind, member_object, haction, hk, hid]
  split
  · exact .inl rfl
  · cases k with
    | none => exact .inl rfl
    | some kind =>
      simp only
      split
      · rename_i ht
        obtain ⟨s, rfl⟩ := htext ht
        exact .inr ⟨kind, s, rfl⟩
      · exact .inl rfl

end Notice

namespace Station

variable {τ α : Type} {o : Outside τ}

/-! ### What happens to a station that stays connected -/

/-- A client stays open, and just those streams are closed of which the chart says so. -/
structure Candid (st st' : Station (τ × List StreamNote)) : Prop where
  connected : st.gateway.client.isSome = true → st'.gateway.client.isSome = true
  closed : ∃ notes, st'.outside.2 = st.outside.2 ++ notes ∧
    ∀ n, n ∈ st'.closed ↔ n ∈ st.closed ∨ .closed n ∈ notes

namespace Candid

variable {st st₁ st' : Station (τ × List StreamNote)}

theorem same (hg : st'.gateway = st.gateway) (hc : st'.closed = st.closed)
    (ho : st'.outside.2 = st.outside.2) : Candid st st' := by
  refine ⟨fun h => hg ▸ h, [], ho.trans (List.append_nil _).symm, fun n => ?_⟩
  rw [hc, or_iff_left List.not_mem_nil]

theorem refl (st : Station (τ × List StreamNote)) : Candid st st := .same rfl rfl rfl

theorem trans (ha : Candid st st₁) (hb : Candid st₁ st') : Candid st st' := by
  obtain ⟨ns, hns, hca⟩ := ha.closed
  obtain ⟨ms, hms, hcb⟩ := hb.closed
  refine ⟨fun hc => hb.connected (ha.connected hc), ns ++ ms, ?_, fun n => ?_⟩
  · rw [hms, hns, List.append_assoc]
  · rw [hcb, hca, List.mem_append, or_assoc]

theorem landed {β : Type} {a : β} {p : β × Station (τ × List StreamNote)} (hl : Candid st p.2)
    (hp : p = (a, st')) : Candid st st' := by
  rw [hp] at hl
  exact hl

/-- A station that agrees with its chart on a stream goes on to do so. -/
theorem agrees (hc : Candid st st') {n : Nat}
    (h : st.isClosed n = true ↔ .closed n ∈ st.outside.2) :
    st'.isClosed n = true ↔ .closed n ∈ st'.outside.2 := by
  obtain ⟨notes, hnotes, hclosed⟩ := hc.closed
  unfold isClosed at h ⊢
  rw [List.contains_iff_mem] at h ⊢
  rw [hclosed, h, hnotes, List.mem_append]

end Candid

theorem log_candid (l : Line) (st : Station (τ × List StreamNote)) : Candid st (st.log l) := by
  unfold log
  split
  · exact .same rfl rfl rfl
  · exact .refl st

section Calling

variable {signal : Moment → Station (τ × List StreamNote) → Station (τ × List StreamNote)}
  (hsignal : ∀ m st, Candid st (signal m st))

include hsignal

theorem callWith_candid (c : Call)
    {f : τ × List StreamNote → Except Failure α × (τ × List StreamNote)} (hf : Unnoted f)
    (st : Station (τ × List StreamNote)) : Candid st (callWith signal c f st).2 := by
  have hf' : Candid (signal (.before c) st) { signal (.before c) st with
      outside := (f (signal (.before c) st).outside).2 } := .same rfl rfl (hf _)
  exact ((hsignal (.before c) st).trans hf').trans (hsignal _ _)

theorem closeStreamWith_candid (stream : Nat) (st : Station (τ × List StreamNote)) :
    Candid st (closeStreamWith signal o.charted stream st) := by
  -- the stream counts as closed before its call is on the chart
  have hcall : Candid st (callWith signal .closeStream (o.charted.closeStream stream)
      { st with closed := stream :: st.closed }).2 := by
    have hbefore := hsignal (.before .closeStream) { st with closed := stream :: st.closed }
    unfold callWith
    simp only
    generalize signal (.before .closeStream) { st with closed := stream :: st.closed } = st₁
      at hbefore ⊢
    obtain ⟨notes, hnotes, hclosed⟩ := hbefore.closed
    have hnoted : Candid st { st₁ with
        outside := (o.charted.closeStream stream st₁.outside).2 } := by
      refine ⟨hbefore.connected, notes ++ [.closed stream], ?_, fun n => ?_⟩
      · rw [← List.append_assoc, ← hnotes]
        rfl
      · rw [hclosed, List.mem_cons, List.mem_append, List.mem_singleton, StreamNote.closed.injEq,
          or_comm (a := n = stream), or_assoc, or_comm (a := n = stream)]
    exact hnoted.trans (hsignal _ _)
  unfold closeStreamWith
  split
  · rename_i heq
    exact hcall.landed heq
  · rename_i heq
    exact (hcall.landed heq).trans (log_candid _ _)

end Calling

theorem passSignal_candid (m : Moment) (st : Station (τ × List StreamNote)) :
    Candid st (passSignal o.charted m st) :=
  .same rfl rfl rfl

theorem runCallbacks_candid (cs : List Callback) (st : Station (τ × List StreamNote)) :
    Candid st (cs.foldl (runCallback o.charted) st) := by
  induction cs generalizing st with
  | nil => exact .refl st
  | cons c cs ih =>
    have hfirst : Candid st (runCallback o.charted st c) := by
      cases c with
      | closeStream stream => exact closeStreamWith_candid passSignal_candid stream st
      | stopServer => exact .same rfl rfl rfl
    exact hfirst.trans (ih _)

theorem cancel_candid (st : Station (τ × List StreamNote)) : Candid st (st.cancel o.charted) := by
  have htrip : Candid st { st with scope := st.scope.trip.2 } := .same rfl rfl rfl
  exact htrip.trans (runCallbacks_candid st.scope.trip.1 _)

theorem takeSignal_candid (m : Moment) (st : Station (τ × List StreamNote)) :
    Candid st (takeSignal o.charted m st) := by
  have hpoll : Candid st { st with outside := (o.charted.interrupt m st.outside).2 } :=
    .same rfl rfl rfl
  unfold takeSignal
  simp only
  split
  · exact hpoll.trans (cancel_candid _)
  · exact hpoll

theorem closeStream_candid (stream : Nat) (st : Station (τ × List StreamNote)) :
    Candid st (st.closeStream o.charted stream) :=
  closeStreamWith_candid takeSignal_candid stream st

theorem inspect_candid (container : Value) (st : Station (τ × List StreamNote)) :
    Candid st (inspect o.charted container st).2 := by
  show Candid st (onClient o.charted .inspect (o.charted.inspect · container) st).2
  unfold onClient
  split
  · exact callWith_candid takeSignal_candid .inspect (onFirst_unnoted _) st
  · exact .refl st

end Station

namespace EventStream

open LayerQuota.Station

variable {τ : Type} {o : Outside τ}

/-! ### One notice -/

/-- A notice, and what the look-up of its container answers once it was read: a failure of the
runtime, or an inspection. -/
structure Item where
  notice : Value
  answer : Except String Value

namespace Item

structure WellTyped (x : Item) : Prop where
  notice : Notice.WellTyped x.notice
  answer : ∀ attrs, x.answer = .ok attrs → Inspection.WellTyped attrs

/-- The mounts that the look-up gives, none if it failed. -/
def rootfs (x : Item) : List Mount :=
  match x.answer with
  | .ok attrs => (Inspection.mounts attrs).toOption.getD []
  | .error _ => []

/-- The event that a notice becomes. -/
def event? (x : Item) : Option Event :=
  match Notice.event? x.notice with
  | .ok (some (.create, .str s)) => some ⟨.create, s.text, x.rootfs⟩
  | .ok (some (.delete, .str s)) => some ⟨.delete, s.text, []⟩
  | _ => none

end Item

/-- The container that a notice starts is looked up with the answer that belongs to the notice. -/
def Answers (o : Outside τ) (x : Item) (st : Station (τ × List StreamNote)) : Prop :=
  ∀ n container, Notice.event? x.notice = .ok (some (.create, container)) →
    (o.inspect n container (takeSignal o.charted (.before .inspect) st).outside.1).1 =
      x.answer.mapError .runtime

theorem inspect_answer (x : Item) (container : Value) (st : Station (τ × List StreamNote))
    (hn : Notice.event? x.notice = .ok (some (.create, container)))
    (hc : st.gateway.client.isSome = true) (ha : Answers o x st) :
    (inspect o.charted container st).1 = rephrase
      (fun m => .lookup s!"docker inspect {container.display} failed: {m}")
      (x.answer.mapError .runtime) := by
  obtain ⟨n, hopen⟩ := Option.isSome_iff_exists.mp hc
  have hclient : st.client = .ok n := by
    unfold Station.client
    rw [hopen]
  rw [← ha n container hn]
  unfold inspect onClient
  rw [hclient]
  rfl

theorem mounts_spec (x : Item) (hx : x.WellTyped) (s : Str) (st : Station (τ × List StreamNote))
    (hn : Notice.event? x.notice = .ok (some (.create, .str s)))
    (hc : st.gateway.client.isSome = true) (ha : Answers o x st) :
    ∃ st', mounts o.charted (.str s) st = (.ok x.rootfs, st') ∧ Candid st st' := by
  have hcandid := inspect_candid (o := o) (.str s) st
  have hanswer := inspect_answer x (.str s) st hn hc ha
  unfold mounts Item.rootfs
  rcases hi : inspect o.charted (.str s) st with ⟨r, st₁⟩
  rw [hi] at hcandid hanswer
  cases hans : x.answer with
  | ok attrs =>
    rw [hans] at hanswer
    cases hanswer
    obtain ⟨ms, hms⟩ := Inspection.mounts_of_wellTyped (hx.answer attrs hans)
    simp only [hms]
    exact ⟨st₁, rfl, hcandid⟩
  | error m =>
    rw [hans] at hanswer
    cases hanswer
    exact ⟨_, rfl, hcandid.trans (log_candid _ _)⟩

theorem eventOf_spec (x : Item) (hx : x.WellTyped) (st : Station (τ × List StreamNote))
    (hc : st.gateway.client.isSome = true) (ha : Answers o x st) :
    ∃ st', eventOf o.charted x.notice st = (.ok x.event?, st') ∧ Candid st st' := by
  unfold eventOf Item.event?
  rcases Notice.event?_of_wellTyped hx.notice with hn | ⟨kind, s, hn⟩
  · rw [hn]
    exact ⟨st, rfl, .refl st⟩
  · rw [hn]
    cases kind with
    | delete => exact ⟨st, rfl, .refl st⟩
    | create =>
      obtain ⟨st', hm, hcandid⟩ := mounts_spec x hx s st hn hc ha
      simp only [hm]
      exact ⟨st', rfl, hcandid⟩

/-! ### The raw stream -/

/-- What the runtime sends on a stream: items, and then an end, which may be a failure. -/
structure Feed where
  items : List Item
  failure : Option String

namespace Feed

def last (f : Feed) : Pulled :=
  match f.failure with
  | none => .ended
  | some m => .broken (.runtime m)

/-- The message of a connection that is lost when the stream ends. -/
def loss (f : Feed) : String :=
  match f.failure with
  | none => "docker event stream ended"
  | some m => s!"docker event stream failed: {m}"

/-- The next thing on the stream. Anything may happen while it is awaited. -/
def pull {δ : Type} (f : Feed) (meanwhile : Nat → δ → δ) (_stream position : Nat) (d : δ) :
    Pulled × δ :=
  match f.items[position]? with
  | some x => (.notice x.notice, meanwhile position d)
  | none => (f.last, meanwhile position d)

variable {δ : Type} (f : Feed) (meanwhile : Nat → δ → δ) (stream position : Nat) (d : δ)

theorem pull_item {x : Item} (hx : f.items[position]? = some x) :
    f.pull meanwhile stream position d = (.notice x.notice, meanwhile position d) := by
  unfold pull
  rw [hx]

theorem pull_last (hx : f.items[position]? = none) :
    f.pull meanwhile stream position d = (f.last, meanwhile position d) := by
  unfold pull
  rw [hx]

end Feed

/-! ### Reading to the end -/

/-- Reads a stream to its end and hands each event to a reader. -/
def readAll {δ : Type} (next : Nat → δ → Except Failure (Option (Event × Nat)) × δ)
    (reader : Event → δ → δ) : Nat → Nat → δ → List Event × Except Failure Unit × δ
  | 0, _, d => ([], .error .unfinished, d)
  | fuel + 1, position, d =>
    match next position d with
    | (.error f, d) => ([], .error f, d)
    | (.ok none, d) => ([], .ok (), d)
    | (.ok (some (e, position)), d) =>
      let (es, r, d) := readAll next reader fuel position (reader e d)
      (e :: es, r, d)

section Reading

variable {f : Feed} (stream patience : Nat)
  {meanwhile : Nat → Daemon (Station (τ × List StreamNote)) →
    Daemon (Station (τ × List StreamNote))}
  {reader : Event → Daemon (Station (τ × List StreamNote)) →
    Daemon (Station (τ × List StreamNote))}

/-- The circumstances under which a feed is read: its reports are well typed, what happens while it
is awaited is candid, and a look-up gives the answer that belongs to the notice just read. -/
structure Attended (o : Outside τ) (f : Feed)
    (meanwhile : Nat → Daemon (Station (τ × List StreamNote)) →
      Daemon (Station (τ × List StreamNote))) : Prop where
  typed : ∀ x ∈ f.items, x.WellTyped
  candid : ∀ i d, Candid d.outside (meanwhile i d).outside
  answers : ∀ i x d, f.items[i]? = some x → Answers o x (meanwhile i d).outside

/-- What reading on from a position gives: the first event of the notices that are left, with the
position behind it, or the end. -/
inductive Reading (f : Feed) (stream position : Nat) (d : Daemon (Station (τ × List StreamNote))) :
    Except Failure (Option (Event × Nat)) × Daemon (Station (τ × List StreamNote)) → Prop
  | found (e : Event) (position' : Nat) (d' : Daemon (Station (τ × List StreamNote)))
    (hc : Candid d.outside d'.outside) (hlater : position < position')
    (hle : position' ≤ f.items.length)
    (he : (f.items.drop position).filterMap Item.event? =
      e :: (f.items.drop position').filterMap Item.event?) :
    Reading f stream position d (.ok (some (e, position')), d')
  | finished (d' : Daemon (Station (τ × List StreamNote))) (hc : Candid d.outside d'.outside)
    (he : (f.items.drop position).filterMap Item.event? = []) :
    Reading f stream position d (finish d'.outside stream f.loss, d')

theorem next_reading (ha : Attended o f meanwhile) (position : Nat)
    (d : Daemon (Station (τ × List StreamNote)))
    (hconnected : d.outside.gateway.client.isSome = true)
    (hp : f.items.length < position + patience) (hle : position ≤ f.items.length) :
    Reading f stream position d (next o.charted (f.pull meanwhile) stream patience position d) := by
  induction patience generalizing position d with
  | zero => omega
  | succ patience ih =>
    have hcandid := ha.candid position d
    unfold next
    cases hx : f.items[position]? with
    | none =>
      have hnil : f.items.drop position = [] :=
        List.drop_eq_nil_iff.mpr (List.getElem?_eq_none_iff.mp hx)
      have hend : Reading f stream position d
          (finish (meanwhile position d).outside stream f.loss, meanwhile position d) :=
        .finished _ hcandid (by rw [hnil]; rfl)
      rw [f.pull_last meanwhile stream position d hx]
      unfold Feed.loss at hend
      unfold Feed.last
      cases hf : f.failure with
      | none =>
        rw [hf] at hend
        exact hend
      | some m =>
        rw [hf] at hend
        exact hend
    | some x =>
      obtain ⟨hlt, hget⟩ := List.getElem?_eq_some_iff.mp hx
      have hdrop : f.items.drop position = x :: f.items.drop (position + 1) := by
        rw [List.drop_eq_getElem_cons hlt, hget]
      obtain ⟨st, hevent, hst⟩ := eventOf_spec x (ha.typed x (hget ▸ List.getElem_mem hlt)) _
        (hcandid.connected hconnected) (ha.answers position x d hx)
      have hc := hcandid.trans hst
      rw [f.pull_item meanwhile stream position d hx]
      simp only [hevent]
      cases he : x.event? with
      | some e =>
        refine .found e (position + 1) _ hc (Nat.lt_succ_self position) hlt ?_
        rw [hdrop, List.filterMap_cons_some he]
      | none =>
        -- a notice that is passed over leaves the events that are to come
        have hskip : (f.items.drop position).filterMap Item.event? =
            (f.items.drop (position + 1)).filterMap Item.event? := by
          rw [hdrop, List.filterMap_cons_none he]
        have hrest := ih (position + 1) { meanwhile position d with outside := st }
          (hc.connected hconnected) (by omega) hlt
        simp only
        generalize next o.charted (f.pull meanwhile) stream patience (position + 1)
          { meanwhile position d with outside := st } = a at hrest
        cases hrest with
        | found e position' d' hc' hlater hle' hfound =>
          exact .found e position' d' (hc.trans hc') (Nat.lt_of_succ_lt hlater) hle'
            (hskip.trans hfound)
        | finished d' hc' hend => exact .finished d' (hc.trans hc') (hskip.trans hend)

theorem readAll_spec (ha : Attended o f meanwhile)
    (hreader : ∀ e d, Candid d.outside (reader e d).outside) (fuel position : Nat)
    (d : Daemon (Station (τ × List StreamNote)))
    (hconnected : d.outside.gateway.client.isSome = true) (hp : f.items.length < patience)
    (hf : f.items.length < position + fuel) (hle : position ≤ f.items.length) :
    ∃ d', Candid d.outside d'.outside ∧
      readAll (next o.charted (f.pull meanwhile) stream patience) reader fuel position d =
        ((f.items.drop position).filterMap Item.event?,
          if d'.outside.isClosed stream then .ok () else .error (.stream f.loss), d') := by
  induction fuel generalizing position d with
  | zero => omega
  | succ fuel ih =>
    have hnext := next_reading stream patience ha position d hconnected (by omega) hle
    unfold readAll
    generalize next o.charted (f.pull meanwhile) stream patience position d = a at hnext
    cases hnext with
    | finished d' hc he =>
      refine ⟨d', hc, ?_⟩
      rw [he]
      unfold finish
      cases d'.outside.isClosed stream with
      | true => rfl
      | false => rfl
    | found e position' d₁ hc hlater hle' he =>
      have hc₁ := hc.trans (hreader e d₁)
      obtain ⟨d', hc', hrest⟩ := ih position' (reader e d₁) (hc₁.connected hconnected) (by omega)
        hle'
      refine ⟨d', hc₁.trans hc', ?_⟩
      simp only [hrest, he]

/-- A stream that is read to its end yields just the events of its notices, in their order, and ends
quietly if and only if it was closed by then. -/
theorem readAll_exact (o : Outside τ) (ha : Attended o f meanwhile)
    (hreader : ∀ e d, Candid d.outside (reader e d).outside) (fuel : Nat)
    (d : Daemon (Station (τ × List StreamNote)))
    (hconnected : d.outside.gateway.client.isSome = true)
    (hstart : d.outside.isClosed stream = true ↔ .closed stream ∈ d.outside.outside.2)
    (hp : f.items.length < patience) (hf : f.items.length < fuel) :
    let p := readAll (next o.charted (f.pull meanwhile) stream patience) reader fuel 0 d
    p.1 = f.items.filterMap Item.event? ∧
      (p.2.1 = .ok () ↔ .closed stream ∈ p.2.2.outside.outside.2) ∧
      (p.2.1 ≠ .ok () → p.2.1 = .error (.stream f.loss)) := by
  intro p
  obtain ⟨d', hc, hp⟩ := readAll_spec stream patience ha hreader fuel 0 d hconnected hp (by omega)
    (Nat.zero_le _)
  have hp : p = _ := hp
  have hclosed := hc.agrees hstart
  rw [hp]
  refine ⟨rfl, ?_, ?_⟩
  · rw [← hclosed]
    cases d'.outside.isClosed stream with
    | true => exact iff_of_true rfl rfl
    | false => exact iff_of_false nofun nofun
  · cases d'.outside.isClosed stream with
    | true => exact fun hne => absurd rfl hne
    | false => exact fun _ => rfl

end Reading

def noticeOf (action container : String) : Value :=
  .object [(Str.ofString "Type", .text "container"), (Str.ofString "status", .text action),
    (Str.ofString "id", .text container)]

theorem noticeOf_wellTyped (action container : String) :
    Notice.WellTyped (noticeOf action container) where
  object := ⟨_, rfl⟩
  action := nofun
  status := fun _ => ⟨_, rfl⟩
  actor := nofun
  actorId := nofun
  lowerId := fun _ => ⟨_, rfl⟩
  upperId := nofun

/-- What an inspection says of a container whose layer is `/u`. -/
def overlayAt : Value :=
  .object [(Str.ofString "GraphDriver", .object [(Str.ofString "Name", .text "overlay2"),
    (Str.ofString "Data", .object [(Str.ofString "UpperDir", .text "/u")])])]

theorem overlayAt_wellTyped : Inspection.WellTyped overlayAt where
  object := ⟨_, rfl⟩
  driver := fun _ => ⟨_, rfl⟩
  data := fun _ => ⟨_, rfl⟩
  name := fun _ => ⟨_, rfl⟩

/-- A runtime that knows one container. -/
def knowing : Outside Unit where
  interrupt _ _ := (false, ())
  makeClient _ _ _ := (.ok 1, ())
  ping _ _ := (.ok (), ())
  closeClient _ _ := (.ok (), ())
  list _ _ := (.ok [], ())
  inspect _ container _ :=
    (if container.text? = some "a" then .ok overlayAt else .error (.runtime "not found"), ())
  info _ _ := (.error (.runtime "not found"), ())
  events _ _ := (.ok 0, ())
  closeStream _ _ := (.error (.runtime "connection reset"), ())
  tag _ _ _ := ((.ok (), []), ())
  setLimit _ _ _ _ := ((.ok (), []), ())
  readTag _ _ := ((.ok 0, []), ())
  isPresent _ _ := (.ok false, ())
  read path _ := (.error (.noSuchFile [path]), ())
  save _ _ _ := (.ok (), ())

def brokenFeed : Feed where
  items := [⟨noticeOf "start" "a", .ok overlayAt⟩, ⟨noticeOf "pause" "a", .error "unasked"⟩,
    ⟨noticeOf "start" "b", .error "not found"⟩, ⟨noticeOf "die" "a", .error "unasked"⟩]
  failure := some "connection reset"

/-- Someone closes the stream when its third notice is awaited. -/
def closingThird (position : Nat) (d : Daemon (Station (Unit × List StreamNote))) :
    Daemon (Station (Unit × List StreamNote)) :=
  if position = 2 then { d with outside := d.outside.closeStream knowing.charted 0 } else d

theorem brokenFeed_attended : Attended knowing brokenFeed closingThird where
  typed := by
    intro x hx
    simp only [brokenFeed, List.mem_cons, List.not_mem_nil, or_false] at hx
    rcases hx with rfl | rfl | rfl | rfl
    · refine ⟨noticeOf_wellTyped _ _, fun attrs h => ?_⟩
      cases h
      exact overlayAt_wellTyped
    · exact ⟨noticeOf_wellTyped _ _, nofun⟩
    · exact ⟨noticeOf_wellTyped _ _, nofun⟩
    · exact ⟨noticeOf_wellTyped _ _, nofun⟩
  candid := by
    intro i d
    unfold closingThird
    split
    · exact closeStream_candid (o := knowing) 0 d.outside
    · exact .refl d.outside
  answers := by
    intro i x d hx n container hn
    have hmem := List.mem_of_getElem? hx
    simp only [brokenFeed, List.mem_cons, List.not_mem_nil, or_false] at hmem
    rcases hmem with rfl | rfl | rfl | rfl
    · cases hn
      rfl
    · cases hn
    · cases hn
      rfl
    · cases hn

theorem brokenFeed_readAll_exact :
    let core := Core.opening ⟨"10g", "12g", .ofInt 5, some 3⟩ ⟨1, 2, []⟩ ⟨"", []⟩
    let d : Daemon (Station (Unit × List StreamNote)) :=
      ⟨core, ⟨⟨"", .whole 10, some 1⟩, .fresh, [], false, 0, [], ((), [])⟩⟩
    let p := readAll (next knowing.charted (brokenFeed.pull closingThird) 0 9) (fun _ d => d) 9 0 d
    Attended knowing brokenFeed closingThird ∧
      brokenFeed.items.filterMap Item.event? =
        [⟨.create, "a", [⟨"overlay2", "overlay", ["upperdir=/u"]⟩]⟩, ⟨.create, "b", []⟩,
          ⟨.delete, "a", []⟩] ∧
      p.2.1.isOk = true ∧ p.1 = brokenFeed.items.filterMap Item.event? ∧
      (p.2.1 = .ok () ↔ .closed 0 ∈ p.2.2.outside.outside.2) ∧
      (p.2.1 ≠ .ok () → p.2.1 = .error (.stream brokenFeed.loss)) := by
  intro core d p
  have hstart : d.outside.isClosed 0 = true ↔ .closed 0 ∈ d.outside.outside.2 :=
    iff_of_false nofun nofun
  exact ⟨brokenFeed_attended, by decide +kernel, by decide +kernel,
    readAll_exact 0 9 knowing brokenFeed_attended (fun _ d => .refl d.outside) 9 d rfl hstart
      (by decide) (by decide)⟩

end EventStream

namespace Rehearsal.GatewayStage

open LayerQuota.EventStream

/-- A rehearsal reads a stream as `readAll` does, and does nothing with its events. -/
theorem readEvents_eq_readAll
    (next : Nat → GatewayStage → Except Failure (Option (Event × Nat)) × GatewayStage)
    (fuel position : Nat) (seen : List Event) (d : GatewayStage) :
    let p := readAll next (fun _ d => d) fuel position d
    readEvents next none fuel position seen d =
      (.events (seen ++ p.1) (match p.2.1 with | .ok _ => none | .error f => some f), p.2.2) := by
  induction fuel generalizing position seen d with
  | zero =>
    simp only [readEvents, readAll, List.append_nil]
  | succ fuel ih =>
    unfold readEvents readAll
    rcases next position d with ⟨f | _ | ⟨e, position'⟩, d₁⟩
    · simp only [List.append_nil]
    · simp only [List.append_nil]
    · simp only [ih position' (seen ++ [e]) d₁, List.append_assoc, List.singleton_append]

end Rehearsal.GatewayStage

end LayerQuota
