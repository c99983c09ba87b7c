import LayerQuota.Enforcer.Memory
import LayerQuota.Proofs.Daemon.Failing
import LayerQuota.Proofs.Daemon.Frame
/-!
# Calls that are noted

A host, and waits, that note every call beside the state outside, in the order in which the calls are
made, with whether the scope was cancelled when the call was made.
-/

namespace LayerQuota

inductive HostCall
  | log (l : Line)
  | save (path : String)
  | list
  | resolve (container : String)
  | isPresent (dir : Layer)
  | quota (call : QuotaCall)
  | connect
  | disconnect
  | subscribe
  | closeStream (stream : Nat)
  | onCancel (stream : Nat)
  | unregister (token : Nat)
  | next (stream position : Nat)
  | sleep (seconds : Number.Binary64)

/-- A call, and whether the scope was cancelled when it was made. -/
structure Noted where
  late : Bool
  call : HostCall

namespace Host

variable {σ α : Type} (h : Host σ)

def noted (call : HostCall) (f : σ → α × σ) (v : σ × List Noted) : α × (σ × List Noted) :=
  ((f v.1).1, (f v.1).2, v.2 ++ [⟨h.cancelled v.1, call⟩])

/-- A host that notes its calls. -/
def watched : Host (σ × List Noted) where
  log l v := (h.log l v.1, v.2 ++ [⟨h.cancelled v.1, .log l⟩])
  save path text := h.noted (.save path) (h.save path text)
  read path := onFirst (h.read path)
  cancelled v := h.cancelled v.1
  tag dir id := h.noted (.quota (.tag dir id)) (h.tag dir id)
  setLimit id soft hard := h.noted (.quota (.setLimit id soft hard)) (h.setLimit id soft hard)
  readTag dir := h.noted (.quota (.readTag dir)) (h.readTag dir)
  isPresent dir := h.noted (.isPresent dir) (h.isPresent dir)
  list := h.noted .list h.list
  resolve c := h.noted (.resolve c) (h.resolve c)
  connect := h.noted .connect h.connect
  disconnect v := (h.disconnect v.1, v.2 ++ [⟨h.cancelled v.1, .disconnect⟩])
  subscribe := h.noted .subscribe h.subscribe
  closeStream n v := (h.closeStream n v.1, v.2 ++ [⟨h.cancelled v.1, .closeStream n⟩])
  onCancel n := h.noted (.onCancel n) (h.onCancel n)
  unregister n v := (h.unregister n v.1, v.2 ++ [⟨h.cancelled v.1, .unregister n⟩])

/-- Waits that note their calls. -/
def watchedWaits (w : Waits σ) : Waits (σ × List Noted) where
  next stream position d :=
    let (r, d') := w.next stream position ⟨d.core, d.outside.1⟩
    (r, ⟨d'.core, d'.outside, d.outside.2 ++ [⟨h.cancelled d.outside.1, .next stream position⟩]⟩)
  sleep seconds d :=
    let (r, d') := w.sleep seconds ⟨d.core, d.outside.1⟩
    (r, ⟨d'.core, d'.outside, d.outside.2 ++ [⟨h.cancelled d.outside.1, .sleep seconds⟩]⟩)

/-! ### Notes that were added -/

/-- The notes grew, by notes of a kind. -/
def Grown (P : Noted → Prop) (ns ns' : List Noted) : Prop :=
  ∃ new, ns' = ns ++ new ∧ ∀ n ∈ new, P n

variable {P : Noted → Prop} {ns ns₁ ns₂ : List Noted}

theorem Grown.refl (ns : List Noted) : Grown P ns ns :=
  ⟨[], (List.append_nil ns).symm, fun _ hm => absurd hm List.not_mem_nil⟩

theorem Grown.snoc (hg : Grown P ns ns₁) (n : Noted) (hn : P n) : Grown P ns (ns₁ ++ [n]) := by
  obtain ⟨new, rfl, hnew⟩ := hg
  refine ⟨new ++ [n], List.append_assoc ns new [n], fun x hx => ?_⟩
  rcases List.mem_append.mp hx with hx | hx
  · exact hnew x hx
  · rw [List.mem_singleton.mp hx]
    exact hn

theorem Grown.trans (ha : Grown P ns ns₁) (hb : Grown P ns₁ ns₂) : Grown P ns ns₂ := by
  obtain ⟨xs, rfl, hx⟩ := ha
  obtain ⟨ys, rfl, hy⟩ := hb
  refine ⟨xs ++ ys, List.append_assoc ns xs ys, fun n hn => ?_⟩
  rcases List.mem_append.mp hn with hn | hn
  · exact hx n hn
  · exact hy n hn

/-! ### Calls of events and reconciliations -/

/-- The calls that events and reconciliations make: none has to do with the connection or announces a
phase, and tags are put and limits are set only where the scope is not cancelled. -/
inductive Steady : Noted → Prop
  | log (late : Bool) (l : Line) (hl : announced? l = none) : Steady ⟨late, .log l⟩
  | save (late : Bool) (path : String) : Steady ⟨late, .save path⟩
  | list (late : Bool) : Steady ⟨late, .list⟩
  | resolve (late : Bool) (c : String) : Steady ⟨late, .resolve c⟩
  | isPresent (late : Bool) (dir : Layer) : Steady ⟨late, .isPresent dir⟩
  | readTag (late : Bool) (dir : Layer) : Steady ⟨late, .quota (.readTag dir)⟩
  | clear (late : Bool) (id : Int) : Steady ⟨late, .quota (.setLimit id noLimit noLimit)⟩
  | tag (dir : Layer) (id : Int) : Steady ⟨false, .quota (.tag dir id)⟩
  | setLimit (id : Int) (soft hard : String) : Steady ⟨false, .quota (.setLimit id soft hard)⟩

theorem watched_upholds (ns : List Noted) :
    h.watched.Upholds fun v => Grown Steady ns v.2 where
  log l _ hl hv := hv.snoc _ (.log _ l hl)
  save path _ _ hv := hv.snoc _ (.save _ path)
  list _ hv := hv.snoc _ (.list _)
  resolve c _ hv := hv.snoc _ (.resolve _ c)
  isPresent dir _ hv := hv.snoc _ (.isPresent _ dir)
  readTag dir _ hv := hv.snoc _ (.readTag _ dir)
  clear id _ hv := hv.snoc _ (.clear _ id)
  tag dir id v hc hv := by
    have hnote := hv.snoc ⟨false, .quota (.tag dir id)⟩ (.tag dir id)
    rw [← hc] at hnote
    exact hnote
  setLimit id soft hard v hc hv := by
    have hnote := hv.snoc ⟨false, .quota (.setLimit id soft hard)⟩ (.setLimit id soft hard)
    rw [← hc] at hnote
    exact hnote

theorem reconcile_steady (d : Daemon (σ × List Noted)) :
    (Act.run h.watched.reconcile d).2.core.phase = d.core.phase ∧
      Grown Steady d.outside.2 (Act.run h.watched.reconcile d).2.outside.2 := by
  obtain ⟨hloop, hnotes⟩ := (h.watched_upholds d.outside.2).reconcile d (.refl _)
  exact ⟨hloop.phase, hnotes⟩

theorem handled_steady (x : Delivery (σ × List Noted)) :
    (h.watched.handled x).core.phase = x.daemon.core.phase ∧
      Grown Steady x.daemon.outside.2 (h.watched.handled x).outside.2 :=
  (h.watched_upholds x.daemon.outside.2).handle x.event x.daemon (.refl _)

/-! ### Calls of a connection -/

/-- The calls that open and close a connection and wait for its events. Whether the scope is cancelled
was looked up before the first of them only. -/
inductive Linking (late : Bool) : Noted → Prop
  | connect : Linking late ⟨late, .connect⟩
  | subscribe (b : Bool) : Linking late ⟨b, .subscribe⟩
  | disconnect (b : Bool) : Linking late ⟨b, .disconnect⟩
  | closeStream (b : Bool) (n : Nat) : Linking late ⟨b, .closeStream n⟩
  | onCancel (b : Bool) (n : Nat) : Linking late ⟨b, .onCancel n⟩
  | unregister (b : Bool) (n : Nat) : Linking late ⟨b, .unregister n⟩
  | next (b : Bool) (stream position : Nat) : Linking late ⟨b, .next stream position⟩

variable {h}

theorem noted_eq {call : HostCall} {f : σ → α × σ} {v v' : σ × List Noted} {a : α}
    (hf : h.noted call f v = (a, v')) :
    f v.1 = (a, v'.1) ∧ v'.2 = v.2 ++ [⟨h.cancelled v.1, call⟩] := by
  cases hf
  exact ⟨rfl, rfl⟩

theorem Opening.linking {v v' : σ × List Noted} {r : Except Failure Nat}
    (ho : h.watched.Opening v r v') : Grown (Linking (h.cancelled v.1)) v.2 v'.2 := by
  have hconnect : ∀ {a v₁}, h.watched.connect v = (a, v₁) →
      Grown (Linking (h.cancelled v.1)) v.2 v₁.2 := by
    intro a v₁ hc
    rw [(noted_eq hc).2]
    exact (Grown.refl v.2).snoc _ .connect
  have hsubscribe : ∀ {a v₁ v₂}, h.watched.subscribe v₁ = (a, v₂) →
      Grown (Linking (h.cancelled v.1)) v₁.2 v₂.2 := by
    intro a v₁ v₂ hs
    rw [(noted_eq hs).2]
    exact (Grown.refl v₁.2).snoc _ (.subscribe _)
  cases ho with
  | opened stream v₁ v₂ hc hs => exact (hconnect hc).trans (hsubscribe hs)
  | unconnected f v₁ hc =>
    split
    · exact (hconnect hc).snoc _ (.disconnect _)
    · exact hconnect hc
  | unsubscribed f v₁ v₂ hc hs =>
    have hboth := (hconnect hc).trans (hsubscribe hs)
    split
    · exact hboth.snoc _ (.disconnect _)
    · exact hboth

theorem hungUp_linking (late : Bool) (stream : Nat) (token : Option Nat) (v : σ × List Noted) :
    Grown (Linking late) v.2 (h.watched.hungUp stream token v).2 := by
  cases token with
  | none => exact ((Grown.refl v.2).snoc _ (.closeStream _ stream)).snoc _ (.disconnect _)
  | some t =>
    exact (((Grown.refl v.2).snoc _ (.unregister _ t)).snoc _ (.closeStream _ stream)).snoc _
      (.disconnect _)

theorem onCancel_linking (late : Bool) {stream : Nat} {token : Option Nat}
    {v v' : σ × List Noted} (ht : h.watched.onCancel stream v = (token, v')) :
    Grown (Linking late) v.2 v'.2 := by
  rw [(noted_eq ht).2]
  exact (Grown.refl v.2).snoc _ (.onCancel _ stream)

theorem next_linking (late : Bool) {w : Waits σ} {stream position : Nat}
    {d d' : Daemon (σ × List Noted)} {a : Except Failure (Option (Event × Nat))}
    (hn : (h.watchedWaits w).next stream position d = (a, d')) :
    Grown (Linking late) d.outside.2 d'.outside.2 := by
  cases hn
  exact (Grown.refl d.outside.2).snoc _ (.next _ stream position)

/-! ### What a host keeps that is watched -/

theorem watched_regular (hr : h.Regular) : h.watched.Regular := by
  refine ⟨fun path id v f v' ht => ?_, fun id soft hard v f v' hl => ?_, fun c v dir v' hres => ?_⟩
  · exact hr.tag path id v.1 f v'.1 (noted_eq ht).1
  · exact hr.setLimit id soft hard v.1 f v'.1 (noted_eq hl).1
  · exact hr.resolve c v.1 dir v'.1 (noted_eq hres).1

theorem watched_documented {w : Waits σ} (hg : Documented h w) :
    Documented h.watched (h.watchedWaits w) where
  toRegular := watched_regular hg.toRegular
  connect v f v' hc := hg.connect v.1 f v'.1 (noted_eq hc).1
  subscribe v f v' hs := hg.subscribe v.1 f v'.1 (noted_eq hs).1
  list v f v' hl := hg.list v.1 f v'.1 (noted_eq hl).1
  lookup c v f v' hres := hg.lookup c v.1 f v'.1 (noted_eq hres).1
  isPresent path v f v' hp := hg.isPresent path v.1 f v'.1 (noted_eq hp).1
  next stream position d f d' hn := by
    rcases hw : w.next stream position ⟨d.core, d.outside.1⟩ with ⟨r, d₁⟩
    simp only [watchedWaits, hw] at hn
    cases hn
    exact hg.next stream position _ f d₁ hw

theorem watched_conclusive {w : Waits σ} (hf : Conclusive h w) :
    Conclusive h.watched (h.watchedWaits w) where
  connect v := hf.connect v.1
  subscribe v := hf.subscribe v.1
  list v := hf.list v.1
  resolve c v := hf.resolve c v.1
  isPresent c v dir v' := hf.isPresent c v.1 dir v'.1
  tag c v dir id v' := hf.tag c v.1 dir id v'.1
  setLimit id soft hard v := hf.setLimit id soft hard v.1
  next stream position d := hf.next stream position ⟨d.core, d.outside.1⟩

theorem watched_apart {w : Waits σ} (hw : w.Apart) : (h.watchedWaits w).Apart :=
  ⟨fun stream position d => hw.next stream position ⟨d.core, d.outside.1⟩,
    fun seconds d => hw.sleep seconds ⟨d.core, d.outside.1⟩⟩

theorem watched_lasting (hs : h.Lasting) : h.watched.Lasting :=
  ⟨fun l v => hs.log l v.1, fun c v => hs.resolve c v.1, fun v => hs.disconnect v.1,
    fun n v => hs.closeStream n v.1, fun n v => hs.unregister n v.1⟩

theorem watched_able {c : Core} {v : σ × List Noted} (hd : h.Able ⟨c, v.1⟩) :
    h.watched.Able ⟨c, v⟩ :=
  ⟨hd.recordable, fun text v v' hs => hd.nameable text v.1 v'.1 (noted_eq hs).1⟩

theorem watched_sleep {w : Waits σ} {x : Number.Binary64} {d d' : Daemon (σ × List Noted)}
    {a : Except Failure Bool} (hs : (h.watchedWaits w).sleep x d = (a, d')) :
    w.sleep x ⟨d.core, d.outside.1⟩ = (a, ⟨d'.core, d'.outside.1⟩) ∧
      d'.outside.2 = d.outside.2 ++ [⟨h.cancelled d.outside.1, .sleep x⟩] := by
  cases hs
  exact ⟨rfl, rfl⟩

end Host

end LayerQuota
