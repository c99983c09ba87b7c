import LayerQuota.Proofs.Daemon.Phases
/-!
# Giving up

A run counts the connections that were lost in a row. One that came to listening before it was lost
is the first of its row, any other is one more. The run gives up at the first connection with which
the count exceeds the bound, and before each connection but the first it slept for the set delay.
-/

namespace LayerQuota

/-- What a run passes, of all that decides on giving up. -/
inductive Milestone
  | connecting
  | listening
  | slept (seconds : Number.Binary64)
deriving DecidableEq

def HostCall.milestone? : HostCall → Option Milestone
  | .connect => some .connecting
  | .log l => if Host.announced? l = some .listening then some .listening else none
  | .sleep seconds => some (.slept seconds)
  | _ => none

namespace Host

variable {σ : Type} {h : Host σ} {w : Waits σ}

/-! ### Rows of lost connections -/

/-- How many connections were lost in a row, if there were `n` before these. Of each the list tells
whether it came to listening. -/
def inARow (n : Nat) (ks : List Bool) : Nat :=
  ks.foldl (fun n listened => if listened then 1 else n + 1) n

def Exceeds (cap : Option Int) (n : Nat) : Prop := ∃ most, cap = some most ∧ most < n

/-- No connection of a list exceeds the bound, if `n` were lost in a row before. -/
def Within (cap : Option Int) (n : Nat) (ks : List Bool) : Prop :=
  ∀ k, 0 < k → k ≤ ks.length → ¬Exceeds cap (inARow n (ks.take k))

theorem inARow_append (n : Nat) (ks ks' : List Bool) :
    inARow n (ks ++ ks') = inARow (inARow n ks) ks' :=
  List.foldl_append

theorem Within.nil (cap : Option Int) (n : Nat) : Within cap n [] := by
  intro k hpos hk
  exact absurd hpos (Nat.not_lt.mpr hk)

theorem Within.cons {cap : Option Int} {n : Nat} {b : Bool} {ks : List Bool}
    (hb : ¬Exceeds cap (inARow n [b])) (hks : Within cap (inARow n [b]) ks) :
    Within cap n (b :: ks) := by
  intro k hpos hk
  match k with
  | 1 => exact hb
  | k + 2 =>
    have hle : k + 1 ≤ ks.length := Nat.le_of_succ_le_succ hk
    exact hks (k + 1) k.succ_pos hle

theorem gaveUp_some (c : Core) (most : Int) (hg : gaveUp c = some most) :
    Exceeds c.settings.maxReconnects c.failures := by
  unfold gaveUp at hg
  split at hg
  · rename_i n hcap
    split at hg
    · rename_i hlt
      exact ⟨n, hcap, hlt⟩
    · cases hg
  · cases hg

theorem gaveUp_none (c : Core) (hg : gaveUp c = none) :
    ¬Exceeds c.settings.maxReconnects c.failures := by
  rintro ⟨most, hcap, hlt⟩
  rw [gaveUp, hcap] at hg
  simp only [hlt, if_true] at hg
  cases hg

/-! ### Milestones -/

def milestones (ns : List Noted) : List Milestone := ns.filterMap fun n => n.call.milestone?

def lap (listened : Bool) : List Milestone :=
  .connecting :: if listened then [.listening] else []

def round (delay : Number.Binary64) (listened : Bool) : List Milestone :=
  lap listened ++ [.slept delay]

theorem count_connecting_lap (listened : Bool) : (lap listened).count .connecting = 1 := by
  cases listened with
  | true => rfl
  | false => rfl

theorem count_slept_lap (seconds : Number.Binary64) (listened : Bool) :
    (lap listened).count (.slept seconds) = 0 := by
  cases listened with
  | true => rfl
  | false => rfl

theorem count_connecting_rounds (delay : Number.Binary64) (ks : List Bool) :
    (ks.flatMap (round delay)).count .connecting = ks.length := by
  induction ks with
  | nil => rfl
  | cons b ks ih =>
    rw [List.flatMap_cons, List.count_append, ih, round, List.count_append, count_connecting_lap,
      List.length_cons]
    exact Nat.add_comm 1 ks.length

theorem count_slept_rounds (delay : Number.Binary64) (ks : List Bool) :
    (ks.flatMap (round delay)).count (.slept delay) = ks.length := by
  induction ks with
  | nil => rfl
  | cons b ks ih =>
    rw [List.flatMap_cons, List.count_append, ih, round, List.count_append, count_slept_lap,
      List.count_singleton_self, List.length_cons]
    omega

theorem milestones_append (ns ns' : List Noted) :
    milestones (ns ++ ns') = milestones ns ++ milestones ns' :=
  List.filterMap_append

theorem milestones_of_steady {ns ns' : List Noted} (hg : Grown Steady ns ns') :
    milestones ns' = milestones ns := by
  obtain ⟨new, rfl, hnew⟩ := hg
  have hnone : milestones new = [] := by
    refine List.filterMap_eq_nil_iff.mpr fun n hn => ?_
    cases hnew n hn with
    | log late l hl => simp [HostCall.milestone?, hl]
    | _ => rfl
  rw [milestones_append, hnone, List.append_nil]

/-- Between two daemons just these milestones were passed, with nothing set or counted but that
listening starts a new row. -/
structure Went (ms : List Milestone) (d d' : Daemon (σ × List Noted)) : Prop where
  notes : milestones d'.outside.2 = milestones d.outside.2 ++ ms
  settings : d'.core.settings = d.core.settings
  reconnects : d'.core.reconnects = d.core.reconnects
  failures : d'.core.failures = if .listening ∈ ms then 0 else d.core.failures

namespace Went

variable {ms ms' : List Milestone} {d d₁ d' : Daemon (σ × List Noted)}

theorem trans (ha : Went ms d d₁) (hb : Went ms' d₁ d') : Went (ms ++ ms') d d' where
  notes := by rw [hb.notes, ha.notes, List.append_assoc]
  settings := hb.settings.trans ha.settings
  reconnects := hb.reconnects.trans ha.reconnects
  failures := by
    rw [hb.failures, ha.failures]
    by_cases hl : Milestone.listening ∈ ms'
    · rw [if_pos hl, if_pos (List.mem_append_right ms hl)]
    · simp only [List.mem_append, hl, or_false, if_false]

theorem of_core (hm : milestones d'.outside.2 = milestones d.outside.2 ++ ms)
    (hc : d'.core = d.core) (hl : .listening ∉ ms) : Went ms d d' :=
  ⟨hm, by rw [hc], by rw [hc], by rw [hc, if_neg hl]⟩

theorem steady (hs : Core.SameLoop d.core d'.core) (hg : Grown Steady d.outside.2 d'.outside.2) :
    Went [] d d' where
  notes := (milestones_of_steady hg).trans (List.append_nil _).symm
  settings := hs.settings
  reconnects := hs.reconnects
  failures := hs.failures

theorem log (l : Line) (hl : l.level ≠ .debug) (d : Daemon (σ × List Noted)) :
    Went [] d ⟨d.core, h.watched.log l d.outside⟩ :=
  steady (.refl d.core) ((Grown.refl _).snoc _ (.log _ l (announced?_of_level l hl)))

theorem entered (p : Phase) (hp : p ≠ .listening) (d : Daemon (σ × List Noted)) :
    Went [] d (h.watched.entered p d) := by
  by_cases hsame : d.core.phase = p
  · rw [Host.entered, if_pos hsame]
    exact of_core (List.append_nil _).symm rfl List.not_mem_nil
  · rw [Host.entered, if_neg hsame]
    have hnone : (HostCall.log (phaseLine p)).milestone? = none := by
      simp [HostCall.milestone?, announced?_phaseLine, hp]
    refine ⟨(milestones_append _ _).trans (congrArg _ ?_), rfl, rfl, rfl⟩
    exact List.filterMap_cons_none hnone

theorem attending (d : Daemon (σ × List Noted)) (hd : d.core.phase ≠ .listening) :
    Went [.listening] d (h.watched.attending d) := by
  have hlog := log (h := h) ⟨.info, "Listening for container events..."⟩ nofun
    (h.watched.entered .listening d)
  have hsome : (HostCall.log (phaseLine .listening)).milestone? = some .listening := by
    simp [HostCall.milestone?, announced?_phaseLine]
  have henter : milestones (h.watched.entered .listening d).outside.2 =
      milestones d.outside.2 ++ [.listening] := by
    rw [Host.entered, if_neg hd]
    exact (milestones_append _ _).trans (congrArg _ (List.filterMap_cons_some hsome))
  refine ⟨?_, ?_, ?_, rfl⟩
  · rw [← henter]
    exact hlog.notes.trans (List.append_nil _)
  · rw [Host.attending, Host.entered, if_neg hd]
  · rw [Host.attending, Host.entered, if_neg hd]

theorem reconcile (d : Daemon (σ × List Noted)) : Went [] d (Act.run h.watched.reconcile d).2 := by
  obtain ⟨hloop, hnotes⟩ := (h.watched_upholds d.outside.2).reconcile d (.refl _)
  exact steady hloop hnotes

theorem handled (x : Delivery (σ × List Noted)) : Went [] x.daemon (h.watched.handled x) := by
  obtain ⟨-, hnotes⟩ := h.handled_steady x
  have happly := ((h.watched_upholds x.daemon.outside.2).applyEvent x.event x.daemon (.refl _)).1
  have hmilestones := (milestones_of_steady hnotes).trans (List.append_nil _).symm
  obtain ⟨d', hrun, ho⟩ := h.watched.handleEvent_outcome x.event x.daemon
  rw [Host.handled, serve, hrun] at hmilestones ⊢
  generalize (Act.run (h.watched.applyEvent x.event) x.daemon).1 = r at ho
  -- what is counted as handled or as failed is none of what a row is counted by
  cases ho with
  | applied => exact ⟨hmilestones, happly.settings, happly.reconnects, happly.failures⟩
  | dropped m => exact ⟨hmilestones, happly.settings, happly.reconnects, happly.failures⟩
  | failed f m hf => exact ⟨hmilestones, happly.settings, happly.reconnects, happly.failures⟩

end Went

/-! ### Connections -/

theorem Opening.went {c : Core} {v v' : σ × List Noted} {r : Except Failure Nat}
    (ho : h.watched.Opening v r v') : Went [.connecting] ⟨c, v⟩ ⟨c, v'⟩ := by
  have hconnect : ∀ {a v₁}, h.watched.connect v = (a, v₁) →
      milestones v₁.2 = milestones v.2 ++ [.connecting] := by
    intro a v₁ hc
    rw [(noted_eq hc).2]
    exact milestones_append _ _
  have hsubscribe : ∀ {a v₁ v₂}, h.watched.subscribe v₁ = (a, v₂) →
      milestones v₂.2 = milestones v₁.2 := by
    intro a v₁ v₂ hs
    rw [(noted_eq hs).2]
    exact (milestones_append _ _).trans (List.append_nil _)
  have hdisconnect : ∀ (b : Bool) (v₁ : σ × List Noted),
      milestones (if b then h.watched.disconnect v₁ else v₁).2 = milestones v₁.2 := by
    intro b v₁
    cases b with
    | true => exact (milestones_append _ _).trans (List.append_nil _)
    | false => rfl
  refine .of_core ?_ rfl (by decide)
  cases ho with
  | opened stream v₁ v₂ hc hs => exact (hsubscribe hs).trans (hconnect hc)
  | unconnected f v₁ hc => exact (hdisconnect f.isOwn v₁).trans (hconnect hc)
  | unsubscribed f v₁ v₂ hc hs =>
    exact ((hdisconnect f.isOwn v₂).trans (hsubscribe hs)).trans (hconnect hc)

theorem onCancel_went {c : Core} {stream : Nat} {token : Option Nat} {v v' : σ × List Noted}
    (ht : h.watched.onCancel stream v = (token, v')) : Went [] ⟨c, v⟩ ⟨c, v'⟩ := by
  refine .of_core ?_ rfl List.not_mem_nil
  show milestones v'.2 = _
  rw [(noted_eq ht).2]
  exact milestones_append _ _

theorem hungUp_went (stream : Nat) (token : Option Nat) (d : Daemon (σ × List Noted)) :
    Went [] d ⟨d.core, h.watched.hungUp stream token d.outside⟩ := by
  refine .of_core ?_ rfl List.not_mem_nil
  cases token with
  | none => simp [hungUp, watched, milestones, HostCall.milestone?]
  | some t => simp [hungUp, watched, milestones, HostCall.milestone?]

section Connection

variable (hw : w.Apart)

include hw

theorem Receiving.went {stream position : Nat} {d d' : Daemon (σ × List Noted)}
    {xs : List (Delivery (σ × List Noted))} {r : Except Failure Unit}
    (hx : h.watched.Receiving (h.watchedWaits w) stream position d xs r d') : Went [] d d' := by
  have hnext : ∀ {position d a d'}, (h.watchedWaits w).next stream position d = (a, d') →
      Went [] d d' := by
    intro position d a d' hn
    refine .of_core ?_ ((watched_apart hw).next_core hn) List.not_mem_nil
    cases hn
    exact milestones_append _ _
  induction hx with
  | unfinished position d => exact .of_core (List.append_nil _).symm rfl List.not_mem_nil
  | broken position d d' f hn => exact hnext hn
  | ended position d d' hn hc => exact hnext hn
  | closed position d d' hn hc => exact hnext hn
  | last position behind d x hn hc => exact (hnext hn).trans (.handled x)
  | delivered position behind d d' x xs r hn hc hrest ih =>
    exact ((hnext hn).trans (.handled x)).trans ih

theorem Listening.went {stream : Nat} {d d' : Daemon (σ × List Noted)}
    {xs : List (Delivery (σ × List Noted))} {r : Except Failure Unit}
    (hl : h.watched.Listening (h.watchedWaits w) stream d xs r d') :
    ∃ listened : Bool, Went (if listened then [.listening] else []) d d' := by
  have hreconcile : ∀ {a d'}, Act.run h.watched.reconcile (h.watched.entered .reconciling d) =
      (a, d') → Went [] d d' ∧ d'.core.phase = .reconciling := by
    intro a d' hr
    have hwent := Went.reconcile (h := h) (h.watched.entered .reconciling d)
    obtain ⟨hphase, -⟩ := h.reconcile_steady (h.watched.entered .reconciling d)
    rw [hr] at hwent hphase
    exact ⟨(Went.entered .reconciling nofun d).trans hwent,
      hphase.trans (entered_phase .reconciling d)⟩
  cases hl with
  | unreconciled f d' hr => exact ⟨false, (hreconcile hr).1⟩
  | overtaken report d' hr hc => exact ⟨false, (hreconcile hr).1⟩
  | listened report d₁ d' xs r hr hc hx =>
    obtain ⟨hwent, hphase⟩ := hreconcile hr
    have hattend : Went [.listening] d₁ (h.watched.attending d₁) :=
      .attending d₁ (by rw [hphase]; exact nofun)
    exact ⟨true, (hwent.trans hattend).trans (hx.went hw)⟩

theorem Connecting.went {d d' : Daemon (σ × List Noted)}
    {xs : List (Delivery (σ × List Noted))} {r : Except Failure Unit}
    (hn : h.watched.Connecting (h.watchedWaits w) d xs r d') :
    ∃ listened, Went (lap listened) d d' := by
  have henter : Went [] d (h.watched.entered .connecting d) := .entered .connecting nofun d
  cases hn with
  | unopened f v ho => exact ⟨false, henter.trans ho.went⟩
  | opened stream token v v' xs r d' ho ht hl =>
    obtain ⟨listened, hlisten⟩ := hl.went hw
    have hopen := (henter.trans ho.went).trans (onCancel_went ht)
    have hall := (hopen.trans hlisten).trans (hungUp_went (h := h) stream token d')
    rw [List.append_nil] at hall
    exact ⟨listened, hall⟩

end Connection

/-! ### Retries -/

/-- Between two daemons a connection was counted as lost, and just these milestones were passed. -/
structure Lost (ms : List Milestone) (d d' : Daemon (σ × List Noted)) : Prop where
  notes : milestones d'.outside.2 = milestones d.outside.2 ++ ms
  settings : d'.core.settings = d.core.settings
  reconnects : d'.core.reconnects = d.core.reconnects
  failures : d'.core.failures = d.core.failures + 1

theorem bereft_lost (d : Daemon (σ × List Noted)) : Lost [] d (h.watched.bereft d) := by
  have henter := Went.entered (h := h) .disconnected nofun
    ⟨{ d.core with failures := d.core.failures + 1 }, d.outside⟩
  exact ⟨henter.notes, henter.settings, henter.reconnects, henter.failures⟩

theorem Lost.log {d d' : Daemon (σ × List Noted)} (hd : Lost [] d d') (l : Line)
    (hl : l.level ≠ .debug) : Lost [] d ⟨d'.core, h.watched.log l d'.outside⟩ := by
  have hlog := (Went.log (h := h) l hl d').notes
  rw [List.append_nil] at hlog
  exact ⟨hlog.trans hd.notes, hd.settings, hd.reconnects, hd.failures⟩

theorem awaiting_slept (hw : w.Apart) {m : String} {d d' : Daemon (σ × List Noted)}
    {a : Except Failure Bool} (hg : Host.gaveUp (h.watched.bereft d).core = none)
    (hs : (h.watchedWaits w).sleep (h.watched.bereft d).core.settings.reconnectDelay
      (h.watched.awaiting m d) = (a, d')) :
    ¬Exceeds d.core.settings.maxReconnects (d.core.failures + 1) ∧
      Lost [.slept d.core.settings.reconnectDelay] d d' := by
  have hlost := bereft_lost (h := h) d
  have hwait : Lost [] d (h.watched.awaiting m d) := hlost.log _ nofun
  have hnot := gaveUp_none _ hg
  rw [hlost.settings, hlost.failures] at hnot
  have hcore : d'.core = (h.watched.awaiting m d).core := (watched_apart hw).sleep_core hs
  refine ⟨hnot, ?_, by rw [hcore, hwait.settings], by rw [hcore, hwait.reconnects],
    by rw [hcore, hwait.failures]⟩
  rw [(watched_sleep hs).2, milestones_append, hwait.notes, hlost.settings, List.append_nil]
  rfl

theorem Retrying.resumed (hw : w.Apart) {m : String} {d d' : Daemon (σ × List Noted)}
    (hr : h.watched.Retrying (h.watchedWaits w) m d (.ok true) d') :
    ¬Exceeds d.core.settings.maxReconnects (d.core.failures + 1) ∧
      ∃ d₁, Lost [.slept d.core.settings.reconnectDelay] d d₁ ∧
        d' = ⟨{ d₁.core with reconnects := d₁.core.reconnects + 1 }, d₁.outside⟩ := by
  generalize hres : (Except.ok true : Except Failure Bool) = r at hr
  cases hr with
  | slept d₁ hc hg hs =>
    obtain ⟨hnot, hlost⟩ := awaiting_slept hw hg hs
    exact ⟨hnot, d₁, hlost, rfl⟩
  | _ => cases hres

theorem Retrying.given_up (hw : w.Apart)
    (hclock : ∀ x d f d', w.sleep x d = (.error f, d') → f = .tooLongWait) {m : String}
    {f : Failure} {d d' : Daemon (σ × List Noted)}
    (hr : h.watched.Retrying (h.watchedWaits w) m d (.error f) d') :
    (f = .stream m ∧ Exceeds d.core.settings.maxReconnects (d.core.failures + 1) ∧ Lost [] d d') ∨
      (f = .tooLongWait ∧ ¬Exceeds d.core.settings.maxReconnects (d.core.failures + 1) ∧
        Lost [.slept d.core.settings.reconnectDelay] d d') := by
  have hlost := bereft_lost (h := h) d
  cases hr with
  | gaveUp n hc hg =>
    have hover := gaveUp_some _ n hg
    rw [hlost.settings, hlost.failures] at hover
    exact .inl ⟨rfl, hover, hlost.log _ nofun⟩
  | unslept f d' hc hg hs =>
    exact .inr ⟨hclock _ _ f _ (watched_sleep hs).1, awaiting_slept hw hg hs⟩

/-! ### Rounds -/

/-- How a course ends in which every connection but the last was made again, with `n` lost in a row
before the last: the daemon gave up, the clock failed, the connection failed otherwise, or there was
no last one. -/
inductive Ending (s : Settings) (n : Nat) :
    List (Link σ) → List Milestone → Except Failure Unit → Prop
  | gaveUp (listened : Bool) (m : String) (xs : List (Delivery σ))
    (hcap : Exceeds s.maxReconnects (inARow n [listened])) :
    Ending s n [⟨xs, .error (.stream m)⟩] (lap listened) (.error (.stream m))
  | unslept (listened : Bool) (m : String) (xs : List (Delivery σ))
    (hcap : ¬Exceeds s.maxReconnects (inARow n [listened])) :
    Ending s n [⟨xs, .error (.stream m)⟩] (round s.reconnectDelay listened) (.error .tooLongWait)
  | failed (listened : Bool) (f : Failure) (xs : List (Delivery σ)) (hf : ∀ m, f ≠ .stream m) :
    Ending s n [⟨xs, .error f⟩] (lap listened) (.error f)
  | unfinished : Ending s n [] [] (.error .unfinished)

/-- A course goes in rounds, each of them a connection that was lost and a sleep. Of the lost
connections `ks` tells whether they came to listening. -/
structure Rounds (d d' : Daemon (σ × List Noted)) (ks : List Bool)
    (lost final : List (Link (σ × List Noted))) (r : Except Failure Unit) : Prop where
  length : lost.length = ks.length
  lost : ∀ l ∈ lost, ∃ m, l.result = .error (.stream m)
  within : Within d.core.settings.maxReconnects d.core.failures ks
  reconnects : d'.core.reconnects = d.core.reconnects + ks.length
  ending : ∃ rest, milestones d'.outside.2 = milestones d.outside.2 ++
      (ks.flatMap (round d.core.settings.reconnectDelay) ++ rest) ∧
    Ending d.core.settings (inARow d.core.failures ks) final rest r

namespace Rounds

variable {d d₁ d₂ d' : Daemon (σ × List Noted)} {ks : List Bool}
  {lost final : List (Link (σ × List Noted))} {r : Except Failure Unit}

theorem last {rest : List Milestone}
    (hnotes : milestones d'.outside.2 = milestones d.outside.2 ++ rest)
    (hreconnects : d'.core.reconnects = d.core.reconnects)
    (hend : Ending d.core.settings d.core.failures final rest r) : Rounds d d' [] [] final r :=
  ⟨rfl, fun _ hm => absurd hm List.not_mem_nil, .nil _ _, hreconnects, rest, hnotes, hend⟩

theorem row {listened : Bool} (hwent : Went (lap listened) d d₁) :
    d₁.core.failures + 1 = inARow d.core.failures [listened] := by
  rw [hwent.failures]
  cases listened with
  | true => rfl
  | false => rfl

theorem gave_up {m : String} (hr : Rounds d d' ks lost final (.error (.stream m))) :
    ∃ listened l, final = [l] ∧ l.result = .error (.stream m) ∧
      Exceeds d.core.settings.maxReconnects (inARow d.core.failures (ks ++ [listened])) ∧
      milestones d'.outside.2 = milestones d.outside.2 ++
        (ks.flatMap (round d.core.settings.reconnectDelay) ++ lap listened) := by
  obtain ⟨rest, hnotes, hend⟩ := hr.ending
  cases hend with
  | gaveUp listened m xs hcap =>
    rw [← inARow_append] at hcap
    exact ⟨listened, _, rfl, rfl, hcap, hnotes⟩
  | failed listened f xs hf => exact absurd rfl (hf m)

/-- A connection that was lost and not made again was given up, unless the clock failed. -/
theorem settled {l : Link (σ × List Noted)} (hr : Rounds d d' ks lost [l] r) (m : String)
    (hl : l.result = .error (.stream m)) :
    r = .error (.stream m) ∨ r = .error .tooLongWait := by
  obtain ⟨rest, -, hend⟩ := hr.ending
  cases hend with
  | gaveUp listened m' xs hcap => exact .inl hl
  | unslept listened m' xs hcap => exact .inr rfl
  | failed listened f xs hf =>
    cases hl
    exact absurd rfl (hf m)

/-- Where connections end in no other way than lost, a run fails by giving up, by the clock, or for
want of rounds. -/
theorem failed (hr : Rounds d d' ks lost final r)
    (hfinal : ∀ l ∈ final, ∀ f, l.result = .error f → f = .unfinished ∨ ∃ m, f = .stream m) :
    (∃ m, r = .error (.stream m)) ∨ r = .error .tooLongWait ∨ r = .error .unfinished := by
  obtain ⟨rest, -, hend⟩ := hr.ending
  cases hend with
  | gaveUp listened m xs hcap => exact .inl ⟨m, rfl⟩
  | unslept listened m xs hcap => exact .inr (.inl rfl)
  | failed listened f xs hf =>
    obtain rfl | ⟨m, rfl⟩ := hfinal _ (List.mem_singleton.mpr rfl) f rfl
    · exact .inr (.inr rfl)
    · exact absurd rfl (hf m)
  | unfinished => exact .inr (.inr rfl)

theorem unfinished (hr : Rounds d d' ks lost [] r) : r = .error .unfinished := by
  obtain ⟨rest, hnotes, hend⟩ := hr.ending
  cases hend with
  | unfinished => rfl

theorem cons {listened : Bool} {m : String} {xs : List (Delivery (σ × List Noted))}
    (hlap : Went (lap listened) d d₁)
    (hnot : ¬Exceeds d₁.core.settings.maxReconnects (d₁.core.failures + 1))
    (hlost : Lost [.slept d₁.core.settings.reconnectDelay] d₁ d₂)
    (hrest : Rounds ⟨{ d₂.core with reconnects := d₂.core.reconnects + 1 }, d₂.outside⟩ d' ks lost
      final r) :
    Rounds d d' (listened :: ks) (⟨xs, .error (.stream m)⟩ :: lost) final r := by
  have hsettings : d₂.core.settings = d.core.settings := hlost.settings.trans hlap.settings
  have hfailures : d₂.core.failures = inARow d.core.failures [listened] :=
    hlost.failures.trans (row hlap)
  have hreconnects : d₂.core.reconnects = d.core.reconnects :=
    hlost.reconnects.trans hlap.reconnects
  obtain ⟨hlength, hall, hwithin, hcount, rest, hnotes, hend⟩ := hrest
  simp only [hsettings, hfailures, hreconnects] at hwithin hcount hnotes hend
  rw [hlap.settings, row hlap] at hnot
  refine ⟨congrArg (· + 1) hlength, List.forall_mem_cons.mpr ⟨⟨m, rfl⟩, hall⟩, hwithin.cons hnot,
    ?_, rest, ?_, hend⟩
  · rw [hcount, List.length_cons]
    omega
  · rw [hnotes, hlost.notes, hlap.notes, hlap.settings, List.flatMap_cons, round]
    simp only [List.append_assoc]

end Rounds

theorem Course.of_cancelled {d d' : Daemon σ} {ls : List (Link σ)} {r : Except Failure Unit}
    (hc : h.Course w d ls r d') (hlate : h.cancelled d.outside = true) : d' = d := by
  have hopen : h.cancelled d.outside ≠ false := by
    rw [hlate]
    exact nofun
  cases hc with
  | unfinished => rfl
  | overtaken => rfl
  | again _ _ _ _ _ _ hno => exact absurd hno hopen
  | retried _ _ _ _ _ _ _ _ hno => exact absurd hno hopen
  | left _ _ _ _ _ hno => exact absurd hno hopen
  | gaveUp _ _ _ _ _ _ hno => exact absurd hno hopen
  | failed _ _ _ _ hno => exact absurd hno hopen

section Clock

variable (hs : h.Lasting) (hw : w.Apart)
  (hsleep : ∀ x d d', w.sleep x d = (.ok false, d') → h.cancelled d'.outside = true)
  (hclock : ∀ x d f d', w.sleep x d = (.error f, d') → f = .tooLongWait)

include hs hw hsleep hclock

theorem Course.rounds {d d' : Daemon (σ × List Noted)} {ls : List (Link (σ × List Noted))}
    {r : Except Failure Unit} (hc : h.watched.Course (h.watchedWaits w) d ls r d')
    (hno : h.watched.cancelled d'.outside = false) :
    ∃ ks lost final, ls = lost ++ final ∧ Rounds d d' ks lost final r := by
  have hend : ∀ {d ls}, h.watched.Course (h.watchedWaits w) d ls (.ok ()) d' → False := fun hc =>
    absurd (hno.symm.trans (hc.cancelled (fun x _ _ hsl => hsleep x _ _ (watched_sleep hsl).1) rfl))
      nofun
  -- the row of lost connections so far is that of the daemon at the loop's head
  induction hc with
  | unfinished d => exact ⟨[], [], [], rfl, .last (List.append_nil _).symm rfl .unfinished⟩
  | overtaken d hc => exact (hend (.overtaken d hc)).elim
  | again d d₁ d' xs ls r hc hn hrest ih =>
    -- a connection that comes to a good end leaves a scope that is cancelled
    have hlate := hn.cancelled (watched_lasting hs)
    rw [hrest.of_cancelled hlate, hlate] at hno
    cases hno
  | retried d d₁ d₂ d' m xs ls r hc hn hret hrest ih =>
    obtain ⟨listened, hlap⟩ := hn.went hw
    obtain ⟨hnot, d₃, hlost, rfl⟩ := hret.resumed hw
    obtain ⟨ks, lost, final, rfl, hrounds⟩ := ih hno hend
    exact ⟨listened :: ks, _ :: lost, final, rfl, .cons hlap hnot hlost hrounds⟩
  | left d d₁ d' m xs hc hn hret => exact (hend (.left d d₁ d' m xs hc hn hret)).elim
  | gaveUp d d₁ d' m f xs hc hn hret =>
    obtain ⟨listened, hlap⟩ := hn.went hw
    refine ⟨[], [], _, rfl, ?_⟩
    rcases hret.given_up hw hclock with ⟨rfl, hover, hgone⟩ | ⟨rfl, hnot, hgone⟩
    · rw [hlap.settings, Rounds.row hlap] at hover
      have hnotes := hgone.notes
      rw [hlap.notes, List.append_nil] at hnotes
      exact .last hnotes (hgone.reconnects.trans hlap.reconnects) (.gaveUp listened m xs hover)
    · rw [hlap.settings, Rounds.row hlap] at hnot
      have hnotes := hgone.notes
      rw [hlap.notes, hlap.settings, List.append_assoc] at hnotes
      exact .last hnotes (hgone.reconnects.trans hlap.reconnects) (.unslept listened m xs hnot)
  | failed d d' f xs hc hn hf =>
    obtain ⟨listened, hlap⟩ := hn.went hw
    exact ⟨[], [], _, rfl, .last hlap.notes hlap.reconnects (.failed listened f xs hf)⟩

end Clock

/-! ### Runs -/

theorem Went.concluded (d : Daemon (σ × List Noted)) : Went [] d (h.watched.concluded d) := by
  have hclose : Went [] d ⟨d.core, h.watched.disconnect d.outside⟩ :=
    .of_core (milestones_append _ _) rfl List.not_mem_nil
  have hstop := hclose.trans (.entered (h := h) .stopped nofun _)
  exact hstop.trans (.log ⟨.info, "Quota handler stopped"⟩ nofun _)

theorem Rounds.concluded {d d' : Daemon (σ × List Noted)} {ks : List Bool}
    {lost final : List (Link (σ × List Noted))} {r : Except Failure Unit}
    (hr : Rounds d d' ks lost final r) : Rounds d (h.watched.concluded d') ks lost final r := by
  have hend := Went.concluded (h := h) d'
  have hnotes := hend.notes
  rw [List.append_nil] at hnotes
  exact ⟨hr.length, hr.lost, hr.within, hend.reconnects.trans hr.reconnects, hnotes ▸ hr.ending⟩

/-- A run after which the scope is not cancelled goes in rounds. Where it fails with the runtime,
that is for the first connection with which the connections lost in a row exceed the bound: it
connected once more than it slept, and made as many connections again as it slept. Where connections
end in no other way than lost, it comes to that, until its rounds are used up. -/
theorem run_gives_up (h : Host σ) (w : Waits σ) (hs : h.Lasting) (hw : w.Apart)
    (hsleep : ∀ x d d', w.sleep x d = (.ok false, d') → h.cancelled d'.outside = true)
    (hclock : ∀ x d f d', w.sleep x d = (.error f, d') → f = .tooLongWait) (core : Core) (v : σ)
    (fuel : Nat) (r : Except Failure Unit) (last : Daemon (σ × List Noted))
    (hrun : Act.run (h.watched.run (h.watchedWaits w) fuel) ⟨core, v, []⟩ = (r, last))
    (hno : h.cancelled last.outside.1 = false) :
    let cap := core.settings.maxReconnects
    let delay := core.settings.reconnectDelay
    let path := milestones last.outside.2
    let start : Daemon (σ × List Noted) := ⟨{ core with failures := 0 }, v, []⟩
    ∃ ks lost final d', h.watched.Course (h.watchedWaits w) start (lost ++ final) r d' ∧
      last = h.watched.concluded d' ∧ Rounds start last ks lost final r ∧
      (final = [] → ks.length = fuel) ∧
      (cap = none → ∀ m, r ≠ .error (.stream m)) ∧
      (∀ m, r = .error (.stream m) →
        ∃ listened l, final = [l] ∧ l.result = .error (.stream m) ∧
          Exceeds cap (inARow 0 (ks ++ [listened])) ∧ Within cap 0 ks ∧
          path = ks.flatMap (round delay) ++ lap listened ∧
          path.count .connecting = ks.length + 1 ∧ path.count (.slept delay) = ks.length ∧
          last.core.reconnects = core.reconnects + ks.length) ∧
      (∀ l m, final = [l] → l.result = .error (.stream m) →
        r = .error (.stream m) ∨ r = .error .tooLongWait) ∧
      (Conclusive h w → r ≠ .error .tooLongWait →
        (∀ l ∈ final, ∀ f, l.result = .error f → f = .unfinished ∨ ∃ m, f = .stream m) →
        (∃ m, r = .error (.stream m)) ∨
          r = .error .unfinished ∧ UsedUp fuel fuel (lost ++ final)) := by
  intro cap delay path start
  obtain ⟨ls, hc, hbroken⟩ := h.watched.connections_outcome (h.watchedWaits w) fuel fuel start
  rw [h.watched.run_run (h.watchedWaits w) fuel ⟨core, v, []⟩] at hrun
  generalize Act.run (h.watched.connections (h.watchedWaits w) fuel fuel) start = a
    at hc hbroken hrun
  obtain ⟨r, d'⟩ := a
  cases hrun
  simp only at hc hbroken hno
  have hbefore : h.watched.cancelled d'.outside = false := by
    cases hlate : h.watched.cancelled d'.outside with
    | true => exact absurd (hno.symm.trans ((watched_lasting hs).concluded d' hlate)) nofun
    | false => rfl
  obtain ⟨ks, lost, final, rfl, hrounds⟩ := hc.rounds hs hw hsleep hclock hbefore
  have hlast : Rounds start (h.watched.concluded d') ks lost final r := hrounds.concluded
  refine ⟨ks, lost, final, d', hc, rfl, hlast, fun hnone => ?_, fun hnone m hr => ?_,
    fun m hr => ?_, fun l m hfinal hl => ?_, fun hf hclocked hlosses => ?_⟩
  · subst hnone
    rw [List.append_nil] at hbroken
    -- it was not broken off in a connection, since all of them were lost, nor in a sleep
    rcases hbroken hrounds.unfinished with hfull | ⟨l, hl, hres, -⟩ | ⟨x, d, d', hsl⟩
    · exact hrounds.length.symm.trans hfull
    · obtain ⟨m, hm⟩ := hrounds.lost l (List.mem_of_getLast? hl)
      cases hm.symm.trans hres
    · cases hclock x _ _ _ (watched_sleep hsl).1
  · subst hr
    obtain ⟨listened, l, -, -, ⟨most, hmost, -⟩, -⟩ := hlast.gave_up
    cases hnone.symm.trans hmost
  · subst hr
    obtain ⟨listened, l, hfinal, hl, hover, hnotes⟩ := hlast.gave_up
    have hpath : path = ks.flatMap (round delay) ++ lap listened := hnotes.trans (List.nil_append _)
    refine ⟨listened, l, hfinal, hl, hover, hlast.within, hpath, ?_, ?_, hlast.reconnects⟩
    · rw [hpath, List.count_append, count_connecting_rounds, count_connecting_lap]
    · rw [hpath, List.count_append, count_slept_rounds, count_slept_lap]
      rfl
  · subst hfinal
    exact hlast.settled m hl
  · rcases hlast.failed hlosses with hm | hslow | hr
    · exact .inl hm
    · exact absurd hslow hclocked
    · rcases (hbroken hr).usedUp (watched_conclusive hf) with hused | ⟨x, d₁, d₂, hsl⟩
      · exact .inr ⟨hr, hused⟩
      · cases hclock x _ _ _ (watched_sleep hsl).1

/-- The loss that a run failed for. -/
def lossOf : Except Failure Unit → Option String
  | .error (.stream m) => some m
  | _ => none

theorem eq_of_lossOf {r : Except Failure Unit} {m : String} (hr : lossOf r = some m) :
    r = .error (.stream m) := by
  unfold lossOf at hr
  split at hr
  · cases hr
    rfl
  · cases hr

/-- A host that reaches its runtime in the second attempt only. -/
def reachedOnce : Host Nat :=
  { smooth with
    connect := fun n => (if n = 1 then .ok () else .error (.stream "connection refused"), n + 1) }

theorem reachedOnce_conclusive : Conclusive reachedOnce (feed []) where
  connect n hc := by
    simp only [reachedOnce] at hc
    split at hc
    · cases hc
    · cases hc
  subscribe _ hs := by cases hs
  list _ hl := by cases hl
  resolve _ _ hres := by cases hres
  isPresent _ _ _ _ _ hp := by cases hp
  tag _ _ _ _ _ _ ht := by cases ht
  setLimit _ _ _ _ hl := by cases hl
  next _ _ _ hn := by cases hn

/-- With a bound of 2 the connection that came to listening makes for one more attempt. -/
theorem reachedOnce_run_gives_up :
    let core := Core.opening ⟨"10g", "12g", .ofInt 2, some 2⟩ ⟨1, 2, []⟩ ⟨"", []⟩
    let w : Waits Nat := feed []
    let a := Act.run (reachedOnce.watched.run (reachedOnce.watchedWaits w) 5) ⟨core, 0, []⟩
    let cap := core.settings.maxReconnects
    let delay := core.settings.reconnectDelay
    let path := milestones a.2.outside.2
    (reachedOnce.Lasting ∧ w.Apart ∧ Conclusive reachedOnce w ∧
        reachedOnce.cancelled a.2.outside.1 = false) ∧
      (a.1 = .error (.stream "connection refused") ∧
        path = [false, true, false].flatMap (round delay) ++ lap false) ∧
      let start : Daemon (Nat × List Noted) := ⟨{ core with failures := 0 }, 0, []⟩
      ∃ ks lost final d', reachedOnce.watched.Course (reachedOnce.watchedWaits w) start
          (lost ++ final) a.1 d' ∧
        a.2 = reachedOnce.watched.concluded d' ∧ Rounds start a.2 ks lost final a.1 ∧
        (final = [] → ks.length = 5) ∧
        (cap = none → ∀ m, a.1 ≠ .error (.stream m)) ∧
        (∀ m, a.1 = .error (.stream m) →
          ∃ listened l, final = [l] ∧ l.result = .error (.stream m) ∧
            Exceeds cap (inARow 0 (ks ++ [listened])) ∧ Within cap 0 ks ∧
            path = ks.flatMap (round delay) ++ lap listened ∧
            path.count .connecting = ks.length + 1 ∧ path.count (.slept delay) = ks.length ∧
            a.2.core.reconnects = core.reconnects + ks.length) ∧
        (∀ l m, final = [l] → l.result = .error (.stream m) →
          a.1 = .error (.stream m) ∨ a.1 = .error .tooLongWait) ∧
        (Conclusive reachedOnce w → a.1 ≠ .error .tooLongWait →
          (∀ l ∈ final, ∀ f, l.result = .error f → f = .unfinished ∨ ∃ m, f = .stream m) →
          (∃ m, a.1 = .error (.stream m)) ∨
            a.1 = .error .unfinished ∧ UsedUp 5 5 (lost ++ final)) := by
  intro core w a cap delay path
  have hlasting : reachedOnce.Lasting :=
    ⟨fun _ _ hv => hv, fun _ _ hv => hv, fun _ hv => hv, fun _ _ hv => hv, fun _ _ hv => hv⟩
  have hno : ∀ v, reachedOnce.cancelled v = false := fun _ => rfl
  refine ⟨⟨hlasting, feed_apart [], reachedOnce_conclusive, hno _⟩, ⟨eq_of_lossOf ?_, ?_⟩, ?_⟩
  · decide +kernel
  · decide +kernel
  · exact run_gives_up reachedOnce w hlasting (feed_apart []) (fun _ _ _ hs => by cases hs)
      (fun _ _ _ _ hs => by cases hs) core 0 5 a.1 a.2 (Prod.eta a).symm (hno _)

end Host

end LayerQuota
