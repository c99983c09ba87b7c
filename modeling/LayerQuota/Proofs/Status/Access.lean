import LayerQuota.Proofs.Status.Credentials
import LayerQuota.Status.Service
/-!
# Who gets to see a page

With a key set, a page below the remote interface shows itself to the claim that names the user of
the key with the key as password, and to no other. A request without a claim is told so, and one with
another claim is refused. This goes for texts that can be compared: a claim for the user of the key is
held against it only where both key and password are ASCII, and fails otherwise, be it right or wrong.
-/

namespace LayerQuota

/-! ### Weighing a claim -/

namespace Claim

/-- A claim names the user of a key with the key as password. -/
def Holds (key : String) (claim : Claim) : Prop := claim = .named ⟨some keyUser, some key⟩

/-- A claim that is not even read, or that names the user of a key where no comparison of password and
key is possible. -/
def Incomparable (key : String) (claim : Claim) : Prop :=
  claim = .unreadable ∨ ∃ password, claim = .named ⟨some keyUser, password⟩ ∧
    (isAscii (password.getD "") = false ∨ isAscii key = false)

end Claim

/-- The four things that a claim can come to against a key, each with its ground. -/
inductive Weighed (key : String) : Claim → Admission → Prop
  | absent : Weighed key .absent .unidentified
  | unreadable : Weighed key .unreadable .failed
  | stranger (c : Credentials) (h : c.user ≠ some keyUser) : Weighed key (.named c) .refused
  | incomparable (password : Option String)
      (h : isAscii (password.getD "") = false ∨ isAscii key = false) :
    Weighed key (.named ⟨some keyUser, password⟩) .failed
  | wrong (password : Option String) (hp : isAscii (password.getD "") = true)
      (hk : isAscii key = true) (h : password ≠ some key) :
    Weighed key (.named ⟨some keyUser, password⟩) .refused
  | holder (hk : isAscii key = true) : Weighed key (.named ⟨some keyUser, some key⟩) .admitted

theorem admission_weighed (key : String) (hkey : key ≠ "") (claim : Claim) :
    Weighed key claim (admission (some key) claim) := by
  have hfilled : key.isEmpty = false := Bool.eq_false_iff.mpr fun h => hkey (String.isEmpty_iff.mp h)
  unfold admission
  simp only [hfilled, Bool.false_eq_true, if_false]
  cases claim with
  | absent => exact .absent
  | unreadable => exact .unreadable
  | named c =>
    obtain ⟨user, password⟩ := c
    by_cases hu : user = some keyUser
    · subst hu
      simp only [ne_eq, not_true_eq_false, if_false, Bool.or_eq_true, Bool.not_eq_true']
      split
      · rename_i hascii
        exact .incomparable password hascii
      · rename_i hascii
        obtain ⟨hp, hk⟩ := not_or.mp hascii
        rw [Bool.not_eq_false] at hp hk
        split
        · rename_i heq
          -- no password counts as an empty one, which is no key
          cases password with
          | none => exact absurd heq.symm hkey
          | some t =>
            obtain rfl : t = key := heq
            exact .holder hk
        · rename_i hne
          refine .wrong password hp hk ?_
          rintro rfl
          exact hne rfl
    · simp only [ne_eq, hu, not_false_eq_true, if_true]
      exact .stranger _ hu

section Weighed

variable {key : String} {claim : Claim} {a : Admission}

theorem Weighed.admitted_iff (h : Weighed key claim a) :
    a = .admitted ↔ claim.Holds key ∧ isAscii key = true := by
  unfold Claim.Holds
  cases h with
  | absent => exact iff_of_false nofun nofun
  | unreadable => exact iff_of_false nofun nofun
  | stranger c h =>
    refine iff_of_false nofun ?_
    rintro ⟨heq, -⟩
    exact h (congrArg Credentials.user (Claim.named.inj heq))
  | incomparable password h =>
    refine iff_of_false nofun ?_
    rintro ⟨heq, hk⟩
    cases heq
    rcases h with h | h
    · exact Bool.noConfusion (h.symm.trans hk)
    · exact Bool.noConfusion (h.symm.trans hk)
  | wrong password hp hk h =>
    refine iff_of_false nofun ?_
    rintro ⟨heq, -⟩
    exact h (congrArg Credentials.password (Claim.named.inj heq))
  | holder hk => exact iff_of_true rfl ⟨rfl, hk⟩

theorem Weighed.unidentified_iff (h : Weighed key claim a) :
    a = .unidentified ↔ claim = .absent := by
  cases h with
  | absent => exact iff_of_true rfl rfl
  | _ => exact iff_of_false nofun nofun

theorem Weighed.failed_iff (h : Weighed key claim a) :
    a = .failed ↔ claim.Incomparable key := by
  unfold Claim.Incomparable
  cases h with
  | absent => exact iff_of_false nofun fun h => h.elim nofun fun ⟨_, h, _⟩ => nomatch h
  | unreadable => exact iff_of_true rfl (.inl rfl)
  | stranger c h =>
    refine iff_of_false nofun ?_
    rintro (heq | ⟨password, heq, -⟩)
    · cases heq
    · exact h (congrArg Credentials.user (Claim.named.inj heq))
  | incomparable password h => exact iff_of_true rfl (.inr ⟨password, rfl, h⟩)
  | wrong password hp hk h =>
    refine iff_of_false nofun ?_
    rintro (heq | ⟨password', heq, hascii⟩)
    · cases heq
    · cases heq
      rw [hp, hk] at hascii
      exact hascii.elim nofun nofun
  | holder hk =>
    refine iff_of_false nofun ?_
    rintro (heq | ⟨password, heq, hascii⟩)
    · cases heq
    · cases heq
      have hp : isAscii key = false := hascii.elim id id
      exact Bool.noConfusion (hp.symm.trans hk)

/-- What is neither of the three is refused. -/
theorem Weighed.refused_iff (h : Weighed key claim a) :
    a = .refused ↔ claim ≠ .absent ∧ ¬claim.Incomparable key ∧ ¬claim.Holds key := by
  rw [ne_eq, ← h.unidentified_iff, ← h.failed_iff]
  have hadmitted := h.admitted_iff
  constructor
  · rintro rfl
    refine ⟨nofun, nofun, fun hholds => ?_⟩
    -- a key that is held but cannot be compared would have failed
    cases hk : isAscii key with
    | true => exact nomatch hadmitted.mpr ⟨hholds, hk⟩
    | false => exact nomatch h.failed_iff.mpr (.inr ⟨some key, hholds, .inr hk⟩)
  · rintro ⟨hunidentified, hfailed, hholds⟩
    cases a with
    | refused => rfl
    | admitted => exact absurd (hadmitted.mp rfl).1 hholds
    | unidentified => exact absurd rfl hunidentified
    | failed => exact absurd rfl hfailed

end Weighed

namespace Status

/-! ### Requests for a page -/

/-- The method of a request, in upper case. -/
def Request.verb (r : Request) : String := String.ofList (r.method.toList.map Char.toUpper)

/-- A response as a method shows it: HEAD leaves the body out. -/
def shown (method : String) (r : Response) : Response := if method = "HEAD" then headOf r else r

/-- What each admission to a page is answered. -/
def verdict (c : Core) (p : Page) : Admission → Response
  | .admitted => view c p
  | .unidentified => message 401 "api key required"
  | .refused => message 403 "invalid api key"
  | .failed => page 500

theorem shown_code (method : String) (r : Response) : (shown method r).code = r.code := by
  unfold shown
  split <;> rfl

theorem view_code (c : Core) (p : Page) : (view c p).code = 200 ∨ (view c p).code = 404 := by
  cases p with
  | quota container =>
    simp only [view]
    split
    · exact .inl rfl
    · exact .inr rfl
  | asset => exact .inr rfl
  | _ => exact .inl rfl

/-- No two admissions are answered alike. -/
theorem shown_verdict_inj (method : String) (c : Core) (p : Page) (a b : Admission) :
    shown method (verdict c p a) = shown method (verdict c p b) ↔ a = b := by
  refine ⟨fun h => ?_, fun h => h ▸ rfl⟩
  have hcode : (verdict c p a).code = (verdict c p b).code := by
    rw [← shown_code method, h, shown_code]
  have hview := view_code c p
  cases a <;> cases b <;> first
    | rfl
    | (simp only [verdict, message, json, page] at hcode
       omega)

theorem answer_keyed (c : Core) (key : String) (claim : Claim) (p : Page)
    (h : needsKey p = true) :
    answer c (some key) claim p = verdict c p (admission (some key) claim) := by
  unfold answer
  rw [if_pos h]
  cases admission (some key) claim with
  | _ => rfl

/-- What is below the remote interface asks for the key. -/
theorem needsKey_of_remote (cs : List Char) (p : Page) (hp : page? cs = some p)
    (hremote : "/remote-api/".toList <+: cs) : needsKey p = true := by
  obtain ⟨rest, rfl⟩ := hremote
  unfold page? at hp
  simp only at hp
  split at hp
  · rename_i heq
    have hlist := congrArg String.toList (beq_iff_eq.mp heq)
    rw [String.toList_ofList] at hlist
    cases hlist
  · split at hp
    · cases hp
      rfl
    · split at hp
      · cases hp
        rfl
      · split at hp
        · cases hp
          rfl
        · split at hp
          · cases hp
          · split at hp
            · cases hp
            · cases hp
              rfl
          · rename_i hstatic
            cases hstatic
          · cases hp

theorem respond_page (c : Core) (key : Option String) (r : Request) (p : Page)
    (hp : page? (decodedPath r.path) = some p) :
    respond c key r = respondAt c key r r.verb p := by
  have hpath : (decodedPath r.path).isEmpty = false := by
    refine Bool.eq_false_iff.mpr fun hempty => ?_
    rw [List.isEmpty_iff.mp hempty] at hp
    cases hp
  unfold respond
  simp only [hpath, Bool.false_eq_true, if_false, hp]
  rfl

theorem respondAt_asked (c : Core) (key : Option String) (r : Request) (method : String) (p : Page)
    (h : method = "GET" ∨ method = "HEAD") :
    respondAt c key r method p =
      shown method (answer c key (Credentials.ofHeader r.authorization) p) := by
  rcases h with rfl | rfl
  · rfl
  · rfl

/-- A method that asks for no page is answered alike whatever is claimed. -/
theorem respondAt_other (c : Core) (key : Option String) (r : Request) (method : String) (p : Page)
    (hget : method ≠ "GET") (hhead : method ≠ "HEAD") :
    respondAt c key r method p = allowing (if method = "OPTIONS" then 200 else 405) := by
  unfold respondAt
  simp only [beq_iff_eq, hget, hhead, if_false]
  split <;> rfl

/-- With a key set, whatever is claimed for a page below the remote interface: the page is shown just
where the claim holds the key, which is ASCII; a claim that is absent is answered with 401, one that
cannot be compared with 500, and any other with 403. A method that asks for no page is not shown any.
What a client sends as Basic is claimed as it was sent. -/
theorem respond_keyed (c : Core) (key : String) (hkey : key ≠ "") (r : Request) (p : Page)
    (hp : page? (decodedPath r.path) = some p)
    (hremote : "/remote-api/".toList <+: decodedPath r.path) :
    let claim := Credentials.ofHeader r.authorization
    let reply := respond c (some key) r
    (r.verb = "GET" ∨ r.verb = "HEAD" →
        (reply = shown r.verb (view c p) ↔ claim.Holds key ∧ isAscii key = true) ∧
        (reply = shown r.verb (message 401 "api key required") ↔ claim = .absent) ∧
        (reply = shown r.verb (message 403 "invalid api key") ↔
          claim ≠ .absent ∧ ¬claim.Incomparable key ∧ ¬claim.Holds key) ∧
        (reply = shown r.verb (page 500) ↔ claim.Incomparable key)) ∧
      (r.verb ≠ "GET" → r.verb ≠ "HEAD" →
        reply = allowing (if r.verb = "OPTIONS" then 200 else 405)) ∧
      ∀ user password : String, ':' ∉ user.toList →
        r.authorization = some (Credentials.basic user password) →
        claim = .named ⟨some user, some password⟩ := by
  intro claim reply
  have hreply : reply = respondAt c (some key) r r.verb p := respond_page c (some key) r p hp
  have hneeds := needsKey_of_remote _ p hp hremote
  have hweighed := admission_weighed key hkey claim
  refine ⟨fun hverb => ?_, fun hget hhead => ?_, fun user password huser hheader => ?_⟩
  · rw [hreply, respondAt_asked c (some key) r r.verb p hverb, answer_keyed c key _ p hneeds]
    have hverdict := fun a => shown_verdict_inj r.verb c p (admission (some key) claim) a
    exact ⟨(hverdict .admitted).trans hweighed.admitted_iff,
      (hverdict .unidentified).trans hweighed.unidentified_iff,
      (hverdict .refused).trans hweighed.refused_iff, (hverdict .failed).trans hweighed.failed_iff⟩
  · rw [hreply, respondAt_other c (some key) r r.verb p hget hhead]
  · have hread := Credentials.ofHeader_basic user password huser
    rw [← hheader] at hread
    exact hread

/-! ### A key and a password beyond ASCII -/

/-- A daemon that has done nothing yet. -/
def idle : Core := Core.opening ⟨"1g", "2g", .ofInt 5, none⟩ ⟨1, 2, []⟩ (Store.atPath "state.json")

/-- A request for a sign of life from the user of the key. -/
def pingWith (password : String) : Request :=
  ⟨"get", "/remote-api/ping", some (Credentials.basic keyUser password)⟩

theorem pingWith_claim (password : String) :
    Credentials.ofHeader (pingWith password).authorization =
      .named ⟨some keyUser, some password⟩ :=
  Credentials.ofHeader_basic keyUser password (by decide)

theorem pingWith_verb (password : String) : (pingWith password).verb = "GET" := by
  show String.ofList ("get".toList.map Char.toUpper) = "GET"
  decide

theorem ping_page : page? (decodedPath "/remote-api/ping") = some .ping := by decide +kernel

theorem respond_keyed_ping :
    "secret" ≠ "" ∧ page? (decodedPath "/remote-api/ping") = some .ping ∧
      "/remote-api/".toList <+: decodedPath "/remote-api/ping" ∧
      respond idle (some "secret") (pingWith "secret") = message 200 "pong" ∧
      respond idle (some "secret") (pingWith "guess") = message 403 "invalid api key" := by
  have hremote : "/remote-api/".toList <+: decodedPath "/remote-api/ping" := by decide +kernel
  have hkey : "secret" ≠ "" := by decide
  obtain ⟨hright, -⟩ := respond_keyed idle "secret" hkey (pingWith "secret") .ping ping_page hremote
  obtain ⟨hwrong, -⟩ := respond_keyed idle "secret" hkey (pingWith "guess") .ping ping_page hremote
  rw [pingWith_verb, pingWith_claim] at hright hwrong
  obtain ⟨hview, -⟩ := hright (.inl rfl)
  obtain ⟨-, -, hrefused, -⟩ := hwrong (.inl rfl)
  refine ⟨hkey, ping_page, hremote, hview.mpr ⟨rfl, by decide⟩, hrefused.mpr ⟨nofun, ?_, ?_⟩⟩
  · rintro (h | ⟨password, h, hascii⟩)
    · cases h
    · cases h
      revert hascii
      decide
  · intro h
    exact absurd (Option.some.inj (congrArg Credentials.password (Claim.named.inj h))) (by decide)

/-- For the user of the key and a text beyond ASCII on either side, every answer is an error of the
service. -/
theorem pingWith_fails (key password : String) (hkey : key ≠ "")
    (hascii : isAscii password = false ∨ isAscii key = false) :
    respond idle (some key) (pingWith password) = page 500 := by
  have hadmission := (admission_weighed key hkey _).failed_iff.mpr
    (.inr ⟨some password, pingWith_claim password, hascii⟩)
  rw [respond_page idle (some key) (pingWith password) .ping ping_page, pingWith_verb,
    respondAt_asked _ _ _ _ _ (.inl rfl), answer_keyed _ _ _ _ rfl, hadmission]
  rfl

/-- A wrong password beyond ASCII is not refused, and a key beyond ASCII does not admit its holder. -/
theorem respond_beyond_ascii :
    (respond idle (some "secret") (pingWith "\u00E9") = page 500 ∧
        respond idle (some "secret") (pingWith "\u00E9") ≠ message 403 "invalid api key") ∧
      respond idle (some "\u00E9") (pingWith "\u00E9") = page 500 ∧
        respond idle (some "\u00E9") (pingWith "\u00E9") ≠ message 200 "pong" := by
  have hwrong := pingWith_fails "secret" "\u00E9" (by decide) (.inl (by decide))
  have hright := pingWith_fails "\u00E9" "\u00E9" (by decide) (.inl (by decide))
  refine ⟨⟨hwrong, ?_⟩, hright, ?_⟩
  · rw [hwrong]
    exact fun h => absurd (congrArg Response.code h) (by decide)
  · rw [hright]
    exact fun h => absurd (congrArg Response.code h) (by decide)

end Status

end LayerQuota
