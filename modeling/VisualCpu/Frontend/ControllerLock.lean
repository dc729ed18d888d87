import Mathlib.Data.List.Induction
import Mathlib.Data.List.Nodup
import VisualCpu.Frontend.SecurityCalls

/-!
# The controller lock

The lock is a session id beside the session store. Over every run a granted request is of a
live session that holds the lock afterwards, the lock passes on only after a release, a logout
or an expiry, and a session that left is never served again. One call may read the clock
several times; it must not run over the life time of a session meanwhile.
-/

namespace VisualCpu

open List SecurityState ManagerCall Nat

variable (c : SecurityConfig)

def stateAt (calls : List ManagerCall) : SecurityState := after c calls .init

/-- A stored session that had not expired at the last reading of the clock. -/
def LiveSession (s : SecurityState) (id : SessionId) : Prop :=
  ∃ session ∈ s.sessionStore, session.id = id ∧
    ¬ session.lastSeenAt < c.now (s.ticks - 1) - c.sessionTtlMs

/-- A stored session that was not seen for longer than its life time. -/
def Expired (s : SecurityState) (id : SessionId) : Prop :=
  ∃ session ∈ s.sessionStore, session.id = id ∧
    session.lastSeenAt < c.now s.ticks - c.sessionTtlMs

/-- `requireController` succeeds for a session. -/
def Granted (s : SecurityState) (call : ManagerCall) (id : SessionId) : Prop :=
  ∃ request routeKey session, call = .requireController request routeKey ∧
    (requireController c request routeKey s).1 = .ok session ∧ session.id = id

/-- A call in which a session releases the lock, logs out, or goes unseen for too long. -/
inductive Lost (s : SecurityState) (call : ManagerCall) (id : SessionId) : Prop
  | released (request : HttpRequest) (hcall : call = .releaseController request)
      (hcookie : cookieSessionId request = .ok (some id))
  | loggedOut (request : HttpRequest) (hcall : call = .logout request)
      (hcookie : cookieSessionId request = .ok (some id))
  | unseen (reading : ℕ) (hfrom : s.ticks ≤ reading) (hto : reading < (serve c call s).2.ticks)
      (session : Session) (hsession : session ∈ s.sessionStore) (hid : session.id = id)
      (hunseen : session.lastSeenAt < c.now reading - c.sessionTtlMs)

/-- A session that was stored logs out with the last call, or has expired after it. -/
def Gone (calls : List ManagerCall) (id : SessionId) : Prop :=
  (∃ earlier request, calls = earlier ++ [.logout request] ∧
    cookieSessionId request = .ok (some id) ∧
    ∃ session ∈ (stateAt c earlier).sessionStore, session.id = id) ∨
  Expired c (stateAt c calls) id

def Authenticates (s : SecurityState) (call : ManagerCall) (id : SessionId) : Prop :=
  ∃ session, (requestSession c call.request s).1 = .ok (some session) ∧ session.id = id

def ReportsController (s : SecurityState) (call : ManagerCall) (id : SessionId) : Prop :=
  ∃ answer auth controller, (serve c call s).1 = .ok answer ∧ answer.auth = some auth ∧
    (serve c call s).2.controllerSessionId.bind (serve c call s).2.get = some controller ∧
    auth.controllerUsername = some controller.username ∧ controller.id = id

/-- Within one call the clock does not run over the life time of a session. -/
def PromptRun : List ManagerCall → SecurityState → Prop
  | [], _ => True
  | call :: rest, s =>
    c.now ((serve c call s).2.ticks - 1) ≤ c.now s.ticks + c.sessionTtlMs ∧
      PromptRun rest (serve c call s).2

instance PromptRun.decide : ∀ calls s, Decidable (PromptRun c calls s)
  | [], _ => isTrue trivial
  | call :: rest, s =>
    haveI := PromptRun.decide rest (serve c call s).2
    inferInstanceAs (Decidable (_ ∧ _))

/-- No id is drawn twice. -/
def FreshIds (calls : List ManagerCall) : Prop := (calls.filterMap newId).Nodup

/-- `canControl` says whether a request of the session for the lock in the same instant would
be refused for another holder, unless it is refused for its number. -/
def CanControlExact (s : SecurityState) : Prop :=
  ∀ request session routeKey, session ∈ s.sessionStore →
    cookieSessionId request = .ok (some session.id) →
    ¬ session.lastSeenAt < c.now s.ticks - c.sessionTtlMs →
    (∀ reading, s.ticks ≤ reading → reading ≤ s.ticks + 5 → c.now reading = c.now s.ticks) →
    let auth := (authStateFor c (some session) s).1
    let granted := (requireController c request routeKey (authStateFor c (some session) s).2).1
    granted ≠ .error .rateLimitExceeded →
      (auth.canControl ↔ ∀ username, granted ≠ .error (.controllerLocked username))

/-- What the lock guarantees in a run. -/
structure LockExclusive (calls : List ManagerCall) : Prop where
  limited : ∀ front rest, calls = front ++ rest →
    (stateAt c front).sessionStore.length ≤ c.maxActiveSessions
  granted : ∀ front call rest id, calls = front ++ call :: rest →
    Granted c (stateAt c front) call id →
      LiveSession c (stateAt c (front ++ [call])) id ∧
        (stateAt c (front ++ [call])).controllerSessionId = some id
  exclusive : ∀ front call between other rest id otherId,
    calls = front ++ call :: between ++ other :: rest → Granted c (stateAt c front) call id →
    Granted c (stateAt c (front ++ call :: between)) other otherId → otherId ≠ id →
      ∃ pre lost post, between ++ [other] = pre ++ lost :: post ∧
        Lost c (stateAt c (front ++ call :: pre)) lost id
  gone : ∀ front between call rest id, calls = front ++ between ++ call :: rest →
    Gone c front id → ¬ Authenticates c (stateAt c (front ++ between)) call id ∧
      ¬ ReportsController c (stateAt c (front ++ between)) call id
  canControl : ∀ front rest, calls = front ++ rest → CanControlExact c (stateAt c front)

theorem stateAt_append (front rest : List ManagerCall) :
    stateAt c (front ++ rest) = after c rest (stateAt c front) := after_append c front rest _

theorem stateAt_snoc (front : List ManagerCall) (call : ManagerCall) :
    stateAt c (front ++ [call]) = (serve c call (stateAt c front)).2 := stateAt_append c front _

theorem stateAt_keeps {P : SecurityState → Prop} (hinit : P .init)
    (hmove : ∀ call s t, P s → Move c call s t → P t) (calls : List ManagerCall) :
    P (stateAt c calls) := by
  induction calls using reverseRecOn with
  | nil => exact hinit
  | append_singleton front call ih =>
    rw [stateAt_snoc]
    exact serve_keeps c call (hmove call) ih

section Sessions

variable {c} {call : ManagerCall} {s t : SecurityState} {id : SessionId}

variable {session : Session}

theorem mem_cleanup :
    session ∈ (cleanupExpiredSessions c s).sessionStore ↔ session ∈ s.sessionStore ∧
      ¬ session.lastSeenAt < c.now s.ticks - c.sessionTtlMs := by
  simp [cleanupExpiredSessions]

theorem mem_touch {time : ℤ} :
    session ∈ (s.touch id time).sessionStore ↔ ∃ old ∈ s.sessionStore,
      session = if old.id = id then { old with lastSeenAt := time } else old := by
  simp only [SecurityState.touch, mem_map]
  exact exists_congr fun old => and_congr_right fun _ => eq_comm

theorem touch_ids (s : SecurityState) (id : SessionId) (time : ℤ) :
    (s.touch id time).sessionStore.map Session.id = s.sessionStore.map Session.id := by
  rw [SecurityState.touch, map_map]
  apply map_congr_left
  intro session _
  rw [Function.comp_apply]
  split <;> rfl

theorem mem_delete :
    session ∈ (s.delete id).sessionStore ↔ session ∈ s.sessionStore ∧ session.id ≠ id := by
  simp [delete]

theorem mem_set {session other : Session} (h : other ∈ (s.set session).sessionStore) :
    other = session ∨ other ∈ s.sessionStore ∧ other.id ≠ session.id := by
  rw [SecurityState.set] at h
  split at h
  · obtain ⟨old, hold, rfl⟩ := mem_map.1 h
    split
    · exact .inl rfl
    rename_i hne
    exact .inr ⟨hold, hne⟩
  · rename_i hnew
    rcases mem_append.1 h with hold | hlast
    · exact .inr ⟨hold, fun hid => hnew (hid ▸ mem_map_of_mem hold)⟩
    · exact .inl (mem_singleton.1 hlast)

theorem set_ids (s : SecurityState) (session : Session) :
    (s.set session).sessionStore.map Session.id =
    if session.id ∈ s.sessionStore.map Session.id then s.sessionStore.map Session.id
    else s.sessionStore.map Session.id ++ [session.id] := by
  rw [SecurityState.set]
  split
  · rw [map_map]
    apply map_congr_left
    intro old _
    rw [Function.comp_apply]
    split
    · rename_i hid
      exact hid.symm
    · rfl
  · rw [map_append]
    rfl

theorem move_ticks (h : Move c call s t) : s.ticks < t.ticks := by
  cases h with
  | seen => exact lt_succ_of_lt (lt_succ_self _)
  | enter => exact lt_succ_of_lt (lt_succ_of_lt (lt_succ_self _))
  | _ => exact lt_succ_self _

theorem moves_ticks (h : Moves c call s t) : s.ticks ≤ t.ticks := by
  induction h with
  | refl => exact le_refl _
  | tail _ hlast ih => exact ih.trans (move_ticks hlast).le

theorem move_limited (hs : s.sessionStore.length ≤ c.maxActiveSessions)
    (h : Move c call s t) : t.sessionStore.length ≤ c.maxActiveSessions := by
  cases h with
  | wait => exact hs
  | purge => exact (length_filter_le _ _).trans hs
  | seen id session _ _ =>
    have htouch := congrArg List.length (touch_ids (cleanupExpiredSessions c s) id
      (c.now (s.ticks + 1)))
    rw [length_map, length_map] at htouch
    exact htouch.le.trans ((length_filter_le _ _).trans hs)
  | enter session hid hroom hseen =>
    have hset := congrArg List.length (set_ids s.tick.tick session)
    rw [length_map] at hset
    change ((s.tick.tick.set session).sessionStore).length ≤ _
    rw [hset]
    split
    · rw [length_map]
      exact hs
    rw [length_append, length_map]
    exact hroom
  | leave => exact (length_filter_le _ _).trans hs
  | claim => exact hs
  | release => exact hs

theorem move_nodup (hs : (s.sessionStore.map Session.id).Nodup) (h : Move c call s t) :
    (t.sessionStore.map Session.id).Nodup := by
  have hfilter : ∀ p : Session → Bool, ((s.sessionStore.filter p).map Session.id).Nodup :=
    fun p => hs.sublist (filter_sublist.map _)
  cases h with
  | wait => exact hs
  | purge => exact hfilter _
  | seen id session _ _ =>
    have htouch := touch_ids (cleanupExpiredSessions c s) id (c.now (s.ticks + 1))
    exact htouch ▸ hfilter _
  | enter session hid hroom hseen =>
    change ((s.tick.tick.set session).sessionStore.map Session.id).Nodup
    rw [set_ids]
    split
    · exact hs
    rename_i hnew
    apply nodup_append.2
    refine ⟨hs, nodup_singleton _, ?_⟩
    intro old hold new hlast
    rw [mem_singleton] at hlast
    exact fun heq => hnew (hlast ▸ heq ▸ hold)
  | leave => exact hfilter _
  | claim => exact hs
  | release => exact hs

theorem move_sessions (h : Move c call s t) (hnew : session ∈ t.sessionStore) :
    session ∈ s.sessionStore ∨ session.lastSeenAt = c.now (s.ticks + 1) ∧ s.ticks + 1 < t.ticks ∧
      (call.newId = some session.id ∨ ∃ old ∈ s.sessionStore, old.id = session.id ∧
        ¬ old.lastSeenAt < c.now s.ticks - c.sessionTtlMs) := by
  cases h with
  | wait => exact .inl hnew
  | purge => exact .inl (mem_cleanup.1 hnew).1
  | seen id stored hcookie hget =>
    obtain ⟨old, hold, rfl⟩ := mem_touch.1 hnew
    split
    · exact .inr ⟨rfl, lt_succ_self _, .inr ⟨old, mem_cleanup.1 hold |>.1, rfl,
        (mem_cleanup.1 hold).2⟩⟩
    · exact .inl (mem_cleanup.1 hold).1
  | enter entered hid hroom hseen =>
    rcases mem_set hnew with rfl | ⟨hold, -⟩
    · exact .inr ⟨hseen, lt_succ_of_lt (lt_succ_self _), .inl hid⟩
    · exact .inl hold
  | leave => exact .inl (mem_delete.1 hnew).1
  | claim => exact .inl hnew
  | release => exact .inl hnew

variable (c) in
/-- No session was seen in the future. -/
def Stamped (s : SecurityState) : Prop :=
  ∀ session ∈ s.sessionStore, session.lastSeenAt ≤ c.now s.ticks

theorem move_stamped (hs : Stamped c s) (h : Move c call s t) : Stamped c t := by
  intro session hsession
  rcases move_sessions h hsession with hold | ⟨hseen, hlater, -⟩
  · exact (hs session hold).trans (c.now_mono (move_ticks h).le)
  · exact hseen.le.trans (c.now_mono hlater.le)

variable (c) in
/-- No stored session of an id is still alive. -/
def Dead (id : SessionId) (s : SecurityState) : Prop :=
  ∀ session ∈ s.sessionStore, session.id = id →
    session.lastSeenAt < c.now s.ticks - c.sessionTtlMs

theorem move_dead (hfresh : call.newId ≠ some id) (hs : Dead c id s) (h : Move c call s t) :
    Dead c id t := by
  intro session hsession hid
  rcases move_sessions h hsession with hold | ⟨-, -, hnew | ⟨old, hold, holdId, hlive⟩⟩
  · have hdead := hs session hold hid
    have := c.now_mono (move_ticks h).le
    omega
  · exact absurd (hid ▸ hnew) hfresh
  · exact absurd (hs old hold (holdId.trans hid)) hlive

theorem Dead.cleanup (hs : Dead c id s) :
    ∀ session ∈ (cleanupExpiredSessions c s).sessionStore, session.id ≠ id := by
  intro session hsession hid
  obtain ⟨hold, hlive⟩ := mem_cleanup.1 hsession
  exact hlive (hs session hold hid)

theorem Dead.refused (hs : Dead c id s) : ¬ Authenticates c s call id := by
  rintro ⟨session, hresult, hid⟩
  rcases requestSession_cases c call.request s with ⟨-, hnone⟩ | ⟨id', old, -, hget, heq⟩
  · exact hnone session hresult
  rw [heq] at hresult
  have hsame : old.id = session.id := by
    injection hresult with hresult
    injection hresult with hresult
    rw [← hresult]
  exact hs.cleanup old (get_mem hget) (hsame.trans hid)

def HoldsLock (id : SessionId) (s : SecurityState) : Prop :=
  s.controllerSessionId = some id ∧ id ∈ s.sessionStore.map Session.id

theorem HoldsLock.cleanup (hs : HoldsLock id s) (hlive : ¬ Expired c s id) :
    HoldsLock id (cleanupExpiredSessions c s) := by
  have hkept : ∀ session ∈ s.sessionStore, session.id = id →
      ¬ session.lastSeenAt < c.now s.ticks - c.sessionTtlMs :=
    fun session hsession hid hold => hlive ⟨session, hsession, hid, hold⟩
  constructor
  · rw [cleanupExpiredSessions]
    refine (if_neg ?_).trans hs.1
    rw [Bool.not_eq_true, any_eq_false]
    intro session hsession
    rw [decide_eq_true_eq, hs.1]
    rintro ⟨hold, hid⟩
    exact hkept session hsession (Option.some.inj hid).symm hold
  · obtain ⟨session, hsession, hid⟩ := mem_map.1 hs.2
    exact mem_map.2 ⟨session, mem_cleanup.2 ⟨hsession, hkept session hsession hid⟩, hid⟩

theorem HoldsLock.not_free (hs : HoldsLock id s) : s.controllerSessionId.bind s.get ≠ none := by
  obtain ⟨session, hsession, hid⟩ := mem_map.1 hs.2
  rw [hs.1, Option.bind_some]
  exact fun hnone => get_none.1 hnone session hsession hid

theorem move_lock (hs : HoldsLock id s) (h : Move c call s t) :
    HoldsLock id t ∨ Expired c s id ∨ cookieSessionId call.request = .ok (some id) ∧
      (call = .releaseController call.request ∨ call = .logout call.request) := by
  by_cases hlive : Expired c s id
  · exact .inr (.inl hlive)
  cases h with
  | wait => exact .inl hs
  | purge => exact .inl (hs.cleanup hlive)
  | seen other session hcookie hget =>
    have hkept := hs.cleanup hlive
    refine .inl ⟨hkept.1, ?_⟩
    have hids := touch_ids (cleanupExpiredSessions c s) other (c.now (s.ticks + 1))
    exact hids ▸ hkept.2
  | enter session hid hroom hseen =>
    refine .inl ⟨hs.1, ?_⟩
    have hids := set_ids s.tick.tick session
    change id ∈ (s.tick.tick.set session).sessionStore.map Session.id
    rw [hids]
    split
    · exact hs.2
    · exact mem_append_left _ hs.2
  | leave other hcall hcookie =>
    by_cases hother : other = id
    · exact .inr (.inr ⟨hother ▸ hcookie, .inr hcall⟩)
    obtain ⟨session, hsession, hid⟩ := mem_map.1 hs.2
    refine .inl ⟨?_, mem_map.2 ⟨session, mem_delete.2 ⟨hsession, ?_⟩, hid⟩⟩
    · change (if s.controllerSessionId = some other then none else s.controllerSessionId) = _
      rw [hs.1, if_neg fun heq => hother (Option.some.inj heq).symm]
    · exact fun heq => hother (heq.symm.trans hid)
  | claim other hcall hcookie hfree => exact absurd hfree hs.not_free
  | release other hcall hcookie hheld =>
    have hother : other = id := Option.some.inj (hheld.symm.trans hs.1)
    exact .inr (.inr ⟨hother ▸ hcookie, .inl hcall⟩)

theorem moves_older (hs : Stamped c s) (hstored : ∃ old ∈ s.sessionStore, old.id = id)
    (h : Moves c call s t) :
    ∀ session ∈ t.sessionStore, session.id = id →
      ∃ old ∈ s.sessionStore, old.id = id ∧ old.lastSeenAt ≤ session.lastSeenAt := by
  induction h with
  | refl => exact fun session hsession hid => ⟨session, hsession, hid, Int.le_refl _⟩
  | tail hfront hlast ih =>
    intro session hsession hid
    rcases move_sessions hlast hsession with hold | ⟨hseen, -, -⟩
    · exact ih session hold hid
    obtain ⟨old, hold, holdId⟩ := hstored
    refine ⟨old, hold, holdId, (hs old hold).trans ?_⟩
    rw [hseen]
    exact c.now_mono ((moves_ticks hfront).trans (le_succ _))

theorem serve_lock (hs : HoldsLock id s) (hstamped : Stamped c s) (call : ManagerCall) :
    HoldsLock id (serve c call s).2 ∨ Lost c s call id := by
  have hmoves := serve_moves c call s
  have hstored : ∃ old ∈ s.sessionStore, old.id = id := by
    obtain ⟨session, hsession, hid⟩ := mem_map.1 hs.2
    exact ⟨session, hsession, hid⟩
  have hpath : ∀ t, Moves c call s t → t.ticks ≤ (serve c call s).2.ticks →
      HoldsLock id t ∨ Lost c s call id := by
    intro t hpath
    induction hpath with
    | refl => exact fun _ => .inl hs
    | @tail u t hfront hlast ih =>
      intro hticks
      rcases ih ((move_ticks hlast).le.trans hticks) with hheld | hlost
      · rcases move_lock hheld hlast with hkept | hexpired | ⟨hcookie, hcall⟩
        · exact .inl hkept
        · obtain ⟨session, hsession, hid, hunseen⟩ := hexpired
          obtain ⟨old, hold, holdId, hle⟩ :=
            moves_older hstamped hstored hfront session hsession hid
          exact .inr (.unseen u.ticks (moves_ticks hfront) ((move_ticks hlast).trans_le hticks)
            old hold holdId (hle.trans_lt hunseen))
        · rcases hcall with hrelease | hlogout
          · exact .inr (.released _ hrelease hcookie)
          · exact .inr (.loggedOut _ hlogout hcookie)
      · exact .inr hlost
  exact hpath _ hmoves (le_refl _)

end Sessions

variable (calls : List ManagerCall)

theorem stateAt_stamped : Stamped c (stateAt c calls) :=
  stateAt_keeps c (fun _ h => absurd h not_mem_nil) (fun _ _ _ => move_stamped) calls

theorem stateAt_nodup : ((stateAt c calls).sessionStore.map Session.id).Nodup :=
  stateAt_keeps c nodup_nil (fun _ _ _ => move_nodup) calls

theorem stateAt_limited : (stateAt c calls).sessionStore.length ≤ c.maxActiveSessions :=
  stateAt_keeps c (zero_le _) (fun _ _ _ => move_limited) calls

theorem run_lock (front rest : List ManagerCall) (id : SessionId)
    (hs : HoldsLock id (stateAt c front)) :
    HoldsLock id (stateAt c (front ++ rest)) ∨ ∃ pre lost post, rest = pre ++ lost :: post ∧
      Lost c (stateAt c (front ++ pre)) lost id := by
  induction rest generalizing front with
  | nil => exact .inl ((append_nil front).symm ▸ hs)
  | cons call rest ih =>
    rcases serve_lock hs (stateAt_stamped c front) call with hkept | hlost
    · rw [← stateAt_snoc] at hkept
      rcases ih (front ++ [call]) hkept with hheld | ⟨pre, lost, post, hrest, hlost⟩
      · rw [List.append_assoc] at hheld
        exact .inl hheld
      rw [List.append_assoc] at hlost
      exact .inr ⟨call :: pre, lost, post, congrArg (call :: ·) hrest, hlost⟩
    · exact .inr ⟨[], call, rest, rfl, (append_nil front).symm ▸ hlost⟩

theorem consume_state (key : JsString) (limit : ℕ) (windowMs : ℤ) (s : SecurityState) :
    ∃ windows, (consume c key limit windowMs s).2 = { s.tick with windows := windows } := by
  rw [consume]
  split <;> exact ⟨_, rfl⟩

section Grants

variable {c} {request : HttpRequest} {routeKey : JsString} {s s' : SecurityState}
  {session : Session}

theorem requestSession_stored (h : requestSession c request s = (.ok (some session), s')) :
    session ∈ s'.sessionStore := by
  rcases requestSession_cases c request s with ⟨-, hnone⟩ | ⟨id, old, hid, hget, hresult⟩
  · exact absurd (congrArg Prod.fst h) (hnone session)
  rw [hresult, Prod.mk.injEq] at h
  obtain ⟨hsession, hstate⟩ := h
  rw [← hstate]
  refine mem_touch.2 ⟨old, get_mem hget, ?_⟩
  rw [if_pos (get_id hget)]
  injection hsession with hsession
  injection hsession with hsession
  exact hsession.symm

theorem requireController_ok (h : requireController c request routeKey s = (.ok session, s')) :
    cookieSessionId request = .ok (some session.id) ∧ session.lastSeenAt = c.now (s.ticks + 1) ∧
      s'.controllerSessionId = some session.id ∧ s.ticks + 4 ≤ s'.ticks ∧
      (¬ session.lastSeenAt < c.now (s.ticks + 3) - c.sessionTtlMs →
        session ∈ s'.sessionStore) := by
  rw [requireController] at h
  rcases hsession : requireSession c request s with ⟨error | found, t⟩
  · rw [hsession] at h
    cases h
  rw [hsession] at h
  dsimp only at h
  have hrequest := requireSession_ok hsession
  have hstored := requestSession_stored hrequest
  obtain ⟨hcookie, hseen, -, hstate⟩ := requestSession_some hrequest
  have hticks : t.ticks = s.ticks + 2 := congrArg SecurityState.ticks hstate
  obtain ⟨windows, hconsumed⟩ := consume_state c (writeKey routeKey found)
    (writeLimit routeKey) 60000 t
  revert h hconsumed
  rcases consume c (writeKey routeKey found) (writeLimit routeKey) 60000 t with ⟨_ | _, u⟩ <;>
    intro h hconsumed
  · cases h
  obtain rfl : u = _ := hconsumed
  generalize hu : ({ t.tick with windows := windows } : SecurityState) = u at h
  have huticks : u.ticks = s.ticks + 3 := by rw [← hu]; exact congrArg (· + 1) hticks
  have hustored : found ∈ u.sessionStore := by rw [← hu]; exact hstored
  have hkept : ¬ found.lastSeenAt < c.now (s.ticks + 3) - c.sessionTtlMs →
      found ∈ (cleanupExpiredSessions c u).sessionStore :=
    fun hlive => mem_cleanup.2 ⟨hustored, by rw [huticks]; exact hlive⟩
  have hpticks : (cleanupExpiredSessions c u).ticks = s.ticks + 4 := congrArg (· + 1) huticks
  dsimp only at h
  rw [currentController_eq] at h
  cases hholder : (cleanupExpiredSessions c u).controllerSessionId.bind
      (cleanupExpiredSessions c u).get with
  | none =>
    rw [hholder] at h
    cases h
    exact ⟨hcookie, hseen, rfl, hpticks.ge.trans (le_succ _), hkept⟩
  | some controller =>
    rw [hholder] at h
    dsimp only at h
    split at h
    · cases h
    rename_i hown
    cases h
    have hheld := holder_id hholder
    rw [not_not.1 hown] at hheld
    exact ⟨hcookie, hseen, hheld, hpticks.ge, hkept⟩

end Grants

variable {s : SecurityState} {id : SessionId}

theorem granted_live {call : ManagerCall} (hgranted : Granted c s call id)
    (hprompt : c.now ((serve c call s).2.ticks - 1) ≤ c.now s.ticks + c.sessionTtlMs) :
    LiveSession c (serve c call s).2 id ∧ (serve c call s).2.controllerSessionId = some id := by
  obtain ⟨request, routeKey, session, rfl, hresult, rfl⟩ := hgranted
  obtain ⟨-, hseen, hlock, hticks, hstored⟩ := requireController_ok
    (Prod.ext_iff.2 ⟨hresult, rfl⟩ : requireController c request routeKey s = (.ok session, _))
  have hstate : (serve c (.requireController request routeKey) s).2 =
    (requireController c request routeKey s).2 := rfl
  rw [hstate] at hprompt ⊢
  have hlast : c.now (s.ticks + 3) ≤ c.now ((requireController c request routeKey s).2.ticks - 1) :=
    c.now_mono (le_sub_one_of_lt (lt_of_succ_le hticks))
  have hfirst : c.now s.ticks ≤ c.now (s.ticks + 1) := c.now_mono (le_succ s.ticks)
  refine ⟨⟨session, hstored ?_, rfl, ?_⟩, hlock⟩
  · rw [hseen]
    omega
  rw [hseen]
  omega

theorem LiveSession.stored (h : LiveSession c s id) : id ∈ s.sessionStore.map Session.id := by
  obtain ⟨session, hsession, hid, -⟩ := h
  exact mem_map.2 ⟨session, hsession, hid⟩

theorem PromptRun.call {front rest : List ManagerCall} {call : ManagerCall}
    (h : PromptRun c (front ++ call :: rest) s) :
    c.now ((serve c call (after c front s)).2.ticks - 1) ≤
      c.now (after c front s).ticks + c.sessionTtlMs := by
  induction front generalizing s with
  | nil => exact h.1
  | cons first front ih => exact ih h.2

theorem stateAt_known : ∀ session ∈ (stateAt c calls).sessionStore,
    session.id ∈ calls.filterMap newId := by
  induction calls using reverseRecOn with
  | nil => exact fun _ h => absurd h not_mem_nil
  | append_singleton front call ih =>
    rw [stateAt_snoc]
    refine @serve_keeps c call _ (fun s => ∀ session ∈ s.sessionStore,
      session.id ∈ (front ++ [call]).filterMap newId) ?_ fun session hsession => ?_
    rotate_left
    · rw [filterMap_append]
      exact mem_append_left _ (ih session hsession)
    intro s t hs hmove session hsession
    rcases move_sessions hmove hsession with hold | ⟨-, -, hnew | ⟨old, hold, hid, -⟩⟩
    · exact hs session hold
    · rw [filterMap_append]
      exact mem_append_right _ (mem_filterMap.2 ⟨call, mem_singleton_self _, hnew⟩)
    · exact hid ▸ hs old hold

theorem logout_absent {request : HttpRequest} (hcookie : cookieSessionId request = .ok (some id)) :
    ∀ session ∈ (logout c request s).2.sessionStore, session.id ≠ id := by
  have hpurge : ∀ t : SecurityState, (∀ session ∈ t.sessionStore, session.id ≠ id) →
      ∀ session ∈ (cleanupExpiredSessions c t).sessionStore, session.id ≠ id :=
    fun t ht session hsession => ht session (mem_cleanup.1 hsession).1
  rw [logout, requestSession, hcookie]
  dsimp only
  cases hget : (cleanupExpiredSessions c s).get id with
  | none => exact hpurge _ (get_none.1 hget)
  | some session =>
    apply hpurge
    intro other hother
    exact get_id hget ▸ (mem_delete.1 hother).2

variable {c}

theorem Gone.dead {calls : List ManagerCall} (h : Gone c calls id) :
    Dead c id (stateAt c calls) := by
  rcases h with ⟨earlier, request, rfl, hcookie, -⟩ | ⟨expired, hexpired, hid, hold⟩
  · intro session hsession hid
    rw [stateAt_snoc] at hsession
    exact absurd hid (logout_absent c hcookie session hsession)
  intro session hsession hsame
  have : session = expired := inj_on_of_nodup_map (stateAt_nodup c calls) hsession hexpired
    (hsame.trans hid.symm)
  exact this ▸ hold

theorem Gone.known {calls : List ManagerCall} (h : Gone c calls id) :
    id ∈ calls.filterMap newId := by
  rcases h with ⟨earlier, request, rfl, -, session, hsession, hid⟩ | ⟨session, hsession, hid, -⟩
  · rw [filterMap_append]
    exact mem_append_left _ (hid ▸ stateAt_known c earlier session hsession)
  · exact hid ▸ stateAt_known c calls session hsession

theorem after_dead
    (hfresh : id ∉ calls.filterMap newId) (hs : Dead c id s) :
    Dead c id (after c calls s) := by
  induction calls generalizing s with
  | nil => exact hs
  | cons call rest ih =>
    have hcall : call.newId ≠ some id := fun h =>
      hfresh (mem_filterMap.2 ⟨call, mem_cons_self, h⟩)
    refine ih (fun h => hfresh ?_) (serve_keeps c call (fun _ _ => move_dead hcall) hs)
    obtain ⟨other, hother, hid⟩ := mem_filterMap.1 h
    exact mem_filterMap.2 ⟨other, mem_cons_of_mem _ hother, hid⟩

theorem Dead.unreported {call : ManagerCall}
    (hfresh : call.newId ≠ some id) (hs : Dead c id s) : ¬ ReportsController c s call id := by
  rintro ⟨answer, auth, controller, hanswer, hauth, hholder, -, hid⟩
  obtain ⟨t, session, hmoves, hlast⟩ := serve_reported c hanswer hauth
  have hdead : Dead c id t := by
    clear hlast
    induction hmoves with
    | refl => exact hs
    | tail _ hmove ih => exact move_dead hfresh ih hmove
  have hstate : (serve c call s).2 = cleanupExpiredSessions c t := congrArg Prod.snd hlast
  obtain ⟨held, -, hget⟩ := Option.bind_eq_some_iff.1 hholder
  rw [hstate] at hget
  exact hdead.cleanup controller (get_mem hget) hid

section Instant

variable {s : SecurityState}

theorem consume_error {key : JsString} {limit : ℕ} {windowMs : ℤ} {error : SecurityError}
    (h : (consume c key limit windowMs s).1 = .error error) : error = .rateLimitExceeded := by
  rw [consume] at h
  split at h <;> cases h
  rfl

theorem cleanup_idle (hlive : ∀ session ∈ s.sessionStore,
    ¬ session.lastSeenAt < c.now s.ticks - c.sessionTtlMs) :
    cleanupExpiredSessions c s = s.tick := by
  have hstore : s.sessionStore.filter (fun session =>
      ¬ session.lastSeenAt < c.now s.ticks - c.sessionTtlMs) = s.sessionStore :=
    filter_eq_self.2 fun session hsession => decide_eq_true (hlive session hsession)
  have hnone : (s.sessionStore.any fun session =>
      session.lastSeenAt < c.now s.ticks - c.sessionTtlMs ∧
        s.controllerSessionId = some session.id) = false := by
    rw [any_eq_false]
    intro session hsession
    rw [decide_eq_true_eq]
    exact fun h => hlive session hsession h.1
  rw [cleanupExpiredSessions, hstore, hnone]
  rfl

theorem get_touch (id other : SessionId) (time : ℤ) : (s.touch id time).get other =
    (s.get other).map fun session =>
      if session.id = id then { session with lastSeenAt := time } else session := by
  rw [SecurityState.get, SecurityState.get, SecurityState.touch, List.find?_map]
  congr 2
  funext session
  rw [Function.comp_apply]
  split <;> rfl

theorem requireController_instant {request : HttpRequest} {routeKey : JsString}
    {session : Session} (hstored : session ∈ s.sessionStore)
    (hcookie : cookieSessionId request = .ok (some session.id))
    (hlive : ∀ session ∈ s.sessionStore, ¬ session.lastSeenAt < c.now s.ticks - c.sessionTtlMs)
    (hinstant : ∀ reading, s.ticks ≤ reading → reading ≤ s.ticks + 3 →
      c.now reading = c.now s.ticks)
    (hrate : (requireController c request routeKey s).1 ≠ .error .rateLimitExceeded) :
    (∀ username, (requireController c request routeKey s).1 ≠ .error (.controllerLocked username)) ↔
      ∀ controller, s.controllerSessionId.bind s.get = some controller →
        controller.id = session.id := by
  cases hget : s.tick.get session.id with
  | none => exact absurd rfl (get_none.1 hget session hstored)
  | some found =>
    let seen := { found with lastSeenAt := c.now (s.ticks + 1) }
    let t := (s.tick.touch session.id (c.now (s.ticks + 1))).tick
    have hfound := get_id hget
    have hsession : requireSession c request s = (.ok seen, t) := by
      rw [requireSession, requestSession, cleanup_idle hlive, hcookie]
      dsimp only
      rw [hget]
      rfl
    have htlive : ∀ other ∈ t.sessionStore,
        ¬ other.lastSeenAt < c.now (s.ticks + 3) - c.sessionTtlMs := by
      rw [hinstant (s.ticks + 3) (Nat.le_add_right _ _) (Nat.le_refl _)]
      intro other hother
      obtain ⟨old, hold, rfl⟩ := mem_touch.1 hother
      split
      · rw [hinstant (s.ticks + 1) (Nat.le_add_right _ _) (Nat.add_le_add_left (by decide) _)]
        dsimp only
        omega
      · exact hlive old hold
    obtain ⟨windows, hconsumed⟩ := consume_state c (writeKey routeKey seen)
      (writeLimit routeKey) 60000 t
    have herror : ∀ error, (consume c (writeKey routeKey seen) (writeLimit routeKey) 60000 t).1 =
        .error error → error = .rateLimitExceeded := fun _ => consume_error
    rw [requireController, hsession] at hrate ⊢
    dsimp only at hrate ⊢
    revert hrate hconsumed herror
    rcases consume c (writeKey routeKey seen) (writeLimit routeKey) 60000 t with ⟨error | _, u⟩ <;>
      intro hrate hconsumed herror
    · exact absurd (congrArg Except.error (herror error rfl)) hrate
    have hstate : u = { t.tick with windows := windows } := hconsumed
    have hticks : u.ticks = s.ticks + 3 := by
      rw [hstate]
      exact congrArg (· + 1) (congrArg (· + 1) rfl)
    have hpurged : cleanupExpiredSessions c u = u.tick := by
      apply cleanup_idle
      rw [hticks, hstate]
      exact htlive
    have hholder : u.tick.controllerSessionId.bind u.tick.get =
        (s.controllerSessionId.bind s.get).map fun old =>
          if old.id = session.id then { old with lastSeenAt := c.now (s.ticks + 1) }
          else old := by
      rw [hstate, Option.map_bind]
      exact congrArg _ (funext fun id => get_touch session.id id _)
    have hseen : seen.id = session.id := hfound
    dsimp only
    rw [currentController_eq, hpurged, hholder]
    cases s.controllerSessionId.bind s.get with
    | none => exact iff_of_true (fun _ h => (by cases h)) fun _ h => (by cases h)
    | some controller =>
      have hid : ∀ other : Session, (if other.id = session.id then
          { other with lastSeenAt := c.now (s.ticks + 1) } else other).id = other.id := by
        intro other
        split <;> rfl
      rw [Option.map_some]
      dsimp only
      rw [hid, hseen]
      by_cases hown : controller.id = session.id
      · rw [if_neg (not_not.2 hown)]
        exact iff_of_true (fun _ h => (by cases h)) fun _ h => Option.some.inj h ▸ hown
      rw [if_pos hown]
      exact iff_of_false (fun h => h _ rfl) fun h => hown (h controller rfl)

theorem canControl_exact (s : SecurityState) : CanControlExact c s := by
  intro request session routeKey hstored hcookie hlive hinstant
  have hstate : (authStateFor c (some session) s).2 = cleanupExpiredSessions c s := rfl
  have hfree : (authStateFor c (some session) s).1.canControl =
      ((cleanupExpiredSessions c s).controllerSessionId.bind (cleanupExpiredSessions c s).get).all
        fun controller => controller.id = session.id := rfl
  have hnext : c.now (cleanupExpiredSessions c s).ticks = c.now s.ticks :=
    hinstant (s.ticks + 1) (Nat.le_succ _) (Nat.add_le_add_left (by decide) _)
  intro auth granted hrate
  have hrequest := requireController_instant (mem_cleanup.2 ⟨hstored, hlive⟩) hcookie
    (fun other hother => by rw [hnext]; exact (mem_cleanup.1 hother).2)
    (fun reading hfrom hto => by
      have hticks : (cleanupExpiredSessions c s).ticks = s.ticks + 1 := rfl
      rw [hnext]
      exact hinstant reading (by omega) (by omega))
    hrate
  rw [show auth.canControl = _ from hfree, Option.all_eq_true]
  simp only [decide_eq_true_eq]
  exact hrequest.symm

end Instant

variable (c) in
/-- The controller lock is exclusive in every run whose calls are prompt. -/
theorem run_lockExclusive (hprompt : PromptRun c calls .init)
    (hfresh : FreshIds calls) : LockExclusive c calls where
  limited := fun front _ _ => stateAt_limited c front
  granted := by
    intro front call rest id hcalls hgranted
    rw [stateAt_snoc]
    rw [hcalls] at hprompt
    exact granted_live c hgranted (hprompt.call c)
  exclusive := by
    intro front call between other rest id otherId hcalls hgranted hother hne
    have hfirst : PromptRun c (front ++ call :: (between ++ other :: rest)) .init := by
      rw [hcalls, List.append_assoc] at hprompt
      exact hprompt
    have hlive := granted_live c hgranted (hfirst.call c)
    rw [← stateAt_snoc] at hlive
    rcases run_lock c (front ++ [call]) (between ++ [other]) id ⟨hlive.2, hlive.1.stored c⟩ with
      hheld | ⟨pre, lost, post, hsplit, hlost⟩
    · have hlast : (stateAt c (front ++ call :: between ++ [other])).controllerSessionId =
          some otherId := by
        rw [stateAt_snoc]
        rw [hcalls] at hprompt
        exact (granted_live c hother (hprompt.call c)).2
      have hsame : front ++ [call] ++ (between ++ [other]) =
        front ++ call :: between ++ [other] := by
        simp
      rw [hsame] at hheld
      exact absurd (Option.some.inj (hlast.symm.trans hheld.1)) hne
    · refine ⟨pre, lost, post, hsplit, ?_⟩
      rw [List.append_assoc] at hlost
      exact hlost
  gone := by
    intro front between call rest id hcalls hgone
    have hids : id ∉ (between ++ [call]).filterMap newId := by
      intro hagain
      rw [FreshIds, hcalls, show front ++ between ++ call :: rest =
        front ++ ((between ++ [call]) ++ rest) by simp, filterMap_append,
        filterMap_append] at hfresh
      exact (nodup_append.1 hfresh).2.2 id hgone.known id
        (mem_append_left _ hagain) rfl
    rw [filterMap_append] at hids
    have hdead : Dead c id (stateAt c (front ++ between)) := by
      rw [stateAt_append]
      exact after_dead between (fun h => hids (mem_append_left _ h)) hgone.dead
    have hcall : call.newId ≠ some id := fun h => hids (mem_append_right _
      (mem_filterMap.2 ⟨call, mem_singleton_self _, h⟩))
    exact ⟨hdead.refused, hdead.unreported hcall⟩
  canControl := fun front _ _ => canControl_exact _

section Runs

/-- One user whose password is taken, and a clock. -/
def lockConfig (sessionTtlMs : ℕ) (now : ℕ → ℤ) (now_mono : Monotone now) : SecurityConfig where
  users := [{ username := "admin".toList, passwordHash := "hash".toList }]
  maxActiveSessions := 3
  sessionTtlMs := sessionTtlMs
  verifyPassword := fun _ _ => some true
  now := now
  now_mono := now_mono

/-- A millisecond passes between two readings. -/
def steadyConfig : SecurityConfig :=
  lockConfig 1000 (fun reading => reading) fun _ _ h => Int.ofNat_le.2 h

def sessionA : SessionId := ⟨"a".toList, by decide⟩

def sessionB : SessionId := ⟨"b".toList, by decide⟩

def requestOf (id : SessionId) : HttpRequest :=
  ⟨some ("mycpu_session=".toList ++ id.val), none, some "127.0.0.1".toList⟩

def loginAs (id : SessionId) : ManagerCall :=
  .login (requestOf id) "admin".toList "guess".toList id

/-- Two sessions, the lock of the first, a refusal, a release, the lock of the second. -/
def lockRun : List ManagerCall :=
  [loginAs sessionA, loginAs sessionB,
    .requireController (requestOf sessionA) "run".toList,
    .requireController (requestOf sessionB) "run".toList,
    .releaseController (requestOf sessionA),
    .requireController (requestOf sessionB) "run".toList,
    .logout (requestOf sessionB), .authStateForRequest (requestOf sessionB)]

theorem lockRun_exclusive : LockExclusive steadyConfig lockRun :=
  run_lockExclusive steadyConfig lockRun (by decide) (by rw [FreshIds]; decide)

/-- The clock runs over the life time of one millisecond between two readings of one call. -/
def jumpConfig : SecurityConfig :=
  lockConfig 1 (fun reading => if reading < 10 then 0 else 2) fun a b h => by
    dsimp only
    split <;> split <;> omega

/-- The second session has used up its loads while the first holds the lock. -/
def exhaustedRun : List ManagerCall :=
  [loginAs sessionA, loginAs sessionB, .requireController (requestOf sessionA) "load".toList] ++
    List.replicate 20 (.requireController (requestOf sessionB) "load".toList)

theorem lock_jump_exhausted :
    ((∃ session, (requireController jumpConfig (requestOf sessionA) "run".toList
        (stateAt jumpConfig [loginAs sessionA])).1 = .ok session ∧ session.id = sessionA) ∧
      ¬ LiveSession jumpConfig (stateAt jumpConfig
        [loginAs sessionA, .requireController (requestOf sessionA) "run".toList]) sessionA) ∧
    (∃ auth, (authStateForRequest steadyConfig (requestOf sessionB)
        (stateAt steadyConfig exhaustedRun)).1 = .ok auth ∧ auth.canControl = false) ∧
      (requireController steadyConfig (requestOf sessionB) "load".toList
        (stateAt steadyConfig exhaustedRun)).1 = .error .rateLimitExceeded := by
  refine ⟨⟨⟨⟨sessionA, "admin".toList, "operator".toList, 0, 0⟩, by decide, rfl⟩, ?_⟩,
    ⟨⟨true, true, some "admin".toList, some "operator".toList, 2, 3, some "admin".toList, false,
      false⟩, by decide +kernel, rfl⟩, by decide +kernel⟩
  rintro ⟨session, hsession, -⟩
  revert hsession
  have hempty : (stateAt jumpConfig [loginAs sessionA,
      .requireController (requestOf sessionA) "run".toList]).sessionStore = [] := by
    decide
  rw [hempty]
  exact not_mem_nil

end Runs

end VisualCpu
