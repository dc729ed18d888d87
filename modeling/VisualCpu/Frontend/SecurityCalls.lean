import VisualCpu.Frontend.SecurityManager

/-!
# The calls of the security manager

A call changes the sessions and the lock in a few moves. Every invariant of a run is derived
from what one move can do.
-/

namespace VisualCpu

inductive ManagerCall
  | login (request : HttpRequest) (username password : JsString) (sessionId : SessionId)
  | logout (request : HttpRequest)
  | requireController (request : HttpRequest) (routeKey : JsString)
  | releaseController (request : HttpRequest)
  | requireAuthentication (request : HttpRequest) (routeKey : JsString)
  | authStateForRequest (request : HttpRequest)

def ManagerCall.request : ManagerCall → HttpRequest
  | login request _ _ _ => request
  | logout request => request
  | requireController request _ => request
  | releaseController request => request
  | requireAuthentication request _ => request
  | authStateForRequest request => request

/-- The id that a login would hand out. -/
def ManagerCall.newId : ManagerCall → Option SessionId
  | login _ _ _ sessionId => some sessionId
  | _ => none

/-- What a call returns: a session, an auth state, a cookie. -/
structure Answer where
  session : Option Session := none
  auth : Option AuthState := none
  setCookie : Option SessionCookie := none
deriving DecidableEq

variable (c : SecurityConfig)

variable (call : ManagerCall) {s : SecurityState}

def serve (s : SecurityState) : SecurityOutcome Answer :=
  match call with
  | .login request username password sessionId =>
    ((login c request username password sessionId s).1.map fun result =>
      { auth := some result.2, setCookie := some result.1 },
      (login c request username password sessionId s).2)
  | .logout request =>
    ((logout c request s).1.map fun result =>
      { auth := some result.2, setCookie := some result.1 }, (logout c request s).2)
  | .requireController request routeKey =>
    ((requireController c request routeKey s).1.map fun session => { session := some session },
      (requireController c request routeKey s).2)
  | .releaseController request =>
    ((releaseController c request s).1.map fun auth => { auth := some auth },
      (releaseController c request s).2)
  | .requireAuthentication request routeKey =>
    ((requireAuthentication c request routeKey s).1.map fun session =>
      { session := some session }, (requireAuthentication c request routeKey s).2)
  | .authStateForRequest request =>
    ((authStateForRequest c request s).1.map fun auth => { auth := some auth },
      (authStateForRequest c request s).2)

def after (calls : List ManagerCall) (s : SecurityState) : SecurityState :=
  calls.foldl (fun s call => (serve c call s).2) s

theorem after_append (front rest : List ManagerCall) (s : SecurityState) :
    after c (front ++ rest) s = after c rest (after c front s) := List.foldl_append

/-- One change of the sessions and the lock that a call makes. -/
inductive Move (call : ManagerCall) : SecurityState → SecurityState → Prop
  | wait (s : SecurityState) (windows : JsString → List ℤ) :
      Move call s { s.tick with windows := windows }
  | purge (s : SecurityState) : Move call s (cleanupExpiredSessions c s)
  | seen (s : SecurityState) (id : SessionId) (session : Session)
      (hcookie : cookieSessionId call.request = .ok (some id))
      (hget : (cleanupExpiredSessions c s).get id = some session) :
      Move call s ((cleanupExpiredSessions c s).touch id (c.now (s.ticks + 1))).tick
  | enter (s : SecurityState) (session : Session) (hid : call.newId = some session.id)
      (hroom : s.sessionStore.length < c.maxActiveSessions)
      (hseen : session.lastSeenAt = c.now (s.ticks + 1)) :
      Move call s (s.tick.tick.set session).tick
  | leave (s : SecurityState) (id : SessionId) (hcall : call = .logout call.request)
      (hcookie : cookieSessionId call.request = .ok (some id)) :
      Move call s ((s.delete id).unlock id).tick
  | claim (s : SecurityState) (id : SessionId)
      (hcall : ∃ routeKey, call = .requireController call.request routeKey)
      (hcookie : cookieSessionId call.request = .ok (some id))
      (hfree : s.controllerSessionId.bind s.get = none) :
      Move call s (s.lock (some id)).tick
  | release (s : SecurityState) (id : SessionId)
      (hcall : call = .releaseController call.request)
      (hcookie : cookieSessionId call.request = .ok (some id))
      (hheld : s.controllerSessionId = some id) :
      Move call s (s.lock none).tick

abbrev Moves : SecurityState → SecurityState → Prop :=
  Relation.ReflTransGen (Move c call)

namespace SecurityState

section

variable {s : SecurityState} {id : SessionId} {session : Session} (h : s.get id = some session)

include h

theorem get_id : session.id = id := by
  simpa using List.find?_some h

theorem get_mem : session ∈ s.sessionStore := List.mem_of_find?_eq_some h

end

theorem get_none {s : SecurityState} {id : SessionId} :
    s.get id = none ↔ ∀ session ∈ s.sessionStore, session.id ≠ id := by
  simp [get]

theorem holder_id {s : SecurityState} {controller : Session}
    (h : s.controllerSessionId.bind s.get = some controller) :
    s.controllerSessionId = some controller.id := by
  obtain ⟨id, hid, hget⟩ := Option.bind_eq_some_iff.1 h
  rw [hid, get_id hget]

end SecurityState

theorem requestSession_cases (request : HttpRequest) (s : SecurityState) :
    ((requestSession c request s).2 = cleanupExpiredSessions c s ∧
      ∀ session, (requestSession c request s).1 ≠ .ok (some session)) ∨
    ∃ id session, cookieSessionId request = .ok (some id) ∧
      (cleanupExpiredSessions c s).get id = some session ∧
      requestSession c request s = (.ok (some { session with lastSeenAt := c.now (s.ticks + 1) }),
        ((cleanupExpiredSessions c s).touch id (c.now (s.ticks + 1))).tick) := by
  rw [requestSession]
  rcases hcookie : cookieSessionId request with error | _ | id
  · exact .inl ⟨rfl, fun session h => by cases h⟩
  · exact .inl ⟨rfl, fun session h => by cases h⟩
  dsimp only
  cases hget : (cleanupExpiredSessions c s).get id with
  | none => exact .inl ⟨rfl, fun session h => by cases h⟩
  | some session => exact .inr ⟨id, session, rfl, hget, rfl⟩

section Requests

variable {c} {request : HttpRequest} {s s' : SecurityState} {session : Session}

theorem requestSession_some
    (h : requestSession c request s = (.ok (some session), s')) :
    cookieSessionId request = .ok (some session.id) ∧
      session.lastSeenAt = c.now (s.ticks + 1) ∧ (∃ old, (cleanupExpiredSessions c s).get
        session.id = some old) ∧ s' = ((cleanupExpiredSessions c s).touch session.id
          (c.now (s.ticks + 1))).tick := by
  rcases requestSession_cases c request s with ⟨-, hnone⟩ | ⟨id, old, hid, hget, hresult⟩
  · exact absurd (congrArg Prod.fst h) (hnone session)
  rw [hresult, Prod.mk.injEq] at h
  obtain ⟨hsession, hstate⟩ := h
  have hsession : { old with lastSeenAt := c.now (s.ticks + 1) } = session := by
    injection hsession with hsession
    injection hsession
  subst hsession
  have hold := SecurityState.get_id hget
  subst hold
  exact ⟨hid, rfl, ⟨old, hget⟩, hstate.symm⟩

theorem requireSession_ok
    (h : requireSession c request s = (.ok session, s')) :
    requestSession c request s = (.ok (some session), s') := by
  rw [requireSession] at h
  revert h
  rcases requestSession c request s with ⟨_ | _ | _, t⟩ <;> intro h
  · cases h
  · cases h
  cases h
  rfl

end Requests

section Moves

variable (call : ManagerCall)

variable (s : SecurityState)

theorem requestSession_moves : Moves c call s (requestSession c call.request s).2 := by
  rcases requestSession_cases c call.request s with ⟨hstate, -⟩ | ⟨id, session, hid, hget, hresult⟩
  · rw [hstate]
    exact .single (.purge s)
  rw [hresult]
  exact .single (.seen s id session hid hget)

theorem consume_moves (key : JsString) (limit : ℕ) (windowMs : ℤ) (s : SecurityState) :
    Moves c call s (consume c key limit windowMs s).2 := by
  rw [consume]
  split <;> exact .single (.wait s _)

theorem authStateFor_moves (session : Option Session) (s : SecurityState) :
    Moves c call s (authStateFor c session s).2 := .single (.purge s)

/-- A call moves to its end, and an auth state in its answer is taken last. -/
structure Traced (s : SecurityState) (auth : Except SecurityError AuthState)
    (s' : SecurityState) : Prop where
  moves : Moves c call s s'
  reported : ∀ a, auth = .ok a → ∃ t session, Moves c call s t ∧ (a, s') = authStateFor c session t

theorem Traced.refused {s s' : SecurityState} {error : SecurityError} (h : Moves c call s s') :
    Traced c call s (.error error) s' := ⟨h, fun _ hok => nomatch hok⟩

theorem Traced.answered {s t : SecurityState} {session : Option Session} (h : Moves c call s t) :
    Traced c call s (.ok (authStateFor c session t).1) (authStateFor c session t).2 := by
  refine ⟨h.trans (authStateFor_moves c call session t), fun a hok => ⟨t, session, h, ?_⟩⟩
  cases hok
  rfl

theorem requireSession_moves : Moves c call s (requireSession c call.request s).2 := by
  have hmoves := requestSession_moves c call s
  rw [requireSession]
  revert hmoves
  rcases requestSession c call.request s with ⟨_ | _ | _, s'⟩ <;> exact id

theorem requireAuthentication_moves (routeKey : JsString) (s : SecurityState) :
    Moves c call s (requireAuthentication c call.request routeKey s).2 := by
  have hmoves := requireSession_moves c call s
  rw [requireAuthentication]
  revert hmoves
  rcases requireSession c call.request s with ⟨error | session, s'⟩ <;> intro hmoves
  · exact hmoves
  have hconsume := consume_moves c call (readKey routeKey session) 240 60000 s'
  dsimp only
  revert hconsume
  rcases consume c (readKey routeKey session) 240 60000 s' with ⟨_ | _, t⟩ <;>
    exact fun hconsume => hmoves.trans hconsume

theorem currentController_eq : currentController c s =
    ((cleanupExpiredSessions c s).controllerSessionId.bind (cleanupExpiredSessions c s).get,
      cleanupExpiredSessions c s) := rfl

theorem requireController_moves (routeKey : JsString) (s : SecurityState)
    (hcall : call = .requireController call.request routeKey) :
    Moves c call s (requireController c call.request routeKey s).2 := by
  have hmoves := requireSession_moves c call s
  rw [requireController]
  rcases hsession : requireSession c call.request s with ⟨error | session, s'⟩
  · rw [hsession] at hmoves
    exact hmoves
  rw [hsession] at hmoves
  have hconsume := consume_moves c call (writeKey routeKey session)
    (writeLimit routeKey) 60000 s'
  dsimp only
  revert hconsume
  rcases consume c (writeKey routeKey session) (writeLimit routeKey) 60000 s' with ⟨_ | _, t⟩
  · exact hmoves.trans
  intro hconsume
  have hpurged := (hmoves.trans hconsume).tail (.purge t)
  dsimp only
  rw [currentController_eq]
  cases hholder : (cleanupExpiredSessions c t).controllerSessionId.bind
      (cleanupExpiredSessions c t).get with
  | none =>
    have hcookie := (requestSession_some (requireSession_ok hsession)).1
    exact hpurged.tail (.claim _ session.id ⟨routeKey, hcall⟩ hcookie hholder)
  | some controller =>
    dsimp only
    split <;> exact hpurged

theorem authStateForRequest_traced : Traced c call s
    (authStateForRequest c call.request s).1 (authStateForRequest c call.request s).2 := by
  have hmoves := requestSession_moves c call s
  rw [authStateForRequest]
  revert hmoves
  rcases requestSession c call.request s with ⟨_ | session, s'⟩
  · exact .refused c call
  · exact .answered c call

theorem login_traced (username password : JsString) (sessionId : SessionId) (s : SecurityState)
    (hcall : call = .login call.request username password sessionId) :
    Traced c call s ((login c call.request username password sessionId s).1.map Prod.snd)
      (login c call.request username password sessionId s).2 := by
  have hconsume := consume_moves c call (loginKey (clientIpForRequest call.request)) 8
    (10 * 60000) s
  rw [login]
  revert hconsume
  rcases consume c (loginKey (clientIpForRequest call.request)) 8 (10 * 60000) s with ⟨_ | _, t⟩
  · exact .refused c call
  intro hconsume
  have hpurged := hconsume.tail (.purge t)
  cases userNamed c (trim username) with
  | none => exact .refused c call (hpurged.tail (.wait _ _))
  | some user =>
    dsimp only
    rcases c.verifyPassword password user.passwordHash with _ | _ | _
    · exact .refused c call hpurged
    · exact .refused c call (hpurged.tail (.wait _ _))
    dsimp only
    split
    · exact .refused c call hpurged
    rename_i hroom
    let session : Session := ⟨sessionId, user.username, user.role,
      c.now (cleanupExpiredSessions c t).ticks,
      c.now ((cleanupExpiredSessions c t).ticks + 1)⟩
    have hentered := hpurged.tail (.enter _ session (by rw [hcall]; rfl)
      (Nat.lt_of_not_le hroom) rfl)
    exact .answered c call (hentered.tail (.wait _ _))

theorem logout_traced (hcall : call = .logout call.request) :
    Traced c call s ((logout c call.request s).1.map Prod.snd)
      (logout c call.request s).2 := by
  have hmoves := requestSession_moves c call s
  rw [logout]
  rcases hsession : requestSession c call.request s with ⟨error | _ | session, s'⟩
  · rw [hsession] at hmoves
    exact .refused c call hmoves
  · rw [hsession] at hmoves
    exact .answered c call hmoves
  · rw [hsession] at hmoves
    have hcookie := (requestSession_some hsession).1
    exact .answered c call (hmoves.tail (.leave s' session.id hcall hcookie))

theorem releaseController_traced
    (hcall : call = .releaseController call.request) :
    Traced c call s (releaseController c call.request s).1
      (releaseController c call.request s).2 := by
  have hmoves := requireSession_moves c call s
  rw [releaseController]
  rcases hsession : requireSession c call.request s with ⟨error | session, s'⟩
  · rw [hsession] at hmoves
    exact .refused c call hmoves
  rw [hsession] at hmoves
  have hpurged := hmoves.tail (.purge s')
  dsimp only
  rw [currentController_eq]
  cases hholder : (cleanupExpiredSessions c s').controllerSessionId.bind
      (cleanupExpiredSessions c s').get with
  | none => exact .answered c call hpurged
  | some controller =>
    dsimp only
    split
    · exact .refused c call hpurged
    rename_i hown
    have hheld := SecurityState.holder_id hholder
    rw [not_not.1 hown] at hheld
    have hcookie := (requestSession_some (requireSession_ok hsession)).1
    exact .answered c call (hpurged.tail (.release _ session.id hcall hcookie hheld))

end Moves

section Answers

variable {answer : Answer} {auth : AuthState}

theorem map_answer {result : Except SecurityError (SessionCookie × AuthState)}
    (hanswer : (result.map fun r => ({ auth := some r.2, setCookie := some r.1 } : Answer)) =
      .ok answer) (hauth : answer.auth = some auth) : result.map Prod.snd = .ok auth := by
  cases result with
  | error => cases hanswer
  | ok r =>
    cases hanswer
    exact congrArg Except.ok (Option.some.inj hauth)

theorem map_auth {result : Except SecurityError AuthState}
    (hanswer : (result.map fun r => ({ auth := some r } : Answer)) = .ok answer)
    (hauth : answer.auth = some auth) : result = .ok auth := by
  cases result with
  | error => cases hanswer
  | ok r =>
    cases hanswer
    exact congrArg Except.ok (Option.some.inj hauth)

theorem map_no_answer {result : Except SecurityError Session}
    (hanswer : (result.map fun r => ({ session := some r } : Answer)) = .ok answer) :
    answer.auth ≠ some auth := by
  cases result with
  | error => cases hanswer
  | ok r =>
    cases hanswer
    exact nofun

end Answers

theorem serve_moves (s : SecurityState) : Moves c call s (serve c call s).2 := by
  cases call with
  | login request username password sessionId =>
    exact (login_traced c _ username password sessionId s rfl).moves
  | logout request => exact (logout_traced c _ s rfl).moves
  | requireController request routeKey => exact requireController_moves c _ routeKey s rfl
  | releaseController request => exact (releaseController_traced c _ s rfl).moves
  | requireAuthentication request routeKey => exact requireAuthentication_moves c _ routeKey s
  | authStateForRequest request => exact (authStateForRequest_traced c _ s).moves

theorem serve_reported {call : ManagerCall} {answer : Answer}
    {auth : AuthState} (hanswer : (serve c call s).1 = .ok answer)
    (hauth : answer.auth = some auth) :
    ∃ t session, Moves c call s t ∧ (auth, (serve c call s).2) = authStateFor c session t := by
  cases call with
  | login request username password sessionId =>
    apply (login_traced c _ username password sessionId s rfl).reported
    exact map_answer hanswer hauth
  | logout request =>
    apply (logout_traced c _ s rfl).reported
    exact map_answer hanswer hauth
  | requireController request routeKey => exact absurd hauth (map_no_answer hanswer)
  | releaseController request =>
    apply (releaseController_traced c _ s rfl).reported
    exact map_auth hanswer hauth
  | requireAuthentication request routeKey => exact absurd hauth (map_no_answer hanswer)
  | authStateForRequest request =>
    apply (authStateForRequest_traced c _ s).reported
    exact map_auth hanswer hauth

theorem serve_keeps {P : SecurityState → Prop}
    (hmove : ∀ s t, P s → Move c call s t → P t) (hs : P s) :
    P (serve c call s).2 := by
  have hmoves := serve_moves c call s
  generalize (serve c call s).2 = t at hmoves ⊢
  induction hmoves with
  | refl => exact hs
  | tail _ hlast ih => exact hmove _ _ ih hlast

end VisualCpu
