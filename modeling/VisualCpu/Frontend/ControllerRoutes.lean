import VisualCpu.Frontend.ControllerLock

/-!
# The session routes behind the lock

A route checks the lock and hands its action to the runtime. The routes with a body wait for
it in between, and a load also for its entry; every other request may come meanwhile.
-/

namespace VisualCpu

open List

inductive SessionRoute
  | load | stepCycle | stepCommit | debugCommand | reset | terminate | run | terminalInput
  | pause
deriving DecidableEq

def SessionRoute.routeKey : SessionRoute → JsString
  | load => "load".toList
  | stepCycle => "step-cycle".toList
  | stepCommit => "step-commit".toList
  | debugCommand => "debug-command".toList
  | reset => "reset".toList
  | terminate => "terminate".toList
  | run => "run".toList
  | terminalInput => "terminal-input".toList
  | pause => "pause".toList

def SessionRoute.readsBody : SessionRoute → Bool
  | load | debugCommand | run | terminalInput => true
  | _ => false

/-- A handler between its check and its action; a load waits for the entry once its body is
read. -/
structure WaitingHandler where
  session : SessionId
  route : SessionRoute
  bodyRead : Bool
deriving DecidableEq

/-- An action that reaches the runtime, with the session that was checked for it. -/
structure Handed where
  session : SessionId
  route : SessionRoute
deriving DecidableEq

structure ServerState where
  security : SecurityState
  waiting : List WaitingHandler

open ServerState

/-- A request of a session route, the end of a read or of `resolveSessionLoadEntry` for one of
the waiting handlers, or any other call of the security manager. -/
inductive ServerEvent
  | request (request : HttpRequest) (route : SessionRoute)
  | body (index : ℕ) (ok : Bool)
  | entry (index : ℕ) (ok : Bool)
  | call (call : ManagerCall)

variable (c : SecurityConfig)

namespace ServerState

def init : ServerState := ⟨.init, []⟩

def resume (s : ServerState) (waiting : List WaitingHandler) : ServerState :=
  ⟨s.security.tick, waiting⟩

def step (s : ServerState) : ServerEvent → Option Handed × ServerState
  | .request request route =>
    match requireController c request route.routeKey s.security with
    | (.error _, security) => (none, { s with security := security })
    | (.ok session, security) =>
      if route.readsBody then (none, ⟨security, s.waiting ++ [⟨session.id, route, false⟩]⟩)
      else (some ⟨session.id, route⟩, { s with security := security })
  | .body index ok =>
    match s.waiting[index]? with
    | none => (none, s)
    | some handler =>
      if handler.bodyRead then (none, s)
      else if ok = false then (none, s.resume (s.waiting.eraseIdx index))
      else if handler.route = .load then
        (none, s.resume (s.waiting.set index { handler with bodyRead := true }))
      else (some ⟨handler.session, handler.route⟩, s.resume (s.waiting.eraseIdx index))
  | .entry index ok =>
    match s.waiting[index]? with
    | none => (none, s)
    | some handler =>
      if handler.bodyRead = false then (none, s)
      else if ok = false then (none, s.resume (s.waiting.eraseIdx index))
      else (some ⟨handler.session, handler.route⟩, s.resume (s.waiting.eraseIdx index))
  | .call call => (none, { s with security := (serve c call s.security).2 })

def run (events : List ServerEvent) (s : ServerState) : ServerState :=
  events.foldl (fun s event => (s.step c event).2) s

end ServerState

/-- A live session that holds the lock. -/
def Controls (s : SecurityState) (id : SessionId) : Prop :=
  LiveSession c s id ∧ s.controllerSessionId = some id

/-- Every action that is handed over is one of the controller at that moment. -/
def HandedControlled (events : List ServerEvent) : Prop :=
  ∀ front event rest handed, events = front ++ event :: rest →
    ((init.run c front).step c event).1 = some handed →
      Controls c ((init.run c front).step c event).2.security handed.session

/-- A waiting session stays in an event: it does not release the lock, log out or go unseen
for longer than its life time. -/
structure Stays (s : ServerState) (event : ServerEvent) (id : SessionId) : Prop where
  kept : ∀ request, event = .call (.releaseController request) →
    cookieSessionId request ≠ .ok (some id)
  loggedIn : ∀ request, event = .call (.logout request) → cookieSessionId request ≠ .ok (some id)
  seen : ∀ session ∈ s.security.sessionStore, session.id = id →
    ¬ session.lastSeenAt < c.now ((s.step c event).2.security.ticks - 1) - c.sessionTtlMs

def AttendedRun : List ServerEvent → ServerState → Prop
  | [], _ => True
  | event :: rest, s =>
    (c.now ((s.step c event).2.security.ticks - 1) ≤ c.now s.security.ticks + c.sessionTtlMs ∧
      ∀ handler ∈ s.waiting, Stays c s event handler.session) ∧
    AttendedRun rest (s.step c event).2

/-- The handlers that wait are of the session with the lock. -/
structure WaitingHold (s : ServerState) : Prop where
  stamped : Stamped c s.security
  holds : ∀ handler ∈ s.waiting, HoldsLock handler.session s.security

variable {c} {s : ServerState}

theorem request_security (request : HttpRequest) (route : SessionRoute) :
    (s.step c (.request request route)).2.security =
      (serve c (.requireController request route.routeKey) s.security).2 := by
  change _ = (requireController c request route.routeKey s.security).2
  rw [step]
  rcases requireController c request route.routeKey s.security with ⟨_ | session, security⟩
  · rfl
  dsimp only
  split <;> rfl

theorem request_waiting (request : HttpRequest) (route : SessionRoute) :
    ∀ handler ∈ (s.step c (.request request route)).2.waiting, handler ∈ s.waiting ∨
      Granted c s.security (.requireController request route.routeKey) handler.session := by
  rw [step]
  rcases hresult : requireController c request route.routeKey s.security with
    ⟨_ | session, security⟩
  · exact fun _ hhandler => .inl hhandler
  dsimp only
  split
  · intro handler hhandler
    rcases mem_append.1 hhandler with hold | hnew
    · exact .inl hold
    rw [mem_singleton] at hnew
    exact .inr ⟨request, _, session, rfl, congrArg Prod.fst hresult, hnew ▸ rfl⟩
  · exact fun _ hhandler => .inl hhandler

variable {handed : Handed}

theorem request_handed {request : HttpRequest} {route : SessionRoute}
    (h : (s.step c (.request request route)).1 = some handed) :
    Granted c s.security (.requireController request route.routeKey) handed.session := by
  rw [step] at h
  rcases hresult : requireController c request route.routeKey s.security with
    ⟨_ | session, security⟩
  · rw [hresult] at h
    cases h
  rw [hresult] at h
  dsimp only at h
  split at h
  · cases h
  cases h
  exact ⟨request, _, session, rfl, congrArg Prod.fst hresult, rfl⟩

variable {event : ServerEvent} {id : SessionId}

theorem Stays.holds {call : ManagerCall}
    (h : Stays c s event id) (hstamped : Stamped c s.security) (hheld : HoldsLock id s.security)
    (hstate : (s.step c event).2.security = (serve c call s.security).2)
    (hcall : event = .call call ∨ ∃ request routeKey, call = .requireController request routeKey) :
    HoldsLock id (s.step c event).2.security := by
  rw [hstate]
  rcases serve_lock hheld hstamped call with hkept | hlost
  · exact hkept
  exfalso
  cases hlost with
  | released request hrelease hcookie =>
    subst hrelease
    rcases hcall with hcall | ⟨_, _, hcall⟩
    · exact h.kept request hcall hcookie
    · cases hcall
  | loggedOut request hlogout hcookie =>
    subst hlogout
    rcases hcall with hcall | ⟨_, _, hcall⟩
    · exact h.loggedIn request hcall hcookie
    · cases hcall
  | unseen reading hfrom hto session hsession hid hunseen =>
    have hseen := h.seen session hsession hid
    rw [hstate] at hseen
    have := c.now_mono (Nat.le_sub_one_of_lt hto)
    omega

/-- What the end of a read can do: nothing, or time passes, the waiting handlers are old ones
and an action is that of a waiting handler. -/
def Resumed (s : ServerState) (result : Option Handed × ServerState) : Prop :=
  result = (none, s) ∨ ∃ waiting, result.2 = s.resume waiting ∧
    (∀ handler ∈ waiting, ∃ old ∈ s.waiting, old.session = handler.session) ∧
    ∀ handed, result.1 = some handed → ∃ old ∈ s.waiting, old.session = handed.session

theorem Resumed.leave {index : ℕ} {handler : WaitingHandler}
    (hhandler : s.waiting[index]? = some handler)
    (handed : Option Handed) (hhanded : ∀ h, handed = some h → h.session = handler.session) :
    Resumed s (handed, s.resume (s.waiting.eraseIdx index)) := by
  refine .inr ⟨_, rfl, ?_, ?_⟩
  · exact fun other hother => ⟨other, mem_of_mem_eraseIdx hother, rfl⟩
  · exact fun h hh => ⟨handler, List.mem_of_getElem? hhandler, (hhanded h hh).symm⟩

theorem body_resumed (index : ℕ) (ok : Bool) : Resumed s (s.step c (.body index ok)) := by
  rw [step]
  cases hhandler : s.waiting[index]? with
  | none => exact .inl rfl
  | some handler =>
    dsimp only
    split
    · exact .inl rfl
    split
    · exact .leave hhandler none nofun
    split
    · refine .inr ⟨_, rfl, ?_, nofun⟩
      intro other hother
      rcases mem_or_eq_of_mem_set hother with hold | rfl
      · exact ⟨other, hold, rfl⟩
      · exact ⟨handler, List.mem_of_getElem? hhandler, rfl⟩
    · exact .leave hhandler _ fun h hh => (Option.some.inj hh) ▸ rfl

theorem entry_resumed (index : ℕ) (ok : Bool) : Resumed s (s.step c (.entry index ok)) := by
  rw [step]
  cases hhandler : s.waiting[index]? with
  | none => exact .inl rfl
  | some handler =>
    dsimp only
    split
    · exact .inl rfl
    split
    · exact .leave hhandler none nofun
    · exact .leave hhandler _ fun h hh => (Option.some.inj hh) ▸ rfl

theorem HoldsLock.tick {s : SecurityState} (h : HoldsLock id s) : HoldsLock id s.tick := h

theorem Stamped.tick {s : SecurityState} (h : Stamped c s) : Stamped c s.tick :=
  fun session hsession => (h session hsession).trans (c.now_mono (Nat.le_succ _))

theorem serve_stamped (call : ManagerCall) {s : SecurityState} (h : Stamped c s) :
    Stamped c (serve c call s).2 := serve_keeps c call (fun _ _ => move_stamped) h

section

variable (h : WaitingHold c s)

include h

theorem WaitingHold.resumed {result : Option Handed × ServerState}
    (hresumed : Resumed s result) : WaitingHold c result.2 := by
  rcases hresumed with rfl | ⟨waiting, hstate, hold, -⟩
  · exact h
  rw [hstate]
  refine ⟨h.stamped.tick, fun handler hhandler => ?_⟩
  obtain ⟨old, hmem, hsame⟩ := hold handler hhandler
  exact hsame ▸ (h.holds old hmem).tick

theorem WaitingHold.step (event : ServerEvent)
    (hprompt : c.now ((s.step c event).2.security.ticks - 1) ≤
      c.now s.security.ticks + c.sessionTtlMs)
    (hstay : ∀ handler ∈ s.waiting, Stays c s event handler.session) :
    WaitingHold c (s.step c event).2 := by
  cases event with
  | request request route =>
    have hstate := request_security (c := c) (s := s) request route
    refine ⟨hstate ▸ serve_stamped _ h.stamped, fun handler hhandler => ?_⟩
    rcases request_waiting request route handler hhandler with hold | hgranted
    · exact (hstay handler hold).holds h.stamped (h.holds handler hold) hstate
        (.inr ⟨_, _, rfl⟩)
    rw [hstate] at hprompt ⊢
    have hlive := granted_live c hgranted hprompt
    exact ⟨hlive.2, hlive.1.stored c⟩
  | body index ok => exact h.resumed (body_resumed index ok)
  | entry index ok => exact h.resumed (entry_resumed index ok)
  | call call =>
    refine ⟨serve_stamped call h.stamped, fun handler hhandler => ?_⟩
    exact (hstay handler hhandler).holds h.stamped (h.holds handler hhandler) rfl (.inl rfl)

theorem Resumed.controlled (hresumed : Resumed s (s.step c event))
    (hstay : ∀ handler ∈ s.waiting, Stays c s event handler.session)
    (hhanded : (s.step c event).1 = some handed) :
    Controls c (s.step c event).2.security handed.session := by
  rcases hresumed with hidle | ⟨waiting, hstate, -, hsome⟩
  · rw [hidle] at hhanded
    cases hhanded
  obtain ⟨old, hold, hsame⟩ := hsome handed hhanded
  have hheld := h.holds old hold
  rw [hsame] at hheld
  have hseen := (hstay old hold).seen
  rw [hstate] at hseen ⊢
  refine ⟨?_, hheld.1⟩
  obtain ⟨session, hsession, hid⟩ := mem_map.1 hheld.2
  exact ⟨session, hsession, hid, hseen session hsession (hid.trans hsame.symm)⟩

theorem step_controlled
    (hprompt : c.now ((s.step c event).2.security.ticks - 1) ≤
      c.now s.security.ticks + c.sessionTtlMs)
    (hstay : ∀ handler ∈ s.waiting, Stays c s event handler.session)
    (hhanded : (s.step c event).1 = some handed) :
    Controls c (s.step c event).2.security handed.session := by
  cases event with
  | request request route =>
    rw [request_security] at hprompt ⊢
    exact granted_live c (request_handed hhanded) hprompt
  | body index ok => exact (body_resumed index ok).controlled h hstay hhanded
  | entry index ok => exact (entry_resumed index ok).controlled h hstay hhanded
  | call call => cases hhanded

end

theorem waitingHold_init : WaitingHold c .init :=
  ⟨fun _ h => absurd h not_mem_nil, fun _ h => absurd h not_mem_nil⟩

/-- In an attended run every action that is handed over is one of the controller. -/
theorem run_handedControlled (c : SecurityConfig) (events : List ServerEvent)
    (hattended : AttendedRun c events .init) : HandedControlled c events := by
  intro front event rest handed hevents
  rw [hevents] at hattended
  clear hevents
  have hinv : WaitingHold c init := waitingHold_init
  revert hattended hinv
  generalize init = s
  induction front generalizing s with
  | nil => exact fun hattended hinv => step_controlled hinv hattended.1.1 hattended.1.2
  | cons first front ih =>
    exact fun hattended hinv =>
      ih _ hattended.2 (hinv.step first hattended.1.1 hattended.1.2)

section Runs

/-- A session asks for a run, logs out, and its body arrives. -/
def lateBody : List ServerEvent :=
  [.call (loginAs sessionA), .request (requestOf sessionA) .run,
    .call (.logout (requestOf sessionA)), .body 0 true]

theorem lateBody_uncontrolled : ¬ HandedControlled steadyConfig lateBody := by
  intro h
  obtain ⟨⟨session, hsession, -⟩, -⟩ := h (lateBody.take 3) (.body 0 true) []
    ⟨sessionA, .run⟩ rfl (by decide)
  revert hsession
  have hempty : ((init.run steadyConfig (lateBody.take 3)).step steadyConfig
      (.body 0 true)).2.security.sessionStore = [] := by decide
  rw [hempty]
  exact not_mem_nil

/-- The body arrives while the session stays. -/
def keptBody : List ServerEvent :=
  [.call (loginAs sessionA), .request (requestOf sessionA) .run, .body 0 true,
    .request (requestOf sessionA) .pause]

theorem keptBody_controlled : HandedControlled steadyConfig keptBody := by
  have hnone : ∀ {s : ServerState} {event : ServerEvent}, s.waiting = [] →
      ∀ handler ∈ s.waiting, Stays steadyConfig s event handler.session :=
    fun hempty handler hhandler => absurd (hempty ▸ hhandler) not_mem_nil
  have hseen : ∀ session ∈ (init.run steadyConfig
      (keptBody.take 2)).security.sessionStore, ¬ session.lastSeenAt < steadyConfig.now
        ((init.run steadyConfig (keptBody.take 3)).security.ticks - 1) -
          steadyConfig.sessionTtlMs := by decide
  refine run_handedControlled steadyConfig keptBody ⟨⟨by decide, hnone rfl⟩,
    ⟨by decide, hnone (by decide)⟩, ⟨by decide, ?_⟩,
    ⟨by decide, hnone (by decide)⟩, trivial⟩
  exact fun _ _ => ⟨nofun, nofun, fun session hsession _ => hseen session hsession⟩

end Runs

end VisualCpu
