import Mathlib
import VisualCpu.Frontend.DebugCliSession
import VisualCpu.Library.SlidingWindow

/-!
# The security manager

Sessions, the controller lock and the rate limits of the debug server, with authentication
enabled. Every call of `now()` takes the next reading of the clock, so time may pass between
any two of them. Of the audit log only the reading of its time stamp is kept.
-/

namespace VisualCpu

abbrev JsString := List Char

/-- What a handler reads of a request. -/
structure HttpRequest where
  (cookie xForwardedFor remoteAddress : Option JsString)
deriving DecidableEq

def firstForwardedIp (value : JsString) : JsString := trim (value.takeWhile (· ≠ ','))

def clientIpForRequest (request : HttpRequest) : JsString :=
  let forwarded := firstForwardedIp (request.xForwardedFor.getD [])
  if forwarded ≠ [] then forwarded else request.remoteAddress.getD "unknown".toList

section Cookies

def hexDigit (c : Char) : Option ℕ :=
  if '0' ≤ c ∧ c ≤ '9' then some (c.toNat - 48)
  else if 'a' ≤ c ∧ c ≤ 'f' then some (c.toNat - 87)
  else if 'A' ≤ c ∧ c ≤ 'F' then some (c.toNat - 55)
  else none

def percentByte : JsString → Option (ℕ × JsString)
  | '%' :: high :: low :: rest => do
    let high ← hexDigit high
    let low ← hexDigit low
    return (16 * high + low, rest)
  | _ => none

/-- Continuation bytes of one character, after the bits read so far. -/
def continuation : ℕ → ℕ → JsString → Option (ℕ × JsString)
  | 0, value, rest => some (value, rest)
  | count + 1, value, text => do
    let (byte, rest) ← percentByte text
    if byte / 64 = 2 then continuation count (64 * value + byte % 64) rest else none

/-- A code point in the shortest form, and no surrogate. -/
def checkedCodePoint (least value : ℕ) : Option Char :=
  if least ≤ value ∧ value.isValidChar then some (Char.ofNat value) else none

/-- One escaped character, its bytes in UTF-8. -/
def escapedChar (text : JsString) : Option (Char × JsString) := do
  let (byte, rest) ← percentByte text
  if byte < 0x80 then return (Char.ofNat byte, rest)
  else if byte / 32 = 6 then
    let (value, rest) ← continuation 1 (byte % 32) rest
    return (← checkedCodePoint 0x80 value, rest)
  else if byte / 16 = 14 then
    let (value, rest) ← continuation 2 (byte % 16) rest
    return (← checkedCodePoint 0x800 value, rest)
  else if byte / 8 = 30 then
    let (value, rest) ← continuation 3 (byte % 8) rest
    return (← checkedCodePoint 0x10000 value, rest)
  else none

def decodeEscapes : ℕ → JsString → Option JsString
  | 0, text => if text = [] then some [] else none
  | _ + 1, [] => some []
  | fuel + 1, c :: rest =>
    if c = '%' then do
      let (decoded, rest) ← escapedChar (c :: rest)
      return decoded :: (← decodeEscapes fuel rest)
    else do return c :: (← decodeEscapes fuel rest)

/-- `none` is the `URIError`. -/
def decodeURIComponent (text : JsString) : Option JsString := decodeEscapes text.length text

/-- The key and the decoded value of one part, `some none` where the part is skipped. -/
def parseCookie (part : JsString) : Option (Option (JsString × JsString)) :=
  if '=' ∉ part then some none
  else
    let key := trim (part.takeWhile (· ≠ '='))
    let value := trim ((part.dropWhile (· ≠ '=')).drop 1)
    if key = [] then some none
    else (decodeURIComponent value).map fun decoded => some (key, decoded)

/-- The assignments in order; a later one replaces an earlier one of its key. -/
def parseCookies (header : JsString) : Option (List (JsString × JsString)) :=
  ((header.splitOn ';').mapM parseCookie).map List.reduceOption

def DEFAULT_COOKIE_NAME : JsString := "mycpu_session".toList

end Cookies

/-- A session id is never the empty string, which the code takes for no id. -/
abbrev SessionId := { id : JsString // id ≠ [] }

structure Session where
  id : SessionId
  (username role : JsString)
  (createdAt lastSeenAt : ℤ)
deriving DecidableEq

structure User where
  (username passwordHash : JsString)
  role : JsString := "operator".toList
deriving DecidableEq

/-- The options, the clock as its readings in order, and `verifyPassword` on a password and a
hash, `none` where `scryptSync` throws. -/
structure SecurityConfig where
  users : List User
  (maxActiveSessions sessionTtlMs : ℕ)
  verifyPassword : JsString → JsString → Option Bool
  now : ℕ → ℤ
  now_mono : Monotone now

/-- `ticks` counts the readings of the clock so far. -/
structure SecurityState where
  sessionStore : List Session
  controllerSessionId : Option SessionId
  windows : JsString → List ℤ
  ticks : ℕ

def SecurityState.init : SecurityState := ⟨[], none, fun _ => [], 0⟩

inductive SecurityError
  | authenticationRequired | rateLimitExceeded
  | controllerLocked (username : JsString)
  | invalidCredentials
  | sessionLimitReached (limit : ℕ)
  | malformedCookie | passwordFailure
deriving DecidableEq

def SecurityError.statusCode : SecurityError → ℕ
  | authenticationRequired => 401
  | rateLimitExceeded => 429
  | controllerLocked _ => 409
  | invalidCredentials => 401
  | sessionLimitReached _ => 429
  | malformedCookie => 500
  | passwordFailure => 500

structure AuthState where
  (required authenticated : Bool)
  (username role : Option JsString)
  (activeSessions sessionLimit : ℕ)
  controllerUsername : Option JsString
  (controllerSession canControl : Bool)
deriving DecidableEq

namespace SecurityState

variable (s : SecurityState)

/-- Time passes to the next reading. -/
def tick : SecurityState := { s with ticks := s.ticks + 1 }

variable (id : SessionId)

def get : Option Session :=
  s.sessionStore.find? fun session => session.id = id

/-- `Map.set`, in place where the id has an entry. -/
def set (session : Session) : SecurityState :=
  { s with sessionStore :=
      if session.id ∈ s.sessionStore.map Session.id then
        s.sessionStore.map fun other => if other.id = session.id then session else other
      else s.sessionStore ++ [session] }

def delete : SecurityState :=
  { s with sessionStore := s.sessionStore.filter fun session => session.id ≠ id }

/-- The assignment to `lastSeenAt` of the session that an id is stored under. -/
def touch (time : ℤ) : SecurityState :=
  { s with sessionStore := s.sessionStore.map fun session =>
      if session.id = id then { session with lastSeenAt := time } else session }

def lock (holder : Option SessionId) : SecurityState :=
  { s with controllerSessionId := holder }

/-- The lock is dropped where the id holds it. -/
def unlock : SecurityState :=
  s.lock (if s.controllerSessionId = some id then none else s.controllerSessionId)

end SecurityState

/-- A result and the state it is returned or thrown in. -/
abbrev SecurityOutcome (α : Type) := Except SecurityError α × SecurityState

section Manager

variable (c : SecurityConfig)

def consume (key : JsString) (limit : ℕ) (windowMs : ℤ) (s : SecurityState) :
    SecurityOutcome Unit :=
  let now := c.now s.ticks
  let bucket := slide (now - windowMs) (s.windows key)
  if limit ≤ bucket.length then
    (.error .rateLimitExceeded, { s.tick with windows := Function.update s.windows key bucket })
  else (.ok (), { s.tick with windows := Function.update s.windows key (bucket ++ [now]) })

def cleanupExpiredSessions (s : SecurityState) : SecurityState :=
  let expirationCutoff := c.now s.ticks - c.sessionTtlMs
  { s.tick with
    sessionStore := s.sessionStore.filter fun session => ¬ session.lastSeenAt < expirationCutoff
    controllerSessionId :=
      if s.sessionStore.any fun session =>
          session.lastSeenAt < expirationCutoff ∧ s.controllerSessionId = some session.id
      then none else s.controllerSessionId }

def currentController (s : SecurityState) : Option Session × SecurityState :=
  let s := cleanupExpiredSessions c s
  (s.controllerSessionId.bind s.get, s)

def authStateFor (session : Option Session) (s : SecurityState) : AuthState × SecurityState :=
  let (controller, s) := currentController c s
  ({ required := true
     authenticated := session.isSome
     username := session.map Session.username
     role := session.map Session.role
     activeSessions := s.sessionStore.length
     sessionLimit := c.maxActiveSessions
     controllerUsername := controller.map Session.username
     controllerSession := session.any fun session =>
       controller.any fun controller => controller.id = session.id
     canControl := session.any fun session =>
       controller.all fun controller => controller.id = session.id }, s)

variable (request : HttpRequest)

def cookieSessionId : Except SecurityError (Option SessionId) :=
  match parseCookies (request.cookie.getD []) with
  | none => .error .malformedCookie
  | some cookies =>
    .ok ((cookies.reverse.lookup DEFAULT_COOKIE_NAME).bind fun value =>
      if h : value ≠ [] then some ⟨value, h⟩ else none)

def requestSession (s : SecurityState) : SecurityOutcome (Option Session) :=
  let s := cleanupExpiredSessions c s
  match cookieSessionId request with
  | .error error => (.error error, s)
  | .ok none => (.ok none, s)
  | .ok (some sessionId) =>
    match s.get sessionId with
    | none => (.ok none, s)
    | some session =>
      let now := c.now s.ticks
      (.ok (some { session with lastSeenAt := now }), (s.touch sessionId now).tick)

/-- `requireAuthentication` inside the manager, which limits nothing. -/
def requireSession (s : SecurityState) : SecurityOutcome Session :=
  match requestSession c request s with
  | (.error error, s) => (.error error, s)
  | (.ok none, s) => (.error .authenticationRequired, s)
  | (.ok (some session), s) => (.ok session, s)

variable (routeKey : JsString)

def readKey (session : Session) : JsString :=
  "read:".toList ++ routeKey ++ ":".toList ++ session.id.val

def writeKey (session : Session) : JsString :=
  "write:".toList ++ routeKey ++ ":".toList ++ session.id.val

def loginKey (ip : JsString) : JsString := "login:".toList ++ ip

def writeLimit : ℕ :=
  if routeKey = "terminal-input".toList then 180
  else if routeKey = "load".toList then 20 else 60

def requireAuthentication (routeKey : JsString) (s : SecurityState) :
    SecurityOutcome Session :=
  match requireSession c request s with
  | (.error error, s) => (.error error, s)
  | (.ok session, s) =>
    match consume c (readKey routeKey session) 240 60000 s with
    | (.error error, s) => (.error error, s)
    | (.ok _, s) => (.ok session, s)

def requireController (routeKey : JsString) (s : SecurityState) :
    SecurityOutcome Session :=
  match requireSession c request s with
  | (.error error, s) => (.error error, s)
  | (.ok session, s) =>
    match consume c (writeKey routeKey session) (writeLimit routeKey) 60000 s with
    | (.error error, s) => (.error error, s)
    | (.ok _, s) =>
      match currentController c s with
      | (none, s) => (.ok session, (s.lock (some session.id)).tick)
      | (some controller, s) =>
        if controller.id ≠ session.id then (.error (.controllerLocked controller.username), s)
        else (.ok session, s)

def authStateForRequest (s : SecurityState) : SecurityOutcome AuthState :=
  match requestSession c request s with
  | (.error error, s) => (.error error, s)
  | (.ok session, s) => ((.ok (authStateFor c session s).1), (authStateFor c session s).2)

/-- What changes in a `set-cookie` header: the value, its age and when it expires. -/
structure SessionCookie where
  value : JsString
  (maxAge expires : ℤ)
deriving DecidableEq

def cookieHeadersForSession (sessionId : SessionId) (s : SecurityState) :
    SessionCookie × SecurityState :=
  (⟨sessionId.val, c.sessionTtlMs / 1000, c.now s.ticks + c.sessionTtlMs⟩, s.tick)

def clearCookieHeaders : SessionCookie := ⟨[], 0, 0⟩

/-- The last user of a name with a name and a hash. -/
def userNamed (username : JsString) : Option User :=
  (c.users.filter fun user => user.username ≠ [] ∧ user.passwordHash ≠ []).reverse.find?
    fun user => user.username = username

/-- `login` on the text of the credentials, with the id that `randomBytes` would give. -/
def login (username password : JsString) (sessionId : SessionId)
    (s : SecurityState) : SecurityOutcome (SessionCookie × AuthState) :=
  match consume c (loginKey (clientIpForRequest request)) 8 (10 * 60000) s with
  | (.error error, s) => (.error error, s)
  | (.ok _, s) =>
    let s := cleanupExpiredSessions c s
    match userNamed c (trim username) with
    | none => (.error .invalidCredentials, s.tick)
    | some user =>
      match c.verifyPassword password user.passwordHash with
      | none => (.error .passwordFailure, s)
      | some false => (.error .invalidCredentials, s.tick)
      | some true =>
        if c.maxActiveSessions ≤ s.sessionStore.length then
          (.error (.sessionLimitReached c.maxActiveSessions), s)
        else
          let session : Session := ⟨sessionId, user.username, user.role, c.now s.ticks,
            c.now (s.ticks + 1)⟩
          let s := (s.tick.tick.set session).tick
          let (headers, s) := cookieHeadersForSession c sessionId s
          let (auth, s) := authStateFor c (some session) s
          (.ok (headers, auth), s)

/-- Whether a login gets as far as `verifyPassword`. -/
def loginVerifies (username : JsString) (s : SecurityState) : Bool :=
  (consume c (loginKey (clientIpForRequest request)) 8 (10 * 60000) s).1.isOk &&
    (userNamed c (trim username)).isSome

def logout (s : SecurityState) :
    SecurityOutcome (SessionCookie × AuthState) :=
  match requestSession c request s with
  | (.error error, s) => (.error error, s)
  | (.ok none, s) =>
    (.ok (clearCookieHeaders, (authStateFor c none s).1), (authStateFor c none s).2)
  | (.ok (some session), s) =>
    let s := ((s.delete session.id).unlock session.id).tick
    (.ok (clearCookieHeaders, (authStateFor c none s).1), (authStateFor c none s).2)

def releaseController (s : SecurityState) : SecurityOutcome AuthState :=
  match requireSession c request s with
  | (.error error, s) => (.error error, s)
  | (.ok session, s) =>
    match currentController c s with
    | (none, s) => (.ok (authStateFor c (some session) s).1, (authStateFor c (some session) s).2)
    | (some controller, s) =>
      if controller.id ≠ session.id then (.error (.controllerLocked controller.username), s)
      else
        let s := (s.lock none).tick
        (.ok (authStateFor c (some session) s).1, (authStateFor c (some session) s).2)

end Manager

end VisualCpu
