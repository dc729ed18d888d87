import Mathlib.Data.List.TakeWhile
import VisualCpu.Frontend.SecurityManager

/-!
# The login limit

The limiter of `login` keeps a window for every address that `clientIpForRequest` gives. The
proxy appends the address of the peer to the header of the client, and the manager reads the
first entry, so a client that sends the header chooses its window.
-/

namespace VisualCpu

open List WindowLog

/-- An address as the proxy writes it: no comma and no blank. -/
structure PeerAddress where
  text : JsString
  nonempty : text ≠ []
  plain : ∀ c ∈ text, c ≠ ',' ∧ isTrimmed c = false

/-- `$proxy_add_x_forwarded_for`: the headers of the client, then the address of the peer. -/
def proxyAddXForwardedFor (headers : List JsString) (peer : PeerAddress) : JsString :=
  headers.foldr (fun header rest => header ++ ", ".toList ++ rest) peer.text

/-- What a client sends to log in, and the session id that would be drawn for it. -/
structure LoginAttempt where
  xForwardedFor : List JsString
  cookie : Option JsString
  (username password : JsString)
  sessionId : SessionId

/-- The request behind the proxy, which connects from the same host. -/
def LoginAttempt.proxied (attempt : LoginAttempt) (peer : PeerAddress) : HttpRequest where
  cookie := attempt.cookie
  xForwardedFor := some (proxyAddXForwardedFor attempt.xForwardedFor peer)
  remoteAddress := some "127.0.0.1".toList

/-- When a login came, the address it was counted under and whether its password was checked. -/
structure LoginRecord where
  time : ℤ
  ip : JsString
  verified : Bool
deriving DecidableEq

variable (c : SecurityConfig) (peer : PeerAddress)

def loginRun : List LoginAttempt → SecurityState → List LoginRecord
  | [], _ => []
  | attempt :: rest, s =>
    let request := attempt.proxied peer
    ⟨c.now s.ticks, clientIpForRequest request, loginVerifies c request attempt.username s⟩ ::
      loginRun rest
        (login c request attempt.username attempt.password attempt.sessionId s).2

/-- The checked logins of ten minutes. -/
def verifiedIn (start : ℤ) (records : List LoginRecord) : List LoginRecord :=
  records.filter fun record =>
    record.verified ∧ start ≤ record.time ∧ record.time < start + 10 * 60000

/-- Of the logins inside any ten minutes at most eight reach `verifyPassword`. -/
def LoginsLimited (records : List LoginRecord) : Prop :=
  ∀ start, (verifiedIn start records).length ≤ 8

theorem login_windows (request : HttpRequest) (username password : JsString)
    (sessionId : SessionId) (s : SecurityState) :
    (login c request username password sessionId s).2.windows =
      (consume c (loginKey (clientIpForRequest request)) 8 (10 * 60000) s).2.windows := by
  rw [login]
  rcases consume c (loginKey (clientIpForRequest request)) 8 (10 * 60000) s with ⟨_ | _, s'⟩
  · rfl
  cases userNamed c (trim username) with
  | none => rfl
  | some user =>
    dsimp only
    rcases c.verifyPassword password user.passwordHash with _ | _ | _
    · rfl
    · rfl
    dsimp only
    split <;> rfl

theorem consume_ticks (key : JsString) (limit : ℕ) (windowMs : ℤ) (s : SecurityState) :
    (consume c key limit windowMs s).2.ticks = s.ticks + 1 := by
  rw [consume]
  split <;> rfl

theorem login_ticks (request : HttpRequest) (username password : JsString)
    (sessionId : SessionId) (s : SecurityState) :
    s.ticks ≤ (login c request username password sessionId s).2.ticks := by
  have hconsume := consume_ticks c (loginKey (clientIpForRequest request)) 8 (10 * 60000) s
  rw [login]
  revert hconsume
  rcases consume c (loginKey (clientIpForRequest request)) 8 (10 * 60000) s with ⟨_ | _, s'⟩
  · intro hticks
    exact Nat.le_of_lt (Nat.lt_of_succ_le hticks.ge)
  intro hticks
  have hcleanup : (cleanupExpiredSessions c s').ticks = s.ticks + 2 :=
    congrArg (· + 1) hticks
  cases userNamed c (trim username) with
  | none =>
    change s.ticks ≤ (cleanupExpiredSessions c s').ticks + 1
    omega
  | some user =>
    dsimp only
    rcases c.verifyPassword password user.passwordHash with _ | _ | _
    · change s.ticks ≤ (cleanupExpiredSessions c s').ticks
      omega
    · change s.ticks ≤ (cleanupExpiredSessions c s').ticks + 1
      omega
    dsimp only
    split
    · change s.ticks ≤ (cleanupExpiredSessions c s').ticks
      omega
    change s.ticks ≤ (cleanupExpiredSessions c s').ticks + 5
    omega

theorem consume_bucket (key : JsString) (limit : ℕ) (windowMs : ℤ) (s : SecurityState)
    (admitted : List ℤ) : (consume c key limit windowMs s).2.windows key =
      (offer limit windowMs ⟨s.windows key, admitted⟩ (c.now s.ticks)).bucket := by
  rw [consume, offer]
  split <;> exact Function.update_self _ _ _

theorem consume_windows_other {key other : JsString} (hother : other ≠ key) (limit : ℕ)
    (windowMs : ℤ) (s : SecurityState) :
    (consume c key limit windowMs s).2.windows other = s.windows other := by
  rw [consume]
  split <;> exact Function.update_of_ne hother _ _

theorem consume_isOk (key : JsString) (limit : ℕ) (windowMs : ℤ) (s : SecurityState) :
    (consume c key limit windowMs s).1.isOk ↔
      (slide (c.now s.ticks - windowMs) (s.windows key)).length < limit := by
  rw [consume]
  split
  · exact iff_of_false Bool.false_ne_true (by omega)
  · exact iff_of_true rfl (by omega)

theorem loginKey_injective {ip other : JsString} (h : loginKey ip = loginKey other) :
    ip = other := append_cancel_left h

/-- The checked logins of ten minutes that were counted under one address. -/
def keyedIn (start : ℤ) (ip : JsString) (records : List LoginRecord) : ℕ :=
  ((verifiedIn start records).filter fun record => record.ip = ip).length

theorem keyedIn_cons (start : ℤ) (ip : JsString) (record : LoginRecord)
    (rest : List LoginRecord) : keyedIn start ip (record :: rest) = keyedIn start ip rest +
      if record.ip = ip ∧ record.verified ∧ start ≤ record.time ∧
        record.time < start + 10 * 60000 then 1 else 0 := by
  rw [keyedIn, keyedIn, verifiedIn, verifiedIn, filter_filter, filter_filter]
  by_cases hrecord : record.ip = ip ∧ record.verified ∧ start ≤ record.time ∧
      record.time < start + 10 * 60000
  · rw [if_pos hrecord, filter_cons_of_pos (by simpa using hrecord)]
    rfl
  rw [if_neg hrecord, filter_cons_of_neg (by simpa using hrecord)]
  rfl

theorem loginRun_keyed (ip : JsString) (start : ℤ) (attempts : List LoginAttempt)
    (s : SecurityState) (admitted : List ℤ) (last : ℤ)
    (hwithin : WindowLog.Within 8 (10 * 60000) ⟨s.windows (loginKey ip), admitted⟩ last)
    (hlast : last ≤ c.now s.ticks) :
    (inWindow (10 * 60000) ⟨s.windows (loginKey ip), admitted⟩ start).length +
      keyedIn start ip (loginRun c peer attempts s) ≤ 8 := by
  induction attempts generalizing s admitted last with
  | nil => exact hwithin.bound start
  | cons attempt rest ih =>
    let request := attempt.proxied peer
    let s' := (login c request attempt.username attempt.password attempt.sessionId s).2
    have hlater : c.now s.ticks ≤ c.now s'.ticks := c.now_mono (login_ticks c _ _ _ _ s)
    by_cases hip : clientIpForRequest request = ip
    · let log := offer 8 (10 * 60000) ⟨s.windows (loginKey ip), admitted⟩
        (c.now s.ticks)
      have hbucket : s'.windows (loginKey ip) = log.bucket := by
        rw [show s'.windows = _ from login_windows c _ _ _ _ s, hip]
        exact consume_bucket c _ _ _ s admitted
      have hnext := ih s' log.admitted (c.now s.ticks)
        (by rw [hbucket]; exact hwithin.offer (by decide) hlast) hlater
      have hadded := @inWindow_offer 8 (10 * 60000)
        ⟨s.windows (loginKey ip), admitted⟩ (c.now s.ticks) start
      rw [hbucket, show (⟨log.bucket, log.admitted⟩ : WindowLog) = log from rfl] at hnext
      rw [loginRun, keyedIn_cons]
      have hverified : loginVerifies c request attempt.username s →
          (slide (c.now s.ticks - 10 * 60000) (s.windows (loginKey ip))).length < 8 := by
        intro hverifies
        rw [loginVerifies, Bool.and_eq_true, hip] at hverifies
        exact (consume_isOk c _ _ _ s).1 hverifies.1
      have hcount : (if clientIpForRequest request = ip ∧
          loginVerifies c request attempt.username s ∧ start ≤ c.now s.ticks ∧
            c.now s.ticks < start + 10 * 60000 then 1 else 0) ≤
          if (slide (c.now s.ticks - 10 * 60000) (s.windows (loginKey ip))).length < 8 ∧
            start ≤ c.now s.ticks ∧ c.now s.ticks < start + 10 * 60000 then 1 else 0 := by
        split
        · rename_i hrecord
          rw [if_pos ⟨hverified hrecord.2.1, hrecord.2.2⟩]
        · exact Nat.zero_le _
      apply Nat.le_trans (Nat.add_le_add_left (Nat.add_le_add_left hcount _) _)
      change (log.inWindow (10 * 60000) start).length = _ at hadded
      change _ + (keyedIn start ip (loginRun c peer rest s') + _) ≤ 8
      dsimp only at hadded
      omega
    · have hbucket : s'.windows (loginKey ip) = s.windows (loginKey ip) := by
        rw [show s'.windows = _ from login_windows c _ _ _ _ s]
        exact consume_windows_other c (fun h => hip (loginKey_injective h.symm)) _ _ s
      have hnext := ih s' admitted last (by rw [hbucket]; exact hwithin)
        (Int.le_trans hlast hlater)
      rw [hbucket] at hnext
      rw [loginRun, keyedIn_cons, if_neg fun hrecord => hip hrecord.1]
      exact hnext

/-- Each address reaches `verifyPassword` at most eight times in ten minutes. -/
theorem loginRun_limited_keyed (attempts : List LoginAttempt) (ip : JsString) (start : ℤ) :
    keyedIn start ip (loginRun c peer attempts .init) ≤ 8 :=
  Nat.le_trans (Nat.le_add_left _ _)
    (loginRun_keyed c peer ip start attempts .init [] _ (within_nil _) (Int.le_refl _))

theorem loginRun_ip (attempts : List LoginAttempt) (s : SecurityState) (ip : JsString)
    (hip : ∀ attempt ∈ attempts, clientIpForRequest (attempt.proxied peer) = ip) :
    ∀ record ∈ loginRun c peer attempts s, record.ip = ip := by
  induction attempts generalizing s with
  | nil => exact fun _ hrecord => absurd hrecord not_mem_nil
  | cons attempt rest ih =>
    intro record hrecord
    rcases mem_cons.1 hrecord with rfl | hrest
    · exact hip attempt mem_cons_self
    · exact ih _ (fun other hother => hip other (mem_cons_of_mem _ hother)) record hrest

/-- Logins that are all counted under one address are limited. -/
theorem loginRun_limited (attempts : List LoginAttempt) (ip : JsString)
    (hip : ∀ attempt ∈ attempts, clientIpForRequest (attempt.proxied peer) = ip) :
    LoginsLimited (loginRun c peer attempts .init) := by
  intro start
  have hkeyed := loginRun_limited_keyed c peer attempts ip start
  have hall : (verifiedIn start (loginRun c peer attempts .init)).filter
      (fun record => record.ip = ip) = verifiedIn start (loginRun c peer attempts .init) := by
    apply filter_eq_self.2
    intro record hrecord
    simpa using loginRun_ip c peer attempts .init ip hip record (mem_of_mem_filter hrecord)
  rw [keyedIn, hall] at hkeyed
  exact hkeyed

section Runs

/-- One known user, a wrong password and a clock that stands still. -/
def loginConfig : SecurityConfig where
  users := [{ username := "admin".toList, passwordHash := "hash".toList }]
  maxActiveSessions := 3
  sessionTtlMs := 1000
  verifyPassword := fun _ _ => some false
  now := fun _ => 0
  now_mono := fun _ _ _ => Int.le_refl 0

def loginPeer : PeerAddress where
  text := "9".toList
  nonempty := by decide
  plain := by
    intro c hc
    obtain rfl : c = '9' := by simpa using hc
    exact ⟨by decide, by simp [isTrimmed]⟩

def loginWith (xForwardedFor : List JsString) : LoginAttempt :=
  ⟨xForwardedFor, none, "admin".toList, "guess".toList, ⟨['i'], by decide⟩⟩

/-- Nine logins of one peer in one instant, each under an address of its own making. -/
def forgedLogins : List LoginAttempt :=
  ["a", "b", "c", "d", "e", "f", "g", "h", "i"].map fun header => loginWith [header.toList]

theorem forgedLogins_unlimited :
    ¬ LoginsLimited (loginRun loginConfig loginPeer forgedLogins .init) := by
  intro h
  have hwindow := h 0
  revert hwindow
  decide

theorem plainLogins_limited :
    LoginsLimited (loginRun loginConfig loginPeer (List.replicate 9 (loginWith [])) .init) :=
  loginRun_limited loginConfig loginPeer (List.replicate 9 (loginWith [])) "9".toList
    (by decide)

end Runs

end VisualCpu
