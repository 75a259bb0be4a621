import Ws2tcpRouter.Args
import Ws2tcpRouter.Connection
import Ws2tcpRouter.Lib.Sessions

/-!
# The server

`main` and `serve_listener` of `main.rs`, once the listeners are bound: every
accepted stream is a connection of its own, and all of them share the
credentials and the token store. The runtime has one thread, so between two
waits of one connection no other takes a step, and in every other respect they
are interleaved as it happens.
-/

namespace Ws2tcpRouter

structure Listener where
  tls : Bool
  serving : Bool
  deriving DecidableEq, Repr

structure Shared where
  auth : Option AuthConfig
  tokens : Token.State
  listeners : List Listener

def ServiceMode.includesWs : ServiceMode → Bool
  | .wsOnly => true
  | .wssOnly => false
  | .both => true

/-- The listeners `main` serves. -/
def ServiceMode.listeners (mode : ServiceMode) : List Listener :=
  (if mode.includesWs then [⟨false, true⟩] else []) ++
    if mode.includesWss then [⟨true, true⟩] else []

/-- What happens to the server besides its connections. A reload comes with the
content of the file, where it could be read. -/
inductive Occurrence
  | accept (listener : Nat) (done : Bool)
  | reloadAuthFile (file : Option Str)
  | reloadAnonymousTargetFile (file : Option Str)

/-- One turn of `serve_listener`, which ends with the first failure. -/
def Shared.accept (s : Shared) (listener : Nat) (done : Bool) : Shared × Option ConnPhase :=
  match s.listeners[listener]? with
  | none => (s, none)
  | some l =>
    if !l.serving then (s, none)
    else if done then (s, some (if l.tls then .acceptingTls else .readingHead []))
    else ({ s with listeners := s.listeners.set listener { l with serving := false } }, none)

def Shared.occur (p : Platform) (s : Shared) : Occurrence → Shared × Option ConnPhase
  | .accept listener done => s.accept listener done
  | .reloadAuthFile file =>
    ({ s with auth := s.auth.map fun auth => (auth.reloadAuthFile p file).1 }, none)
  | .reloadAnonymousTargetFile file =>
    ({ s with auth := s.auth.map fun auth => (auth.reloadAnonymousTargetFile file).1 }, none)

def Setup.server (env : Setup) (auth : Option AuthConfig) (mode : ServiceMode) :
    Sessions.Program Instant Shared ConnPhase Occurrence (Input env.bufferSize) Act where
  start t s := s = ⟨auth, .new t, mode.listeners⟩
  world _ s occurrence := s.occur env.platform occurrence
  awaits phase input := phase.awaits input
  input now s phase input :=
    let turn := env.turn s.auth s.tokens now phase input
    ({ s with tokens := turn.tokens }, turn.phase, turn.acts)

/-- Nothing is accepted, or a connection begins, or the listener is done. -/
theorem Shared.accept_cases (s : Shared) (listener : Nat) (done : Bool) :
    s.accept listener done = (s, none) ∨
      ∃ l, s.listeners[listener]? = some l ∧ l.serving = true ∧
        (done = true ∧
          s.accept listener done = (s, some (if l.tls then .acceptingTls else .readingHead [])) ∨
        done = false ∧ s.accept listener done =
          (⟨s.auth, s.tokens, s.listeners.set listener { l with serving := false }⟩, none)) := by
  unfold accept
  split
  next => exact .inl rfl
  next l hl =>
    split
    next => exact .inl rfl
    next hserving =>
      refine .inr ⟨l, hl, by simpa using hserving, ?_⟩
      cases done with
      | true => exact .inl ⟨rfl, rfl⟩
      | false => exact .inr ⟨rfl, rfl⟩

theorem Shared.occur_tokens (p : Platform) (s : Shared) (occurrence : Occurrence) :
    (s.occur p occurrence).1.tokens = s.tokens := by
  cases occurrence with
  | accept listener done =>
    rw [occur]
    obtain heq | ⟨l, -, -, ⟨-, heq⟩ | ⟨-, heq⟩⟩ := s.accept_cases listener done <;> rw [heq]
  | reloadAuthFile file => rfl
  | reloadAnonymousTargetFile file => rfl

/-- A connection begins with the tls handshake, or with the reading of its head. -/
theorem Shared.occur_opens {s : Shared} (h : (s.occur p occurrence).2 = some phase) :
    phase = .acceptingTls ∨ phase = .readingHead [] := by
  cases occurrence with
  | accept listener done =>
    rw [occur] at h
    obtain heq | ⟨l, -, -, ⟨-, heq⟩ | ⟨-, heq⟩⟩ := s.accept_cases listener done
    · rw [heq] at h
      cases h
    · rw [heq] at h
      cases h
      cases l.tls with
      | true => exact .inl rfl
      | false => exact .inr rfl
    · rw [heq] at h
      cases h
  | reloadAuthFile file => cases h
  | reloadAnonymousTargetFile file => cases h

end Ws2tcpRouter
