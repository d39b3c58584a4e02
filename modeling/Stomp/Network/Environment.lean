import Stomp.Error
import Stomp.Network.Socket
import Stomp.Seconds

/-!
# What operations leave behind

An operation works on a subject (a stream, a connection, the tools) and on its
**environment**: the clock, the number of sockets that exist, the acts done to
sockets so far, and the notices given to the log. It may fail; what it has
changed until then stays changed.

The acts are the whole of what the outside world sees. Each is kept with the
time at which it began and with the socket that it was done to.
-/

namespace Stomp

namespace Network

/-- Something that is done to the network. -/
inductive Act
  /-- A line to a host is asked for. -/
  | dial (host : Text) (port : Int) (timeout : Option Seconds)
  /-- Data is waited for, with a limit on the time or none. -/
  | receive (wait : Option Rat) (delivery : Delivery)
  /-- Bytes are sent, all of them. -/
  | send (bytes : Bytes)
  /-- Sending the bytes failed; none of them went out. -/
  | sendFailed (bytes : Bytes)
  /-- The line is shut down, in vain or not. -/
  | shutdown
  /-- The socket is given back, in vain or not. -/
  | close
deriving DecidableEq, Repr

/-- An act, when it began, and the number of the socket; a dial that failed
has none. -/
structure Entry where
  time : Rat
  socket : Option Nat
  act : Act
deriving DecidableEq, Repr

end Network

/-- How much a notice matters. -/
inductive Level
  | debug
  | info
  | warning
deriving DecidableEq, Repr

/-- What is told to the log. -/
inductive Notice
  | sending (frame : Frame)
  | received (frame : Frame)
  | opened (host : Text) (port : Int)
  | established (version : Text)
  | disconnected
  | shutdownFailed (reason : Text)
  | closeFailed (reason : Text)
deriving DecidableEq, Repr

namespace Notice

def level : Notice → Level
  | sending _ | received _ | shutdownFailed _ => .debug
  | opened .. | established _ | disconnected => .info
  | closeFailed _ => .warning

def message : Notice → Text
  | sending f => "Sending " ++ f.summary
  | received f => "Received " ++ f.summary
  | opened host port => "Opened connection to " ++ host ++ ":" ++ Text.ofInt port
  | established version => "STOMP session established (protocol " ++ version ++ ")"
  | disconnected => "Disconnected"
  | shutdownFailed reason => "Socket shutdown failed: " ++ reason
  | closeFailed reason => "Error closing connection: " ++ reason

end Notice

/-- What operations share and leave behind. -/
structure Environment where
  /-- Seconds since the start. -/
  clock : Rat := 0
  /-- How many sockets there have been. -/
  sockets : Nat := 0
  /-- What was done to the network, oldest first. -/
  acts : List Network.Entry := []
  /-- What was told to the log, oldest first. -/
  notices : List Notice := []
deriving DecidableEq, Repr

instance : Inhabited Environment := ⟨{}⟩

/-- An operation on a subject in an environment. -/
abbrev Operation (σ : Type) := ExceptT Error (StateM (σ × Environment))

namespace Operation

variable {σ τ α : Type}

/-- Does the operation. -/
def on (op : Operation σ α) (subject : σ) (env : Environment) : Except Error α × σ × Environment :=
  ExceptT.run op (subject, env)

/-- The operation that a function on subject and environment is. -/
def mk (f : σ × Environment → Except Error α × σ × Environment) : Operation σ α := ExceptT.mk f

/-- The subject. -/
def subject : Operation σ σ := do return (← get).1

/-- The environment. -/
def environment : Operation σ Environment := do return (← get).2

/-- Changes the subject. -/
def change (f : σ → σ) : Operation σ Unit := modify fun (s, env) => (f s, env)

/-- Changes the environment. -/
def changeEnvironment (f : Environment → Environment) : Operation σ Unit :=
  modify fun (s, env) => (s, f env)

/-- Goes on with a value, or fails with an error. -/
def ofExcept : Except Error α → Operation σ α
  | .ok a => pure a
  | .error e => throw e

/-- Does an operation and gives its outcome, so that a failure is not passed
on. -/
def attempt (op : Operation σ α) : Operation σ (Except Error α) :=
  mk fun (s, env) =>
    let (outcome, after) := op.on s env
    (.ok outcome, after)

/-- Does an operation on a subject of its own, in the same environment. -/
def apart (own : τ) (op : Operation τ α) : Operation σ (Except Error α × τ) :=
  mk fun (s, env) =>
    let (outcome, own, env) := op.on own env
    (.ok (outcome, own), s, env)

/-- Tells the log. -/
def notify (notice : Notice) : Operation σ Unit :=
  changeEnvironment fun env => { env with notices := env.notices ++ [notice] }

/-- Keeps an act, begun now. -/
def act (socket : Option Nat) (act : Network.Act) : Operation σ Unit :=
  changeEnvironment fun env => { env with acts := env.acts ++ [⟨env.clock, socket, act⟩] }

/-- Lets time pass. -/
def elapse (seconds : Rat) : Operation σ Unit :=
  changeEnvironment fun env => { env with clock := env.clock + seconds }

/-- A new socket, to the given peer. -/
def newSocket (peer : Network.Peer) : Operation σ Network.Socket :=
  mk fun (s, env) => (.ok ⟨env.sockets, peer⟩, s, { env with sockets := env.sockets + 1 })

/-! ### What the operations do -/

@[simp] theorem on_pure (a : α) (s : σ) (env : Environment) :
    (pure a : Operation σ α).on s env = (.ok a, s, env) := rfl

@[simp] theorem on_throw (e : Error) (s : σ) (env : Environment) :
    (throw e : Operation σ α).on s env = (.error e, s, env) := rfl

/-- An operation after another works on what the first one left, unless that one
failed. -/
theorem on_bind {β : Type} (op : Operation σ α) (next : α → Operation σ β) (s : σ)
    (env : Environment) :
    (op >>= next).on s env =
      match op.on s env with
      | (.ok a, s', env') => (next a).on s' env'
      | (.error e, s', env') => (.error e, s', env') := by
  change (match op (s, env) with | (a, left) => ExceptT.bindCont next a left) =
    match op (s, env) with
    | (.ok a, s', env') => (next a).on s' env'
    | (.error e, s', env') => (.error e, s', env')
  rcases op (s, env) with ⟨a | e, s', env'⟩ <;> rfl

theorem on_map {β : Type} (f : α → β) (op : Operation σ α) (s : σ) (env : Environment) :
    (f <$> op).on s env = ((op.on s env).1.map f, (op.on s env).2) := by
  rw [map_eq_pure_bind, on_bind]
  rcases op.on s env with ⟨a | e, s', env'⟩ <;> rfl

theorem on_ite (c : Prop) [Decidable c] (op other : Operation σ α) (s : σ) (env : Environment) :
    (if c then op else other).on s env = if c then op.on s env else other.on s env := by
  split <;> rfl

@[simp] theorem on_mk (f : σ × Environment → Except Error α × σ × Environment) (s : σ)
    (env : Environment) : (mk f).on s env = f (s, env) := rfl

@[simp] theorem on_subject (s : σ) (env : Environment) :
    (subject : Operation σ σ).on s env = (.ok s, s, env) := rfl

@[simp] theorem on_environment (s : σ) (env : Environment) :
    (environment : Operation σ Environment).on s env = (.ok env, s, env) := rfl

@[simp] theorem on_change (f : σ → σ) (s : σ) (env : Environment) :
    (change f).on s env = (.ok (), f s, env) := rfl

@[simp] theorem on_changeEnvironment (f : Environment → Environment) (s : σ) (env : Environment) :
    (changeEnvironment f : Operation σ Unit).on s env = (.ok (), s, f env) := rfl

@[simp] theorem on_ofExcept (outcome : Except Error α) (s : σ) (env : Environment) :
    (ofExcept outcome : Operation σ α).on s env = (outcome, s, env) := by
  cases outcome <;> rfl

@[simp] theorem on_attempt (op : Operation σ α) (s : σ) (env : Environment) :
    (attempt op).on s env = (.ok (op.on s env).1, (op.on s env).2) := rfl

@[simp] theorem on_apart (own : τ) (op : Operation τ α) (s : σ) (env : Environment) :
    (apart own op : Operation σ _).on s env =
      (.ok ((op.on own env).1, (op.on own env).2.1), s, (op.on own env).2.2) := rfl

@[simp] theorem on_notify (notice : Notice) (s : σ) (env : Environment) :
    (notify notice : Operation σ Unit).on s env =
      (.ok (), s, { env with notices := env.notices ++ [notice] }) := rfl

@[simp] theorem on_act (socket : Option Nat) (a : Network.Act) (s : σ) (env : Environment) :
    (act socket a : Operation σ Unit).on s env =
      (.ok (), s, { env with acts := env.acts ++ [⟨env.clock, socket, a⟩] }) := rfl

@[simp] theorem on_elapse (seconds : Rat) (s : σ) (env : Environment) :
    (elapse seconds : Operation σ Unit).on s env =
      (.ok (), s, { env with clock := env.clock + seconds }) := rfl

@[simp] theorem on_newSocket (peer : Network.Peer) (s : σ) (env : Environment) :
    (newSocket peer : Operation σ _).on s env =
      (.ok ⟨env.sockets, peer⟩, s, { env with sockets := env.sockets + 1 }) := rfl

end Operation

end Stomp
