import PolyrepoTemplate.Async.Coroutine
import PolyrepoTemplate.Text.Utf8

namespace Asgi

open Async

/-- Name and value, the bytes given by their Latin-1 text. -/
abbrev Header := String × String

def lower (s : String) : String := String.ofList (s.toList.map Char.toLower)

structure HttpScope where
  path : String
  headers : List Header
  deriving DecidableEq, Repr

inductive Scope where
  | http (request : HttpScope)
  | other (type : String)
  deriving DecidableEq, Repr

inductive Message where
  | responseStart (status : ℕ) (headers : List Header)
  | other (type body : String)
  deriving DecidableEq, Repr

def Message.startsResponse : Message → Bool
  | .responseStart .. => true
  | .other .. => false

def Message.mapHeaders (f : List Header → List Header) : Message → Message
  | .responseStart status headers => .responseStart status (f headers)
  | .other type body => .other type body

/-- An exception by what a traceback prints of it: its own text, and those of its causes,
contexts, notes and group members. -/
structure Exn where
  text : Text.PyStr
  chained : List Text.PyStr
  deriving DecidableEq, Repr

instance : Coe Text.PyStr Exn := ⟨fun text => ⟨text, []⟩⟩

/-- What is raised, by whether `except Exception` catches it. -/
inductive Raised where
  | exception (exc : Exn)
  | baseException (exc : Exn)
  deriving DecidableEq, Repr

def Raised.exc : Raised → Exn
  | .exception exc => exc
  | .baseException exc => exc

def Raised.text (e : Raised) : Text.PyStr := e.exc.text

def Raised.traceback (e : Raised) : Text.PyStr := e.exc.chained.foldr (· ++ ·) e.text

/-- An exception raised while another is handled has it as its context. -/
def Exn.during (text : Text.PyStr) (handled : Option Raised) : Exn :=
  ⟨text, (handled.map fun e => e.exc.chained ++ [e.text]).getD []⟩

inductive Op where
  | send (message : Message)
  | receive
  | uuid4
  | getState (key : String)
  | setState (key value : String)
  | bindContextvar (key value : String)
  | restoreContextvar (key : String) (saved : Option String)
  deriving DecidableEq, Repr

abbrev Op.Res : Op → Type
  | .send _ => Unit
  | .receive => Message
  | .uuid4 => String
  | .getState _ => Option String
  | .setState .. => Unit
  | .bindContextvar .. => Option String
  | .restoreContextvar .. => Unit

abbrev AsgiM (M : Type) := Coro Op Op.Res M Raised

abbrev App (M : Type) := Scope → AsgiM M Unit

variable {M α : Type}

def perform (op : Op) : AsgiM M op.Res := Coro.call op

/-- Run with another `send`, one that changes each message and passes it on. -/
def wrapSend (f : Message → Message) : AsgiM M α → AsgiM M α
  | .pure a => .pure a
  | .throw e => .throw e
  | .emit m c => .emit m (wrapSend f c)
  | .await (.send message) k => .await (.send (f message)) fun r => wrapSend f (k r)
  | .await op k => .await op fun r => wrapSend f (k r)

/-- `with bound_contextvars(key=value)`, the block giving back the value it found. -/
def boundContextvars (key value : String) (body : AsgiM M Unit) : AsgiM M Unit := do
  let saved ← perform (.bindContextvar key value)
  body.tryFinally (perform (.restoreContextvar key saved))

/-- How the server answers the calls of one request, and the UUIDs drawn. -/
structure Server where
  send : ℕ → Except Raised Unit
  receive : ℕ → Except Raised Message
  uuid4 : ℕ → String

structure Exchange (M : Type) where
  sent : List Message
  received : ℕ
  uuids : ℕ
  state : String → Option String
  context : String → Option String
  log : List M

def Server.handler (server : Server) : Handler Op Op.Res M Raised (Exchange M) where
  exec
    | .send message, x => (server.send x.sent.length, { x with sent := x.sent ++ [message] })
    | .receive, x => (server.receive x.received, { x with received := x.received + 1 })
    | .uuid4, x => (.ok (server.uuid4 x.uuids), { x with uuids := x.uuids + 1 })
    | .getState key, x => (.ok (x.state key), x)
    | .setState key value, x => (.ok (),
        { x with state := Function.update x.state key (some value) })
    | .bindContextvar key value, x => (.ok (x.context key),
        { x with context := Function.update x.context key (some value) })
    | .restoreContextvar key saved, x => (.ok (),
        { x with context := Function.update x.context key saved })
  log m x := { x with log := x.log ++ [m] }

def Exchange.start (state context : String → Option String) : Exchange M :=
  ⟨[], 0, 0, state, context, []⟩

def Exchange.mapSent (f : Message → Message) (x : Exchange M) : Exchange M :=
  { x with sent := x.sent.map f }

theorem Message.mapHeaders_comp (f g : List Header → List Header) :
    Message.mapHeaders f ∘ Message.mapHeaders g = Message.mapHeaders (f ∘ g) := by
  funext message
  cases message <;> rfl

theorem Message.mapHeaders_eq_responseStart {f : List Header → List Header} {message : Message}
    {status : ℕ} {headers : List Header} :
    message.mapHeaders f = .responseStart status headers ↔
      ∃ before, message = .responseStart status before ∧ headers = f before := by
  cases message with
  | responseStart status' before =>
    simp only [mapHeaders, responseStart.injEq]
    constructor
    · rintro ⟨rfl, rfl⟩
      exact ⟨before, ⟨rfl, rfl⟩, rfl⟩
    · rintro ⟨_, ⟨rfl, rfl⟩, rfl⟩
      exact ⟨rfl, rfl⟩
  | other type body => simp [mapHeaders]

@[simp] theorem Message.startsResponse_mapHeaders (f : List Header → List Header)
    (message : Message) : (message.mapHeaders f).startsResponse = message.startsResponse := by
  cases message <;> rfl

theorem Exchange.mapSent_mapSent (f g : Message → Message) (x : Exchange M) :
    (x.mapSent f).mapSent g = x.mapSent (g ∘ f) := by
  simp [Exchange.mapSent]

theorem Exchange.mapSent_of_fresh (f : Message → Message) {x : Exchange M} (hx : x.sent = []) :
    x.mapSent f = x := by
  rw [mapSent, hx, List.map_nil, ← hx]

variable (server : Server) {op : Op}

theorem Op.send_or (op : Op) : (∃ message, op = .send message) ∨ ∀ message, op ≠ .send message := by
  cases op with
  | send message => exact .inl ⟨message, rfl⟩
  | _ => exact .inr nofun

theorem wrapSend_await (f : Message → Message) {k : Except Raised op.Res → AsgiM M α}
    (hop : ∀ message, op ≠ .send message) :
    wrapSend f (.await op k) = .await op fun r => wrapSend f (k r) := by
  cases op with
  | send message => exact absurd rfl (hop message)
  | _ => rfl

theorem exec_mapSent (f : Message → Message) (hop : ∀ message, op ≠ .send message)
    (x : Exchange M) : server.handler.exec op (x.mapSent f) =
      ((server.handler.exec op x).1, (server.handler.exec op x).2.mapSent f) := by
  cases op with
  | send message => exact absurd rfl (hop message)
  | _ => rfl

theorem run_wrapSend (f : Message → Message) (c : AsgiM M α) (x : Exchange M) :
    (wrapSend f c).run server.handler (x.mapSent f) =
      ((c.run server.handler x).1, (c.run server.handler x).2.mapSent f) := by
  induction c generalizing x with
  | pure a => rfl
  | throw e => rfl
  | emit m c ih => exact ih (server.handler.log m x)
  | await op k ih =>
    obtain ⟨message, rfl⟩ | hop := op.send_or
    · have hexec : server.handler.exec (.send (f message)) (x.mapSent f) =
          ((server.handler.exec (.send message) x).1,
            (server.handler.exec (.send message) x).2.mapSent f) := by
        simp [Server.handler, Exchange.mapSent]
      rw [wrapSend, Coro.run, hexec]
      exact ih _ _
    · rw [wrapSend_await f hop, Coro.run, exec_mapSent server f hop]
      exact ih _ _

theorem run_wrapSend_of_fresh (f : Message → Message) (c : AsgiM M α) {x : Exchange M}
    (hx : x.sent = []) : (wrapSend f c).run server.handler x =
      ((c.run server.handler x).1, (c.run server.handler x).2.mapSent f) := by
  have hrun := run_wrapSend server f c x
  rwa [Exchange.mapSent_of_fresh f hx] at hrun

theorem exec_sent (op : Op) (x : Exchange M) :
    x.sent <+: (server.handler.exec op x).2.sent := by
  cases op with
  | send message => exact List.prefix_append _ _
  | _ => exact List.prefix_rfl

theorem sent_prefix (c : AsgiM M α) (x : Exchange M) :
    x.sent <+: (c.run server.handler x).2.sent := by
  induction c generalizing x with
  | pure a => exact List.prefix_rfl
  | throw e => exact List.prefix_rfl
  | emit m c ih => exact ih (server.handler.log m x)
  | await op k ih => exact (exec_sent server op x).trans (ih _ _)

theorem run_perform (op : Op) (x : Exchange M) :
    (perform op : AsgiM M op.Res).run server.handler x = server.handler.exec op x :=
  Coro.run_call ..

theorem run_boundContextvars (key value : String) (body : AsgiM M Unit) (x : Exchange M) :
    (boundContextvars key value body).run server.handler x =
      let out := body.run server.handler
        { x with context := Function.update x.context key (some value) }
      (out.1, { out.2 with context := Function.update out.2.context key (x.context key) }) := by
  have hbind : server.handler.exec (.bindContextvar key value) x =
      (.ok (x.context key), { x with context := Function.update x.context key (some value) }) := rfl
  rw [boundContextvars, Coro.bind_eq, Coro.run_bind, run_perform, hbind]
  simp only [Coro.run_tryFinally]
  rfl

end Asgi
