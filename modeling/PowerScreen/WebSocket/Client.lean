import PowerScreen.Library.Run
import PowerScreen.Library.Json

/-! # The JSON-RPC client

Every request takes the next value of a 64-bit counter as its id; handlers of
replies wait in two tables keyed by the id narrowed to 32 bits. Handlers run
inside the delivery of a message and may send requests themselves.
-/
namespace PowerScreen.WebSocket
open Library

variable {H : Type*}

/-- The five overloads of `send_jsonrpc`. -/
inductive Call (H : Type*) where
  | paramsCb (method : String) (params : Json) (cb : H)
  | cb (method : String) (cb : H)
  | consumer (method : String) (params : Json) (consumer : H)
  | params (method : String) (params : Json)
  | plain (method : String)

inductive Table where
  | callbacks
  | consumers
deriving DecidableEq

namespace Call

def method : Call H → String
  | paramsCb m _ _ | cb m _ | consumer m _ _ | params m _ | plain m => m

def params? : Call H → Option Json
  | paramsCb _ ps _ | consumer _ ps _ | params _ ps => some ps
  | cb _ _ | plain _ => none

/-- What the overload registers, and where. -/
def registers : Call H → Option (Table × H)
  | paramsCb _ _ h | cb _ h => some (.callbacks, h)
  | consumer _ _ h => some (.consumers, h)
  | params _ _ | plain _ => none

end Call

def gcodeScript (gcode : String) : Call H :=
  .params "printer.gcode.script" (.obj [("script", .str gcode)])

/-- A waiting handler, with the number of the call that registered it. -/
structure Entry (H : Type*) where
  handler : H
  call : ℕ

/-- A transmitted request, with the number of its call and the handler of that call. -/
structure Request (H : Type*) where
  call : ℕ
  id : ℕ
  method : String
  params : Option Json
  handler : Option H

def Request.rpc (r : Request H) : Json :=
  .obj ([("id", .num (.int r.id)), ("jsonrpc", .str "2.0"), ("method", .str r.method)] ++
    r.params.elim [] fun ps => [("params", ps)])

structure Invocation (H : Type*) where
  call : ℕ
  handler : H
  message : Json

structure Client (H : Type*) where
  id : ℕ := 0
  pending : Table → ℕ → Option (Entry H) := fun _ _ => none
  notifyConsumers : List H := []
  methodRespCbs : List (String × List (String × H)) := []
  /-- Cleared by an exception, which ends the program. -/
  running : Bool := true
  calls : ℕ := 0
  sent : List (Request H) := []
  invoked : List (Invocation H) := []

/-- What a message makes run besides the handlers waiting for a reply. -/
inductive Callee (H : Type*) where
  | handler (h : H)
  | connected
  | disconnected

/-- The calls a routine makes when it is run in a given state of the client. -/
abbrev Reaction (H : Type*) := Client H → Callee H → List (Call H)

/-- The key of the tables is 32 bits wide. -/
def key (id : ℕ) : ℕ := id % 2 ^ 32

/-- The id of a message as a key; `overflow` is what the conversion of a number
outside of its range yields, and `none` an exception. -/
def narrow (overflow : ℚ → ℕ) : Json → Option ℕ
  | .num (.int z) => some (z % 2 ^ 32).toNat
  | .num (.float q) =>
    some (if -1 < q ∧ q < 2 ^ 32 then q.floor.toNat else overflow q % 2 ^ 32)
  | .bool b => some (if b then 1 else 0)
  | _ => none

namespace Client

def put (c : Client H) (t : Table) (k : ℕ) (e : Option (Entry H)) : Client H :=
  { c with pending := Function.update c.pending t (Function.update (c.pending t) k e) }

def transmit (c : Client H) (call : Call H) : Client H :=
  { c with id := (c.id + 1) % 2 ^ 64
           sent := c.sent ++
            [⟨c.calls, c.id, call.method, call.params?, call.registers.map Prod.snd⟩] }

/-- An overload with a handler sends nothing when its key is taken. -/
def sendJsonrpc (c : Client H) (call : Call H) : Client H :=
  let d := match call.registers with
    | none => c.transmit call
    | some (t, h) =>
      if (c.pending t (key c.id)).isNone then
        (c.put t (key c.id) (some ⟨h, c.calls⟩)).transmit call
      else c
  { d with calls := c.calls + 1 }

def invoke (react : Reaction H) (c : Client H) (f : Callee H) : Client H :=
  (react c f).foldl sendJsonrpc c

def log (c : Client H) (e : Entry H) (j : Json) : Client H :=
  { c with invoked := c.invoked ++ [⟨e.call, e.handler, j⟩] }

/-- The handler waiting under a key is run first and erased afterwards. -/
def reply (react : Reaction H) (c : Client H) (t : Table) (k : ℕ) (j : Json) : Client H :=
  match c.pending t k with
  | none => c
  | some e => ((c.log e j).invoke react (.handler e.handler)).put t k none

def dispatch (react : Reaction H) (c : Client H) (method : String) : Client H :=
  let d :=
    if method = "notify_status_update" then
      c.notifyConsumers.foldl (fun c h => c.invoke react (.handler h)) c
    else if method = "notify_klippy_disconnected" then c.invoke react .disconnected
    else if method = "notify_klippy_ready" then c.invoke react .connected
    else c
  ((d.methodRespCbs.lookup method).getD []).foldl (fun c h => c.invoke react (.handler h.2)) d

def replies (overflow : ℚ → ℕ) (react : Reaction H) (c : Client H) (j : Json) : Client H :=
  if j.contains "id" then
    match narrow overflow (j.get "id") with
    | none => { c with running := false }
    | some k => (c.reply react .consumers k j).reply react .callbacks k j
  else c

def methods (react : Reaction H) (c : Client H) (j : Json) : Client H :=
  if c.running && j.contains "method" then
    match (j.get "method").str? with
    | none => { c with running := false }
    | some m => c.dispatch react m
  else c

/-- `onmessage` -/
def receive (overflow : ℚ → ℕ) (react : Reaction H) (c : Client H) (j : Json) : Client H :=
  (c.replies overflow react j).methods react j

def registerNotifyUpdate [DecidableEq H] (c : Client H) (h : H) : Client H :=
  if h ∈ c.notifyConsumers then c else { c with notifyConsumers := c.notifyConsumers ++ [h] }

/-- A handler name that is taken keeps its handler. -/
def registerMethodCallback (c : Client H) (method name : String) (h : H) : Client H :=
  let hs := (c.methodRespCbs.lookup method).getD []
  if (hs.lookup name).isSome then c
  else { c with methodRespCbs := Assoc.insert method (Assoc.insert name h hs) c.methodRespCbs }

end Client

inductive Event (H : Type*) where
  | call (call : Call H)
  | message (j : Json) (react : Reaction H)
  | registerNotify (h : H)
  | registerMethod (method name : String) (h : H)

def Client.step [DecidableEq H] (overflow : ℚ → ℕ) (c : Client H) (e : Event H) : Client H :=
  if c.running then
    match e with
    | .call call => c.sendJsonrpc call
    | .message j react => c.receive overflow react j
    | .registerNotify h => c.registerNotifyUpdate h
    | .registerMethod m name h => c.registerMethodCallback m name h
  else c

end PowerScreen.WebSocket
