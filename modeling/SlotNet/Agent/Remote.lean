import SlotNet.Agent
import SlotNet.Decimal.Notation
import SlotNet.Json.Printer
import SlotNet.Json.Reader

/-!
# The remote agent

A learner that is asked over HTTP. It is sent the shapes, each step and the final step as JSON, and
answers a step with an action.
-/

namespace SlotNet

structure Request where
  url : String
  body : String
  deriving DecidableEq, Repr

structure Response where
  status : Nat
  body : String
  deriving DecidableEq, Repr

/-- A way to post requests, with a state. Where a request gets no answer there is none. -/
structure Transport (τ : Type) where
  post : Request → τ → τ × Option Response

namespace Remote

def contentType : String := "application/json"

/-! ## Requests -/

def double (x : Float) : Json := ((Decimal.writeDouble? x).map Json.number).getD .null

def single (x : Float32) : Json := ((Decimal.writeSingle? x).map Json.number).getD .null

def box (b : Box) : Json :=
  .object [("low", .ofInt b.low), ("high", .ofInt b.high), ("shape", .array (b.shape.map .ofNat))]

def spaces (s : Spaces) : Json :=
  .object [("action", box s.action),
    ("observation", .object [("usage", box s.usage), ("top_k_bytes", box s.topKBytes)])]

def step (s : Step) : Json :=
  .object [
    ("observation", .object [
      ("usage", .array (s.observation.usage.map .ofInt)),
      ("queued_bytes", .ofNat s.observation.queuedBytes),
      ("top_k_bytes", .array (s.observation.topKBytes.map .ofNat))]),
    ("reward", single s.reward),
    ("done", .bool s.done),
    ("info", .object [
      ("node", .ofNat s.node),
      ("time_ns", .ofNat s.timeNs),
      ("rewards", .array (s.rewards.map single)),
      ("throughput_bps", double s.throughputBps),
      ("average_delay_ms", double s.averageDelayMs)])]

/-- The address of a learner without slashes at its end. -/
def trimmed (url : String) : String :=
  String.ofList (url.toList.reverse.dropWhile (· == '/')).reverse

/-- The URL for a purpose. -/
def endpoint (url purpose : String) : String := trimmed url ++ "/" ++ purpose

/-! ## Responses -/

/-- The content of a response. Some statuses have none. -/
def content (r : Response) : String :=
  if r.status < 200 ∨ r.status = 204 ∨ r.status = 304 then "" else r.body

/-- The content as text, without a byte order mark. -/
def text (r : Response) : String :=
  match (content r).toList with
  | '\ufeff' :: rest => String.ofList rest
  | cs => String.ofList cs

/-- A response of success, or the error that it tells. Statuses have three digits, and those below 200
are no answer yet, except for 101. -/
def accepted (r : Response) : Except AgentError Response :=
  if r.status < 101 ∨ 1000 ≤ r.status ∨ (101 < r.status ∧ r.status < 200) then .error .network
  else if 200 ≤ r.status ∧ r.status < 300 then .ok r
  else if 400 ≤ r.status ∧ r.status < 500 then .error (.rejected r.status (text r))
  else .error (.failed r.status (text r))

def entry? (j : Json) : Option Int :=
  j.int?.bind fun n => if -2147483648 ≤ n ∧ n < 2147483648 then some n else none

/-- The action in a JSON value: the one member `action` of an object, or the one member of an array. -/
def actionIn? : Json → Option Action
  | .object members =>
    match members.filter (·.1 == "action") with
    | [(_, .array items)] => items.mapM entry?
    | _ => none
  | .array [.array items] => items.mapM entry?
  | _ => none

def action? (r : Response) : Except AgentError Action :=
  match (Json.parse? (content r)).bind actionIn? with
  | some action => .ok action
  | none => .error .invalidAction

/-! ## The agent -/

variable {τ : Type}

/-- Posts a value for a purpose. -/
def post (t : Transport τ) (url purpose : String) (body : Json) (state : τ) :
    τ × Except AgentError Response :=
  match t.post ⟨endpoint url purpose, body.compact⟩ state with
  | (state, some response) => (state, accepted response)
  | (state, none) => (state, .error .network)

def agent (t : Transport τ) (url : String) : Agent τ where
  begin shapes state :=
    let (state, answer) := post t url "reset" (spaces shapes) state
    .ok (state, answer.map fun _ => ())
  act s state :=
    let (state, answer) := post t url "step" (step s) state
    .ok (state, answer.bind action?)
  finish s state :=
    let (state, answer) := post t url "finish" (step s) state
    .ok (state, answer.map fun _ => ())

/-- A transport on which nothing gets an answer. -/
def unreachable : Transport Unit where
  post _ state := (state, none)

end Remote

end SlotNet
