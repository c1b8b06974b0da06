import NodeTelemetry.ControlPlane
import NodeTelemetry.Http.Target
import NodeTelemetry.Text.Percent

/-!
The attributes of a control plane over HTTP: `/` lists them, `/NAME` reads or writes one, and
`/vars` shows the agent's own metrics.
-/

namespace NodeTelemetry.Http

inductive Method
  | get
  | head
  | put
  | post
  | other (name : String)
  deriving DecidableEq, Repr

def inMethod (c : Char) : Bool := Target.isAlphanumeric c || "!#$%&'*+-.^_`|~".contains c

def Method.ofName? (name : String) : Option Method :=
  match name with
  | "GET" => some .get
  | "HEAD" => some .head
  | "PUT" => some .put
  | "POST" => some .post
  | _ => if !name.isEmpty && name.toList.all inMethod then some (.other name) else none

structure Request where
  method : Method
  path : List Char
  body : List UInt8 := []
  deriving DecidableEq, Repr

def Request.ofTexts? (method target : String) (body : List UInt8) : Option Request := do
  let method ← Method.ofName? method
  let path ← Target.parse? target.toList
  pure { method, path, body }

structure Response where
  status : Nat
  body : Option String
  deriving DecidableEq, Repr

namespace Response

def ok (body : String) : Response := ⟨200, some body⟩
def malformed : Response := ⟨400, none⟩
def notFound : Response := ⟨404, some ""⟩
def notAllowed : Response := ⟨405, some ""⟩
def tooLarge : Response :=
  ⟨413, some "Failed to buffer the request body: length limit exceeded"⟩
def brokenDown : Response := ⟨500, some ""⟩

def ofError (e : SurfaceError) : Response :=
  match e with
  | .unknown _ => ⟨404, some (e.message ++ "\n")⟩
  | .readOnly _ => ⟨405, some (e.message ++ "\n")⟩

def headOnly (r : Response) : Response := { r with body := r.body.map fun _ => "" }

end Response

inductive Route
  | index
  | metrics
  | named (segment : List Char)
  deriving DecidableEq, Repr

def Route.ofPath? : List Char → Option Route
  | '/' :: segment =>
    if segment.isEmpty then some .index
    else if segment = "vars".toList then some .metrics
    else if '/' ∈ segment then none
    else some (.named segment)
  | _ => none

def segmentName? (segment : List Char) : Option String :=
  Text.ofBytes? (Text.Percent.decode (Text.bytes (String.ofList segment)))

inductive Call
  | index
  | metrics
  | read (name : String)
  | write (name input : String)
  deriving DecidableEq, Repr

/-- What a web framework makes of a request: an answer of its own, or a call, of whose answer it may
cut off all but the head. -/
inductive Dispatch
  | answered (response : Response)
  | called (call : Call) (headOnly : Bool)
  deriving DecidableEq, Repr

abbrev Framework := Request → Dispatch

namespace Framework

def readCall (headOnly : Bool) : Route → Dispatch
  | .index => .called .index headOnly
  | .metrics => .called .metrics headOnly
  | .named segment =>
    match segmentName? segment with
    | none => .answered .malformed
    | some name => .called (.read name) headOnly

/-- Only an attribute can be written. Its name is looked at first, then the length of the body, and
then whether the body is a text. -/
def writeCall (limit : Option Nat) (body : List UInt8) : Route → Dispatch
  | .named segment =>
    match segmentName? segment with
    | none => .answered .malformed
    | some name =>
      if limit.any (· < body.length) then .answered .tooLarge
      else
        match Text.ofBytes? body with
        | none => .answered .malformed
        | some input => .called (.write name input) false
  | _ => .answered .notAllowed

def standard (limit : Option Nat) : Framework := fun r =>
  match Route.ofPath? r.path with
  | none => .answered .notFound
  | some route =>
    match r.method with
    | .get => readCall false route
    | .head => readCall true route
    | .put | .post => writeCall limit r.body route
    | .other _ => .answered .notAllowed

def defaultLimit : Nat := 2 * 1024 * 1024

end Framework

def metricsText (m : Metrics) : String :=
  "\x7b" ++ ",".intercalate (m.entries.map fun (name, n) => "\"" ++ name ++ "\":" ++ toString n) ++
    "\x7d"

def handle (m : Arithmetic) : Call → ControlPlane → StateM Site (Response × ControlPlane)
  | .index, p => pure (.ok ("\n".intercalate p.attributes ++ "\n"), p)
  | .metrics, p => do pure (.ok (metricsText (← get).metrics), p)
  | .read name, p =>
    match p.read? m name with
    | (none, p) => pure (.brokenDown, p)
    | (some (.ok text), p) => pure (.ok text, p)
    | (some (.error e), p) => pure (.ofError e, p)
  | .write name input, p => do
    match ← p.write name input with
    | (.ok count, p) => pure (.ok (toString count ++ "\n"), p)
    | (.error e, p) => pure (.ofError e, p)

def answer (fw : Framework) (m : Arithmetic) (r : Request) (p : ControlPlane) :
    StateM Site (Response × ControlPlane) :=
  match fw r with
  | .answered response => pure (response, p)
  | .called call headOnly => do
    let (response, p) ← handle m call p
    pure (if headOnly then response.headOnly else response, p)

end NodeTelemetry.Http
