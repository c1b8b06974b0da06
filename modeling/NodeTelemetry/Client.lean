import NodeTelemetry.CommandLine
import NodeTelemetry.Http
import NodeTelemetry.Net.SocketAddr
import NodeTelemetry.Text.Quoted

/-! The client: it asks a running agent to read or write one attribute. -/

namespace NodeTelemetry

structure ClientRequest where
  addr : Net.SocketAddr
  attr : String
  value : Option String
  deriving DecidableEq, Repr

inductive CommandFault
  | usage (e : UsageError)
  | badAttribute (name : String)
  deriving DecidableEq, Repr

def badAttributeMessage (name : String) : String := "invalid attribute name: " ++ Text.quoted name

inductive ClientError
  | unreachable (addr : Net.SocketAddr)
  | refused (status : Nat) (body : String)
  deriving DecidableEq, Repr

namespace Client

def defaultAddr : Net.SocketAddr := .v4 .loopback 4241

def grammar : CommandLine.Grammar where
  longNames := [("addr", .valued), ("help", .help)]
  shortNames := [('a', .valued), ('h', .help)]
  isValue := fun v => (Net.SocketAddr.parse? v).isSome
  positionals := [fun _ => true, fun _ => true]

def parse (args : List String) : Except CommandFault ClientRequest :=
  let given := do
    let (s, _) ← CommandLine.scan grammar {} args
    CommandLine.finish grammar s
  match given with
  | .error e => .error (.usage e)
  | .ok given =>
    match given.positionals with
    | [] => .error (.usage .missingArgument)
    | attr :: rest =>
      if attr.isEmpty || attr.toList.contains '/' then .error (.badAttribute attr)
      else
        let addr := (given.value.bind Net.SocketAddr.parse?).getD defaultAddr
        .ok { addr, attr, value := rest.head? }

def isDot (segment : String) : Bool := segment.toLower ∈ [".", "%2e"]

def isDoubleDot (segment : String) : Bool :=
  segment.toLower ∈ ["..", ".%2e", "%2e.", "%2e%2e"]

def resolveDots (done : List String) : List String → List String
  | [] => done.reverse
  | s :: segments =>
    let done := if isDot s then done else if isDoubleDot s then done.tail else s :: done
    if segments.isEmpty && (isDot s || isDoubleDot s) then ("" :: done).reverse
    else resolveDots done segments

def standsInPath (b : UInt8) : Bool :=
  let n := b.toNat
  0x21 ≤ n && n ≤ 0x7E && !"\"#<>?^`\x7b\x7d".toList.any (·.toNat == n)

/-- The path that an address ends with which is made of an agent's address and a name, neither of
which is escaped. Blanks at the end and line breaks do not count, a question mark or a number sign
ends the path, and a backslash is a slash. Percent signs stay as they are. -/
def path (attr : String) : List Char :=
  let atEnd (c : Char) := c.toNat ≤ 0x20
  let cs := (attr.toList.reverse.dropWhile atEnd).reverse
  let cs := cs.filter fun c => c != '\t' && c != '\n' && c != '\r'
  let cs := cs.takeWhile fun c => c != '?' && c != '#'
  let segments := Text.splitOn '/' (cs.map fun c => if c = '\\' then '/' else c)
  let names := resolveDots [] (segments.map String.ofList)
  let encode (name : String) := (Text.Percent.encode standsInPath (Text.bytes name)).map fun b =>
    Char.ofNat b.toNat
  '/' :: List.intercalate ['/'] (names.map encode)

def toHttp (r : ClientRequest) : Http.Request :=
  match r.value with
  | some v => { method := .put, path := path r.attr, body := Text.bytes v }
  | none => { method := .get, path := path r.attr }

def outcome (r : Http.Response) : Except ClientError String :=
  let body := r.body.getD ""
  if r.status = 200 then .ok body else .error (.refused r.status body)

/-- A request and its answer. A value comes from a command line, which is far too short for the limit
of a body to matter. -/
def exchange (r : ClientRequest) (p : ControlPlane) :
    StateM Site (Except ClientError String × ControlPlane) := do
  let (response, p) ← Http.answer (.standard none) .wrapping (toHttp r) p
  pure (outcome response, p)

end Client

namespace ClientError

def reason : Nat → String
  | 400 => "Bad Request"
  | 404 => "Not Found"
  | 405 => "Method Not Allowed"
  | _ => "<unknown status code>"

def message : ClientError → String
  | .unreachable addr => "failed to reach agent at " ++ addr.render
  | .refused status body =>
    toString status ++ " " ++ reason status ++ ": " ++
      String.ofList (Text.trimRight body.toList)

end ClientError

end NodeTelemetry
