import ScriptEngine.Host.Json
import ScriptEngine.Host.Object
import ScriptEngine.Json.Reader
import ScriptEngine.Text.Search
import ScriptEngine.Tree.Operator

/-!
# Bindings

The names under which the host lends values, classes and remote calls to scripts.

* `RemoteSpec`: what a remote call is bound to.
* `RemoteRequest`: a remote call as it leaves the engine.
* `Brokerage` and `HttpAgent`: what answers them. Both are the host's, and may answer as they like, by
  all requests that were made before.
* `Bindings`: names and what they are bound to.
-/

namespace ScriptEngine

/-- The verbs of remote calls by URL. -/
inductive HttpMethod
  | get | post | put | delete
deriving Repr, DecidableEq, Inhabited

namespace HttpMethod

/-- The spelling of a verb. -/
def text : HttpMethod → String
  | .get => "GET"
  | .post => "POST"
  | .put => "PUT"
  | .delete => "DELETE"

/-- The verb with this spelling, in capitals or small letters. -/
def ofText? (text : String) : Option HttpMethod :=
  match String.ofList (text.toList.map Char.toUpper) with
  | "GET" => some .get
  | "POST" => some .post
  | "PUT" => some .put
  | "DELETE" => some .delete
  | _ => none

/-- How many arguments a call takes: a body, unless it only fetches. -/
def arity : HttpMethod → Nat
  | .get => 0
  | _ => 1

end HttpMethod

/-- A call that is answered elsewhere: by the broker of the host under an identifier, or at a URL.
-/
inductive RemoteSpec
  | brokered (target : String) (arity : Nat)
  | http (url : String) (method : HttpMethod)
deriving Repr, DecidableEq, Inhabited

/-- How many arguments a remote call takes. -/
def RemoteSpec.arity : RemoteSpec → Nat
  | .brokered _ arity => arity
  | .http _ method => method.arity

/-! ## Requests -/

/-- A call of a URL. -/
structure HttpRequest where
  url : String
  method : HttpMethod
  body : Option Json
  /-- In milliseconds. -/
  timeout : Nat
deriving Repr, Inhabited

/-- What comes back from a URL. The body may break off before its end. -/
structure HttpResponse where
  contentType : String
  body : Except String String

/-- A remote call with all that is sent. -/
inductive RemoteRequest
  | brokered (target : String) (args : List HostValue)
  | http (request : HttpRequest)
deriving Repr, Inhabited

/-- Answers remote calls by identifier. -/
abbrev Broker := String → List HostValue → Except HostError HostValue

/-- A broker that may answer in another way when it is asked again: how it answers when the requests in
the list have been made before, the latest first. -/
abbrev Brokerage := List RemoteRequest → Broker

/-- A broker that always answers in the same way. -/
instance : Coe Broker Brokerage := ⟨fun broker _ => broker⟩

/-- Carries calls of URLs out, when the requests in the list have been made before, the latest first:
the response, or why there is none. -/
abbrev HttpAgent := List RemoteRequest → HttpRequest → Except String HttpResponse

/-- Reaches nobody. -/
def HttpAgent.offline : HttpAgent := fun _ _ => .error "Connection Failed"

namespace HttpRequest

/-- The request for a call of a URL with some arguments. The first one is the body, unless the call only
fetches. -/
def make (typeName : HostRef → String) (timeout : Nat) (url : String) (method : HttpMethod)
    (args : List HostValue) : Except HostError HttpRequest := do
  match method, args with
  | .get, _ | _, [] => return ⟨url, method, none, timeout⟩
  | _, body :: _ => return ⟨url, method, some (← body.toJson typeName), timeout⟩

end HttpRequest

/-- The value of a response: that of the document in it if it says to be one, or else its text. -/
def HttpResponse.value (response : HttpResponse) : Except HostError HostValue :=
  match response.body with
  | .error reason => .error (.failed ("failed to read response body: " ++ reason))
  | .ok text =>
    if (Text.indexOf? "application/json".toList response.contentType.toList).isSome then
      match Json.ofText text with
      | .ok json => .ok (.ofJson json)
      | .error e => .error (.failed ("failed to parse JSON response: " ++ e.message))
    else .ok (.string text)

/-- The value of what comes back for a request, if anything does. -/
def HttpRequest.answer (request : HttpRequest) :
    Except String HttpResponse → Except HostError HostValue
  | .ok response => response.value
  | .error reason =>
    .error (.failed (request.method.text ++ " " ++ request.url ++ " failed: " ++ reason))

/-! ## Names -/

/-- The number of a host class. -/
abbrev ClassRef := Nat

/-- What a name is bound to. -/
inductive Binding
  | object (value : HostValue)
  | hostClass (ref : ClassRef)
  | remote (spec : RemoteSpec)
deriving Repr, Inhabited

/-- Why a name cannot be bound. -/
inductive BindingError
  | classAlias (name : String)
deriving Repr, DecidableEq, Inhabited

/-- The wording of an error. -/
def BindingError.message : BindingError → String
  | .classAlias name => "class alias '" ++ name ++ "' must start with an uppercase letter"

/-- Names bound by the host. -/
structure Bindings where
  entries : OrderedMap Binding
deriving Repr, Inhabited

namespace Bindings

/-- No bindings. -/
def empty : Bindings := ⟨.empty⟩

/-- Binds a name, in the place of what it was bound to. -/
def bind (b : Bindings) (name : String) (binding : Binding) : Bindings :=
  ⟨b.entries.insert name binding⟩

/-- Binds a class to a name, which must begin with a capital. -/
def bindClass (b : Bindings) (name : String) (ref : ClassRef) : Except BindingError Bindings :=
  if isClassName name then .ok (b.bind name (.hostClass ref)) else .error (.classAlias name)

/-- What a name is bound to. -/
def resolve? (b : Bindings) (name : String) : Option Binding :=
  b.entries.get? name

/-- The names that are bound. -/
def names (b : Bindings) : List String := b.entries.keys

/-- The remote calls among the bindings, in the order of their names. -/
def remotes (b : Bindings) : List (String × RemoteSpec) :=
  (b.entries.entries.filterMap fun (name, binding) =>
    match binding with
    | .remote spec => some (name, spec)
    | _ => none).mergeSort fun x y => !(y.1 < x.1)

/-- The bindings of remote calls alone. -/
def ofRemotes (remotes : List (String × RemoteSpec)) : Bindings :=
  remotes.foldl (fun b (name, spec) => b.bind name (.remote spec)) empty

end Bindings

end ScriptEngine
