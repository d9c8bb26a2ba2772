import A2AGateway.Basic
import A2AGateway.Lib.Prog

/-!
# Answers over HTTP (`reqwest`)

| here | there |
| --- | --- |
| `StatusCode`, `isSuccess` | `http::StatusCode` and its `Display` |
| `HttpResponse`            | a `reqwest::Response`, as far as the gateway reads one |
| `HttpRequest`, `Outbox`   | what the gateway has asked of a server |
| `exchange`                | `.send().await` with the checks that follow it in `lxc.rs` and `context_builder.rs` |
| `exchangeAny`             | `.send().await` where any answer will do (`lxc.rs:205-216`) |
-/

namespace A2AGateway

/-- Three digits, and the phrase that `Display` puts behind them. -/
structure StatusCode where
  code : Nat
  reason : String
  valid : 100 ≤ code ∧ code < 1000
deriving DecidableEq

namespace StatusCode

/-- 2xx. -/
def isSuccess (s : StatusCode) : Bool := 200 ≤ s.code && s.code < 300

def display (s : StatusCode) : String := s!"{s.code} {s.reason}"

def ok : StatusCode := ⟨200, "OK", by decide⟩

def internalServerError : StatusCode := ⟨500, "Internal Server Error", by decide⟩

end StatusCode

/-- The status, and what reading the body gives, as bytes or as text. -/
structure HttpResponse where
  status : StatusCode
  bytes : Except String Bytes
  text : Except String String

namespace HttpResponse

/-- `resp.json::<Value>()`. -/
def json [SerdeJson] (resp : HttpResponse) : Except String Json := resp.bytes.bind SerdeJson.fromSlice

/-- `resp.text().await.unwrap_or_default()`. -/
def textOrEmpty (resp : HttpResponse) : String := resp.text.toOption.getD ""

end HttpResponse

/-! ## Requests -/

/-- A request with its `Authorization` header, if it has one. -/
inductive HttpRequest
  | get (url : String) (authorization : Option String)
  | post (url : String) (authorization : Option String) (json : Option Json)

/-- A state, and the requests sent so far. -/
structure Outbox (σ : Type) where
  state : σ
  requests : List HttpRequest

namespace Outbox

variable {σ : Type}

def inner : Prog.Focus (Outbox σ) σ where
  get o := o.state
  set s o := { o with state := s }
  get_set _ _ := rfl
  set_get _ := rfl
  set_set _ _ _ := rfl

/-- What a request comes to: no answer and an answer other than 2xx are errors, the first with the text of
`.context`, the second with the one made of the status and the body. -/
def received (context : String) (failure : String → String → String) :
    Except String HttpResponse → Except Err HttpResponse
  | .error _ => .error (.msg context)
  | .ok resp =>
    if resp.status.isSuccess then .ok resp else .error (.msg (failure resp.status.display resp.textOrEmpty))

/-- A request; what the server answers may depend on all it has been asked. -/
def exchange (server : List HttpRequest → HttpRequest → Except String HttpResponse) (r : HttpRequest)
    (context : String) (failure : String → String → String) : Prog (Outbox σ) Err HttpResponse :=
  Prog.prim fun o => (received context failure (server o.requests r), { o with requests := o.requests ++ [r] })

/-- A request to which any answer will do. -/
def exchangeAny (server : List HttpRequest → HttpRequest → Except String HttpResponse) (r : HttpRequest)
    (context : String) : Prog (Outbox σ) Err HttpResponse :=
  Prog.prim fun o => ((server o.requests r).mapError fun _ => .msg context, { o with requests := o.requests ++ [r] })

@[simp] theorem exec_exchange (server : List HttpRequest → HttpRequest → Except String HttpResponse) (r : HttpRequest)
    (context : String) (failure : String → String → String) (o : Outbox σ) :
    (exchange server r context failure).exec o =
      (received context failure (server o.requests r), { o with requests := o.requests ++ [r] }) :=
  Prog.exec_prim ..

end Outbox

end A2AGateway
