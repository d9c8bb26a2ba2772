import A2AGateway.World

/-!
# JWT at the peer boundary (`auth.rs`)

| here | there |
| --- | --- |
| `PeerClaims`, `.new`, `.isExpired`   | `auth.rs:18-41` |
| `JwtAuth`                            | `auth.rs:46-59` |
| `issue`, `validate`, `validateFor`   | `auth.rs:62-92` |

`encode` and `decode` stand for the `jsonwebtoken` crate under the gateway's secret: `decode`
checks signature, algorithm and expiry against the clock it is given.
-/

namespace A2AGateway

structure PeerClaims where
  iss : String
  /-- The target gateway, or `*`. -/
  sub : String
  exp : Nat
  iat : Nat
  scope : String
deriving DecidableEq, Repr

/-- `TOKEN_TTL_SECS`. -/
def tokenTtlSecs : Nat := 3600

def PeerClaims.new (issuer subject scope : String) (now : F64) : PeerClaims where
  iss := issuer
  sub := subject
  exp := now.asU64 + tokenTtlSecs
  iat := now.asU64
  scope := scope

def PeerClaims.isExpired (c : PeerClaims) (now : F64) : Bool := c.exp < now.asU64

structure JwtAuth where
  issuer : String
  encode : PeerClaims → Option String
  decode : F64 → String → Option PeerClaims

namespace JwtAuth

/-- "Issue a short-lived token for an outbound peer call." -/
def issue (auth : JwtAuth) (targetGateway scope : String) (now : F64) : Except Err String :=
  match auth.encode (.new auth.issuer targetGateway scope now) with
  | some token => .ok token
  | none => .error (.msg "issue JWT")

def validate (auth : JwtAuth) (token : String) (now : F64) : Except Err PeerClaims :=
  match auth.decode now token with
  | none => .error (.msg "invalid JWT")
  | some claims => if claims.isExpired now then .error (.msg "token expired") else .ok claims

/-- "Validate and check that subject matches the expected target (us)." -/
def validateFor (auth : JwtAuth) (token expectedSub : String) (now : F64) : Except Err PeerClaims := do
  let claims ← auth.validate token now
  if claims.sub ≠ "*" ∧ claims.sub ≠ expectedSub then
    .error (.msg s!"token not issued for this gateway (sub={claims.sub}, expected={expectedSub})")
  else
    return claims

end JwtAuth

end A2AGateway
