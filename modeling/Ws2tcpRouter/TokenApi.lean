import Ws2tcpRouter.Auth

/-!
# The token endpoints

`token_api.rs`: what a plain request under `/auth/` is answered, and what it
does to the token store. The bytes drawn from the system generator are
arguments, as they are of the service.
-/

namespace Ws2tcpRouter

open Token (TokenError IssuedTokens tokenBytes)

inductive Endpoint
  | login
  | refresh
  | revoke
  deriving DecidableEq, Repr

/-- What a request may draw from the system generator. -/
structure Draws where
  family : Option UInt64
  token : Option (Block tokenBytes)

def contentType : Str := "content-type".toList

def textResponse (status : Nat) (message : Str) : Response :=
  (Response.mk status [] (some message)).insert contentType "text/plain; charset=utf-8".toList

def noStore (response : Response) : Response :=
  (response.insert "cache-control".toList "no-store".toList).insert "pragma".toList
    "no-cache".toList

def tokensBody (issued : IssuedTokens) : Str :=
  "\x7b\"token_type\":\"Bearer\",\"access_token\":\"".toList ++ issued.accessToken ++
    "\",\"expires_in\":".toList ++ (Nat.repr issued.accessExpiresIn).toList ++
    ",\"refresh_token\":\"".toList ++ issued.refreshToken ++
    "\",\"refresh_expires_in\":".toList ++ (Nat.repr issued.refreshExpiresIn).toList ++
    "\x7d".toList

def tokensResponse (issued : IssuedTokens) : Response :=
  noStore ((Response.new (some (tokensBody issued))).insert contentType "application/json".toList)

def tokenErrorResponse (e : TokenError) : Response :=
  match e with
  | .full => textResponse 503 "too many active logins".toList
  | _ => textResponse 500 "failed to issue tokens".toList

def endpointOf (path : Str) : Option Endpoint :=
  if path = "/auth/token".toList then some .login
  else if path = "/auth/refresh".toList then some .refresh
  else if path = "/auth/revoke".toList then some .revoke
  else none

def declaresBody (request : Request) : Bool :=
  request.containsKey "transfer-encoding".toList ||
    (request.get "content-length".toList).any fun length => length != Text.utf8 "0".toList

def handleAuthRequest (p : Platform) (auth : Option AuthConfig) (s : Token.State) (now : Instant)
    (draws : Draws) (request : Request) : Token.State × Response :=
  match auth.bind fun auth => auth.tokens.map fun tokens => (auth, tokens) with
  | none => (s, textResponse 404 "not found".toList)
  | some (auth, tokens) =>
    match endpointOf request.path with
    | none => (s, textResponse 404 "not found".toList)
    | some endpoint =>
      if request.method ≠ "POST".toList then
        (s, (textResponse 405 "use POST".toList).insert "allow".toList "POST".toList)
      else if declaresBody request then
        (s, textResponse 400 "request must not have a body".toList)
      else
        let authorization := request.getStr authorization
        match endpoint with
        | .login =>
          match authorization.bind (auth.basicUser p) with
          | none => (s, unauthorizedResponse true none)
          | some user =>
            match tokens.login p s now user draws.family draws.token with
            | (s, .ok issued) => (s, tokensResponse issued)
            | (s, .error e) => (s, tokenErrorResponse e)
        | .refresh =>
          match authorization.bind bearerToken with
          | none => (s, unauthorizedResponse false (some bearerChallenge))
          | some token =>
            match tokens.refresh p s now token (auth.hasUser p) draws.token with
            | (s, .ok (_, issued)) => (s, tokensResponse issued)
            | (s, .error .invalid) => (s, unauthorizedResponse false (some bearerInvalidChallenge))
            | (s, .error (.reused _)) =>
              (s, unauthorizedResponse false (some bearerInvalidChallenge))
            | (s, .error e) => (s, tokenErrorResponse e)
        | .revoke =>
          match authorization.bind bearerToken with
          | none => (s, unauthorizedResponse false (some bearerChallenge))
          | some token =>
            -- the answer does not tell whether the token was known
            ((tokens.revoke p s now token).1, noStore (textResponse 204 []))

end Ws2tcpRouter
