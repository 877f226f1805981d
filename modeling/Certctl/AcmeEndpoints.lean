import Certctl.AcmeAccounts
import Certctl.AcmeSignedRequests

/-!
# Endpoints of the ACME server

The handlers of signed requests. Each one bounds the body, has the
signature verified, decodes the payload, calls the service, draws a nonce
for the next request and writes the answer. Errors of the verification and
of the service are turned into problem documents. The endpoint that revokes
certificates has the same bytes verified a second time, for an embedded
key, when the first verification finds no account. Decoding of payloads is
given.
-/

namespace Certctl.AcmeEndpoints

open AtomicProgram ControlPlaneStore DomainRecords
open AcmeServerStore AcmeOrders AcmeChallenges AcmeAccounts AcmeSignedRequests

variable {Key ι : Type}

/-- A challenge as clients see it. -/
structure ChallengeResponse where
  /-- How control of the identifier is shown. -/
  type : ChallengeType
  /-- Where the challenge is answered. -/
  url : String
  status : ChallengeStatus
  token : String
  validated : Option Time
  error : Option Problem
deriving DecidableEq

/-- An authorization as clients see it. -/
structure AuthorizationResponse where
  identifier : Identifier
  status : AuthzStatus
  expires : Time
  wildcard : Bool
  challenges : List ChallengeResponse
deriving DecidableEq

/-- An order as clients see it. -/
structure OrderResponse where
  status : OrderStatus
  expires : Time
  identifiers : List Identifier
  authorizations : List String
  finalize : String
  /-- Where its certificate is, empty without one. -/
  certificate : String
  error : Option Problem
deriving DecidableEq

/-- An account as clients see it. -/
structure AccountResponse where
  status : AccountStatus
  contact : List String
  orders : String
deriving DecidableEq

/-- What the body of an answer holds. -/
inductive Content where
  /-- A problem document, with a part for each rejected identifier. -/
  | problem (problem : Problem) (subproblems : List (Problem×Option Identifier))
  | account (account : AccountResponse)
  | order (order : OrderResponse)
  | authorization (authz : AuthorizationResponse)
  | challenge (challenge : ChallengeResponse)
  | chain (pem : String)
  | empty
deriving DecidableEq

/-- An answer of an endpoint. -/
structure Response where
  status : ℕ
  /-- The nonce for the next request, empty if none could be stored. -/
  replayNonce : String := ""
  /-- Where the resource is, empty if not told. -/
  location : String := ""
  content : Content
deriving DecidableEq

/-- The decoded body of an account update. -/
structure AccountUpdate where
  /-- The new status, empty if absent. -/
  status : String
  contact : Option (List String)

/-- All that the endpoints use. -/
structure Endpoints (Key : Type) extends AccountServer Key where
  nonceTTL : Time
  /-- The given functions on signed messages. -/
  jose : Jose Key
  revocation : AcmeRevocation.ACMEService Key
  /-- Contacts and the wish for an existing account, of a registration. -/
  decodeNewAccount : String→Option (List String×Bool)
  decodeAccountUpdate : String→Option AccountUpdate
  decodeNewOrder : String→Option (List Identifier)
  /-- The certificate request of a finalize request. -/
  decodeFinalize : String→Option String
  decodeRevocation : String→Option (String×ℤ)
  parseCertificateRequest : List UInt8→Option CertificateRequest
  encodeRequest : List UInt8→String
  /-- The new key of a rollover, of the payload, the account URL, the request URL and the stored key. -/
  keyChangeInner : String→String→String→Key→Except Problem Key

def acmeErrorFront : String := "urn:ietf:params:acme:error:"

def malformed (detail : String) : Problem := ⟨acmeErrorFront++"malformed",detail,400⟩

def serverInternal (detail : String) : Problem := ⟨acmeErrorFront++"serverInternal",detail,500⟩

def accountDoesNotExist (detail : String) : Problem := ⟨acmeErrorFront++"accountDoesNotExist",detail,400⟩

/-- A request whose nonce cannot be redeemed. -/
def badNonce (detail : String) : Problem := ⟨acmeErrorFront++"badNonce",detail,400⟩

def unauthorized (detail : String) : Problem := ⟨acmeErrorFront++"unauthorized",detail,401⟩

def mapJWSErrorToProblem (err : GoError) : Problem :=
  match err.wraps with
  | some .jwsBadNonce => badNonce "nonce missing, replayed, or expired"
  | some .jwsMissingNonce => badNonce "protected header `nonce` is required"
  | some .jwsURLMismatch => unauthorized "protected header `url` mismatch or missing"
  | some .jwsMissingURL => unauthorized "protected header `url` mismatch or missing"
  | some .jwsAccountNotFound => accountDoesNotExist "kid points at unknown account"
  | some .jwsAccountInactive => unauthorized "account status is not `valid`"
  | some .jwsSignatureInvalid => unauthorized "signature did not verify"
  | some .jwsAlgorithmRejected =>
    malformed "signature algorithm not allowed (RFC 8555 §6.2: RS256, ES256, EdDSA only)"
  | some .jwsExpectJWKGotKid => malformed "this endpoint requires `jwk` (new-account flow); got `kid`"
  | some .jwsExpectKidGotJWK => malformed "this endpoint requires `kid` (registered account); got `jwk`"
  | some .jwsBothKidAndJWK => malformed "protected header MUST contain exactly one of `kid` or `jwk`"
  | some .jwsNeitherKidNorJWK => malformed "protected header MUST contain exactly one of `kid` or `jwk`"
  | some .jwsInvalidJWK => malformed "invalid or unsupported JWK"
  | some .jwsWrongType => malformed "protected header `typ` must be `application/jose+json`"
  | some .jwsPayloadMismatch => serverInternal "JWS payload integrity check failed"
  | some .jwsMalformed => malformed "malformed JWS"
  | _ => malformed "malformed request"

def serviceProblem (err : GoError) : Problem :=
  match err.wraps with
  | some .acmeUserActionRequired =>
    ⟨acmeErrorFront++"userActionRequired","this server requires the per-profile path /acme/profile/<id>/* — "++
      "set CERTCTL_ACME_SERVER_DEFAULT_PROFILE_ID for /acme/* shorthand",403⟩
  | some .acmeProfileNotFound => ⟨acmeErrorFront++"userActionRequired","profile not found",404⟩
  | some .acmeAccountNotFound => accountDoesNotExist "account not found"
  | some .acmeAccountDoesNotExist => accountDoesNotExist
      "no account exists for this JWK; submit a new-account request without onlyReturnExisting"
  | some .acmeOrderNotFound => ⟨acmeErrorFront++"malformed","resource not found",404⟩
  | some .acmeAuthzNotFound => ⟨acmeErrorFront++"malformed","resource not found",404⟩
  | some .acmeCertificateNotFound => ⟨acmeErrorFront++"malformed","resource not found",404⟩
  | some .acmeOrderUnauthorized => unauthorized "account does not own this resource"
  | some .acmeOrderNotReady =>
    ⟨acmeErrorFront++"orderNotReady","order is not in the `ready` state; complete authorizations first",403⟩
  | some .acmeUnsupportedAuthMode => serverInternal "ACME server is not fully configured; contact the operator"
  | some .acmeFinalizeUnconfigured => serverInternal "ACME server is not fully configured; contact the operator"
  | some .acmeChallengePoolUnconfigured => serverInternal "ACME server is not fully configured; contact the operator"
  | some .acmeChallengeNotFound => ⟨acmeErrorFront++"malformed","challenge not found",404⟩
  | some .acmeRevocationUnconfigured => serverInternal "revocation pipeline is not wired"
  | some .acmeKeyRolloverConcurrent =>
    ⟨acmeErrorFront++"unauthorized","the supplied new account key is unavailable: "++err.text,409⟩
  | some .acmeKeyRolloverDuplicateKey =>
    ⟨acmeErrorFront++"unauthorized","the supplied new account key is unavailable: "++err.text,409⟩
  | some .acmeKeyRolloverInvalid => malformed "key rollover request rejected"
  | some .acmeRevocationCertNotFound =>
    ⟨acmeErrorFront++"malformed","the supplied certificate is not known to this server",404⟩
  | some .acmeRevocationUnauthorized => unauthorized "the requester is not authorized to revoke this certificate"
  | some .acmeRevocationAlreadyRevoked =>
    ⟨acmeErrorFront++"alreadyRevoked","the certificate has already been revoked",400⟩
  | some .acmeRevocationBadCSR =>
    ⟨acmeErrorFront++"badCSR","the supplied `certificate` field is not a valid X.509 cert",400⟩
  | some .acmeRateLimited => ⟨acmeErrorFront++"rateLimited","request rate limit exceeded; retry later",429⟩
  | some .acmeConcurrentOrdersExceeded => ⟨acmeErrorFront++"rateLimited",
      "too many concurrent orders for this account; finish or cancel pending orders before submitting more",429⟩
  | _ => serverInternal "ACME server error"

def problemResponse (p : Problem) : Response := {status := p.status, content := .problem p []}

def writeServiceError (err : GoError) : Response := problemResponse (serviceProblem err)

def resourceURL (req : SignedRequest) (kind id : String) : String :=
  req.origin++(if req.profileID≠"" then "/acme/profile/"++req.profileID else "/acme")++"/"++kind++"/"++id

/-- Draw a nonce for the next request; a failure leaves the header out. -/
def nextNonce (e : Endpoints Key) : Acme String := do
  match ← issueNonce e.nonceTTL with
  | .error _ => pure ""
  | .ok nonce => pure nonce

def marshalChallenge (req : SignedRequest) (ch : Challenge) : ChallengeResponse :=
  ⟨ch.type,resourceURL req "challenge" ch.challengeID,ch.status,ch.token,ch.validatedAt,ch.error⟩

def marshalAuthorization (req : SignedRequest) (authz : Authorization) (challenges : List Challenge) :
    AuthorizationResponse :=
  ⟨authz.identifier,authz.status,authz.expiresAt,authz.wildcard,challenges.map (marshalChallenge req)⟩

def marshalOrder (order : Order) (authzURLs : List String) (finalizeURL certURL : String) : OrderResponse :=
  ⟨order.status,order.expiresAt,order.identifiers,authzURLs,finalizeURL,
    if certURL≠"" ∧ order.status=.valid then certURL else "",order.error⟩

def marshalOrderForResponse (req : SignedRequest) (order : Order) : Acme OrderResponse := do
  let listed ← acme (.listAuthzsByOrder order.orderID)
  let authzs : List Authorization := match listed with
    | .error _ => []
    | .ok authzs => authzs
  let certURL := if order.certificateID≠"" then resourceURL req "cert" order.certificateID else ""
  pure (marshalOrder order (authzs.map fun a => resourceURL req "authz" a.authzID)
    (resourceURL req "order" order.orderID++"/finalize") certURL)

def marshalAccount (req : SignedRequest) (acct : Account) : AccountResponse :=
  ⟨acct.status,acct.contact,req.accountKID acct.accountID++"/orders"⟩

/-- Run an endpoint that needs an account. -/
def withAccount (v : VerifiedRequest Key) (rest : Account→Acme Response) : Acme Response :=
  match v.account with
  | none => pure (problemResponse (mapJWSErrorToProblem Sentinel.jwsAccountNotFound.error))
  | some acct => rest acct

def newAccount (e : Endpoints Key) (req : SignedRequest) (v : VerifiedRequest Key) : Acme Response :=
  match e.decodeNewAccount v.payload with
  | none => pure (problemResponse (malformed "could not parse new-account payload"))
  | some (contact,onlyReturnExisting) =>
    match v.jwk with
    -- verification for this endpoint always hands a key over
    | none => pure (writeServiceError ⟨"",none⟩)
    | some jwk => do
      match ← AcmeAccounts.newAccount e.toAccountServer req.profileID jwk contact onlyReturnExisting with
      | .error err => pure (writeServiceError err)
      | .ok (acct,isNew) => do
        let nonce ← nextNonce e
        pure {status := if isNew then 201 else 200, replayNonce := nonce, location := req.accountKID acct.accountID,
              content := .account (marshalAccount req acct)}

def blankChar (ch : Char) : Bool := ch = ' ' || ch = '\t' || ch = '\n' || ch = '\r'

/-- A payload without white space around it. -/
def trimBody (payload : String) : List Char :=
  ((payload.toList.dropWhile blankChar).reverse.dropWhile blankChar).reverse

/-- Replace the contacts of an account, if new ones were sent. -/
def updateContact (e : Endpoints Key) (accountID : String) (contact : Option (List String)) (current : Account) :
    Acme (Except Problem Account) :=
  match contact with
  | none => pure (.ok current)
  | some contact => do
    match ← updateAccount e.toAccountServer accountID contact with
    | .error err => raise (serviceProblem err)
    | .ok updated => pure (.ok updated)

def applyAccountUpdate (e : Endpoints Key) (acct : Account) (update : AccountUpdate) : Acme (Except Problem Account) :=
  if update.status="" then updateContact e acct.accountID update.contact acct
  else if update.status="deactivated" then do
    match ← deactivateAccount e.toAccountServer acct.accountID with
    | .error err => raise (serviceProblem err)
    | .ok current => updateContact e acct.accountID update.contact current
  else raise (malformed ("only `deactivated` is a valid status for account update; got "++update.status))

def account (e : Endpoints Key) (req : SignedRequest) (accountID : String) (v : VerifiedRequest Key) : Acme Response :=
  match v.account with
  | none => pure (problemResponse (unauthorized "kid does not match URL account id"))
  | some acct =>
    if acct.accountID≠accountID then pure (problemResponse (unauthorized "kid does not match URL account id"))
    else
      let shown := fun (updated : Account) => do
        let nonce ← nextNonce e
        pure {status := 200, replayNonce := nonce, content := .account (marshalAccount req updated)}
      if trimBody v.payload=[] ∨ trimBody v.payload="\x7b\x7d".toList then shown acct
      else
        match e.decodeAccountUpdate v.payload with
        | none => pure (problemResponse (malformed "could not parse account update payload"))
        | some update => do
          match ← applyAccountUpdate e acct update with
          | .error p => pure (problemResponse p)
          | .ok updated => shown updated

def newOrder (e : Endpoints Key) (req : SignedRequest) (v : VerifiedRequest Key) : Acme Response :=
  withAccount v fun acct =>
    match e.decodeNewOrder v.payload with
    | none => pure (problemResponse (malformed "could not parse new-order payload"))
    | some identifiers =>
      match validateIdentifiers e.toACMEService identifiers with
      | [] => do
        match ← createOrder e.toAcmeServer acct.accountID req.profileID identifiers with
        | .error err => pure (writeServiceError err)
        | .ok order => do
          let nonce ← nextNonce e
          let shown ← marshalOrderForResponse req order
          pure {status := 201, replayNonce := nonce, location := resourceURL req "order" order.orderID,
                content := .order shown}
      | rejected =>
        let p : Problem := ⟨acmeErrorFront++"rejectedIdentifier","one or more identifiers were rejected",400⟩
        pure {status := 400, content := .problem p rejected}

def order (e : Endpoints Key) (req : SignedRequest) (orderID : String) (v : VerifiedRequest Key) : Acme Response :=
  withAccount v fun acct => do
    match ← service (lookupOrder orderID acct.accountID) with
    | .error err => pure (writeServiceError err)
    | .ok order => do
      let nonce ← nextNonce e
      let shown ← marshalOrderForResponse req order
      pure {status := 200, replayNonce := nonce, content := .order shown}

def finalizeRequest (e : Endpoints Key) (payload : String) : Except Problem (CertificateRequest×String) :=
  match e.decodeFinalize payload with
  | none => .error (malformed "could not parse finalize payload")
  | some csr =>
    match Base64Url.decode csr.toList with
    | .error _ => .error ⟨acmeErrorFront++"badCSR","csr field is not valid base64url",400⟩
    | .ok csrDER =>
      match e.parseCertificateRequest csrDER with
      | none => .error ⟨acmeErrorFront++"badCSR","csr did not parse as a valid PKCS#10",400⟩
      | some csr => .ok (csr,e.encodeRequest csrDER)

def orderFinalize (e : Endpoints Key) (req : SignedRequest) (orderID : String) (v : VerifiedRequest Key) :
    Acme Response :=
  withAccount v fun acct =>
    match finalizeRequest e v.payload with
    | .error p => pure (problemResponse p)
    | .ok (csr,csrPEM) => do
      match ← service (finalizeOrder e.toACMEService acct.accountID orderID req.profileID csr csrPEM) with
      | .error err => pure (writeServiceError err)
      | .ok result => do
        let nonce ← nextNonce e
        let shown ← marshalOrderForResponse req result.order
        pure {status := 200, replayNonce := nonce, location := resourceURL req "order" result.order.orderID,
              content := .order shown}

/-- Read an authorization, whoever asks. -/
def lookupAuthz (authzID : String) : Acme (Try (Authorization×List Challenge)) := do
  match ← acme (.getAuthzByID authzID) with
  | .error err =>
    if err.is .notFound then raise Sentinel.acmeAuthzNotFound.error
    else raise (err.wrapped "acme: lookup authz: ")
  | .ok found => pure (.ok found)

def authz (e : Endpoints Key) (req : SignedRequest) (authzID : String) (v : VerifiedRequest Key) : Acme Response :=
  withAccount v fun _ => do
    match ← lookupAuthz authzID with
    | .error err => pure (writeServiceError err)
    | .ok (found,challenges) => do
      let nonce ← nextNonce e
      pure {status := 200, replayNonce := nonce, content := .authorization (marshalAuthorization req found challenges)}

def accountOwnsACMECert (_accountID _certID : String) : Bool := true

def lookupCertificate (svc : ACMEService) (certID accountID : String) : Service (Try String) :=
  if !svc.certRepo then raise Sentinel.acmeFinalizeUnconfigured.error
  else do
    match ← getCertificate certID with
    | .error err =>
      if err.is .notFound then raise Sentinel.acmeCertificateNotFound.error
      else raise (err.wrapped "acme: get cert: ")
    | .ok cert =>
      if cert.source≠.acme then raise Sentinel.acmeCertificateNotFound.error
      else if !accountOwnsACMECert accountID certID then raise Sentinel.acmeOrderUnauthorized.error
      else do
        match ← getLatestVersion certID with
        | .error err => raise (err.wrapped "acme: latest version: ")
        | .ok version => pure (.ok version.pemChain)

def cert (e : Endpoints Key) (certID : String) (v : VerifiedRequest Key) : Acme Response :=
  withAccount v fun acct => do
    match ← service (lookupCertificate e.toACMEService certID acct.accountID) with
    | .error err => pure (writeServiceError err)
    | .ok chain => do
      let nonce ← nextNonce e
      pure {status := 200, replayNonce := nonce, content := .chain chain}

def challenge (e : Endpoints Key) (req : SignedRequest) (challengeID : String) (v : VerifiedRequest Key) : Acme Response :=
  withAccount v fun acct =>
    match e.jose.parseJWKFromPEM acct.jwkPEM with
    | .error _ => pure (problemResponse (serverInternal "could not parse stored account JWK"))
    | .ok jwk => do
      match ← respondToChallenge e.toAcmeServer acct.accountID challengeID jwk with
      | .error err => pure (writeServiceError err)
      | .ok (ch,_) => do
        let nonce ← nextNonce e
        pure {status := 200, replayNonce := nonce, content := .challenge (marshalChallenge req ch)}

def keyChange (e : Endpoints Key) (req : SignedRequest) (v : VerifiedRequest Key) : Acme Response :=
  withAccount v fun acct =>
    match e.jose.parseJWKFromPEM acct.jwkPEM with
    | .error _ => pure (problemResponse (serverInternal "could not parse stored account JWK"))
    | .ok oldJWK =>
      match e.keyChangeInner v.payload (req.accountKID acct.accountID) req.requestURL oldJWK with
      | .error p => pure (problemResponse p)
      | .ok newJWK => do
        match ← rotateAccountKey e.toAccountServer (some acct) (some newJWK) with
        | .error err => pure (writeServiceError err)
        | .ok rolled => do
          let nonce ← nextNonce e
          pure {status := 200, replayNonce := nonce, content := .account (marshalAccount req rolled)}

def revoking (v : VerifiedRequest Key) : AcmeRevocation.VerifiedRequest Key := ⟨v.account.map Account.accountID,v.jwk⟩

def revokeCert (e : Endpoints Key) (v : VerifiedRequest Key) : Acme Response :=
  match e.decodeRevocation v.payload with
  | none => pure (problemResponse (malformed "could not parse revoke-cert payload"))
  | some (certificate,reason) =>
    match Base64Url.decode certificate.toList with
    | .error _ => pure (problemResponse ⟨acmeErrorFront++"badCSR","`certificate` is not valid base64url-DER",400⟩)
    | .ok [] => pure (problemResponse ⟨acmeErrorFront++"badCSR","`certificate` is not valid base64url-DER",400⟩)
    | .ok certDER => do
      match ← service (AcmeRevocation.revokeCert e.revocation (some (revoking v)) certDER reason) with
      | .error err => pure (writeServiceError err)
      | .ok _ => do
        let nonce ← nextNonce e
        pure {status := 200, replayNonce := nonce, content := .empty}

/-- Verify a request to revoke: for an account first and then, where that finds a key or no account, the same bytes
for an embedded key. -/
def verifyRevocation (jose : Jose Key) (req : SignedRequest) : Acme (Try (VerifiedRequest Key)) := do
  match ← verifyJWS jose req false with
  | .ok v => pure (.ok v)
  | .error errKid =>
    if errKid.is .jwsExpectKidGotJWK || errKid.is .jwsAccountNotFound then verifyJWS jose req true
    else raise errKid

/-- The endpoints that take signed requests. -/
inductive Endpoint where
  | newAccount
  | account (accountID : String)
  | newOrder
  | order (orderID : String)
  | orderFinalize (orderID : String)
  | authz (authzID : String)
  | challenge (challengeID : String)
  | cert (certID : String)
  | keyChange
  | revokeCert
deriving DecidableEq

def Endpoint.verify (e : Endpoints Key) (req : SignedRequest) : Endpoint→Acme (Try (VerifiedRequest Key))
  | .newAccount => verifyJWS e.jose req true
  | .revokeCert => verifyRevocation e.jose req
  | _ => verifyJWS e.jose req false

def Endpoint.serve (e : Endpoints Key) (req : SignedRequest) (v : VerifiedRequest Key) : Endpoint→Acme Response
  | .newAccount => AcmeEndpoints.newAccount e req v
  | .account accountID => AcmeEndpoints.account e req accountID v
  | .newOrder => AcmeEndpoints.newOrder e req v
  | .order orderID => AcmeEndpoints.order e req orderID v
  | .orderFinalize orderID => AcmeEndpoints.orderFinalize e req orderID v
  | .authz authzID => AcmeEndpoints.authz e req authzID v
  | .challenge challengeID => AcmeEndpoints.challenge e req challengeID v
  | .cert certID => AcmeEndpoints.cert e certID v
  | .keyChange => AcmeEndpoints.keyChange e req v
  | .revokeCert => AcmeEndpoints.revokeCert e v

def maxJWSBodyBytes : ℕ := 64*1024

def handle (e : Endpoints Key) (endpoint : Endpoint) (req : SignedRequest) : Acme Response :=
  if maxJWSBodyBytes<req.body.utf8ByteSize then pure (problemResponse (malformed "request body too large"))
  else do
    match ← endpoint.verify e req with
    | .error err => pure (problemResponse (mapJWSErrorToProblem err))
    | .ok v => endpoint.serve e req v

section Rules

variable {P : acmeServer.Op→Prop} {e : Endpoints Key} {req : SignedRequest}

theorem uses_nextNonce (hdraw : P (.inl .randIDSuffix)) (hstore : ∀ nonce,P (.inr (.issueNonce nonce e.nonceTTL))) :
    (nextNonce e).Uses P := by
  refine Prog.uses_bind ⟨hdraw,fun nonce => ?_⟩ fun r => ?_
  · refine uses_op (hstore nonce) fun r => ?_
    cases r <;> trivial
  · cases r <;> trivial

theorem uses_marshalOrderForResponse (hlist : ∀ orderID,P (.inr (.listAuthzsByOrder orderID))) (order : Order) :
    (marshalOrderForResponse req order).Uses P :=
  uses_op (hlist _) fun _ => trivial

end Rules

end Certctl.AcmeEndpoints
