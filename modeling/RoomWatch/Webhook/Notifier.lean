import RoomWatch.Log

/-!
# Posting events to endpoints

An event is posted to every endpoint in turn, also after failures. The first failure is the
result. Cancellation is seen before an endpoint's turn or during its request; it ends the
delivery at once and hides earlier failures (`post`).
-/

namespace RoomWatch

/-- What happens when it is an endpoint's turn. -/
inductive Exchange where
  /-- The context is already cancelled; no request is made. -/
  | cancelledBefore
  /-- The context is cancelled while the request is under way. -/
  | cancelledDuring
  | answered (status : UInt16)
  /-- The endpoint has got the request but has not answered it. -/
  | failed (fault : TransportFault)
  /-- The request has not got through to the endpoint. -/
  | unreached (fault : TransportFault)
  deriving DecidableEq

/-- A request to an endpoint. -/
structure Request where
  url : String
  contentType : String
  authorization : Option String
  body : String
  deriving DecidableEq

/-- A request that has been made, and what has come of it. -/
structure Attempt where
  request : Request
  exchange : Exchange
  deriving DecidableEq

/-- What a delivery has done. -/
structure Posting where
  result : Except NotifyError Unit
  attempts : List Attempt
  log : List LogLine

/-- Whether the endpoint has got a request. -/
def Exchange.reaches : Exchange → Bool
  | .cancelledBefore => false
  | .cancelledDuring => true
  | .answered _ => true
  | .failed _ => true
  | .unreached _ => false

/-- The requests that endpoints have got. -/
def Posting.received (p : Posting) : List Request :=
  (p.attempts.filter fun a => a.exchange.reaches).map Attempt.request

namespace Notifier

def isSuccess (status : UInt16) : Bool := 200 ≤ status && status < 300

/-- A space at either end of a header value is not part of it. -/
def trimSpaces (cs : List Char) : List Char :=
  ((cs.dropWhile (· = ' ')).reverse.dropWhile (· = ' ')).reverse

/-- The value of the authorization header for an api key. -/
def bearer (key : String) : String :=
  String.ofList (trimSpaces ("Bearer ".toList ++ key.toList))

/-- Whether an api key can be sent: it has no control characters but tabs. -/
def CanSend : Option String → Prop
  | none => True
  | some key => ∀ c ∈ key.toList, c = '\t' ∨ (32 ≤ c.toNat ∧ c.toNat ≠ 127)

instance : (apiKey : Option String) → Decidable (CanSend apiKey)
  | none => inferInstanceAs (Decidable True)
  | some key => inferInstanceAs (Decidable (∀ c ∈ key.toList, _ ∨ _))

/-- The request that posts an event. -/
def request (url : String) (apiKey : Option String) (event : WebhookEvent) : Request where
  url := url
  contentType := "application/json"
  authorization := apiKey.map bearer
  body := WebhookEvent.codec.encode event

/-- The fault of a request that cannot be made. -/
def unsendable : TransportFault := ⟨"builder error", false⟩

/-- What really happens at an endpoint: with an api key that cannot be sent, nothing gets there. -/
def actual (apiKey : Option String) : Exchange → Exchange
  | .cancelledBefore => .cancelledBefore
  | e => if CanSend apiKey then e else .unreached unsendable

/-- How an endpoint has failed, if it has. -/
def failure? (url : String) : Exchange → Option NotifyError
  | .cancelledBefore => none
  | .cancelledDuring => none
  | .answered status => if isSuccess status then none else some (.status url status)
  | .failed fault => some (.transport url fault)
  | .unreached fault => some (.transport url fault)

/-- Whether a delivery ends with an exchange. -/
def cancels (e : Exchange) : Bool := e = .cancelledBefore || e = .cancelledDuring

/-- Posts an event to the remaining endpoints, given the first failure so far. -/
def postFrom (apiKey : Option String) (event : WebhookEvent) (first : Option NotifyError) :
    List (String × Exchange) → Posting
  | [] => ⟨first.elim (.ok ()) .error, [], []⟩
  | (url, given) :: rest =>
    let exchange := actual apiKey given
    let attempts :=
      if exchange = .cancelledBefore then [] else [⟨request url apiKey event, exchange⟩]
    if cancels exchange then ⟨.error .cancelled, attempts, []⟩
    else
      let failure := failure? url exchange
      let later := postFrom apiKey event (first.or failure) rest
      ⟨later.result, attempts ++ later.attempts,
        (failure.map (.endpointFailed url event.kind ·)).toList ++ later.log⟩

/-- Posts an event to all endpoints. -/
def post (apiKey : Option String) (event : WebhookEvent) (turns : List (String × Exchange)) :
    Posting :=
  postFrom apiKey event none turns

end Notifier

end RoomWatch
