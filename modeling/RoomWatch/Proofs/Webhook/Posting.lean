import Mathlib.Data.List.DropRight
import RoomWatch.Proofs.Wire.RoundTrip
import RoomWatch.Webhook.Notifier

/-!
# Posting to a list of endpoints

A delivery goes through its endpoints in list order until all of them are finished or it sees that
its context is cancelled. What an endpoint does with a request (`Response`) and when the context is
cancelled (`Cancellation`) are independent of each other; together they are the turns of the
delivery.

* `failure?_outcome`: what an endpoint is found to have failed with.
* `bears_bearer`: what an authorization header says.
* `Cancellation.Passes`: the ways in which the first turn can be finished before the cancellation.
* `postFrom_of_passes`: one turn, from any first failure so far.
* `postFrom_turns`: a whole delivery does what its list of endpoints and its moment of cancellation
  say.
* `follows_of_post`: **requests, result and log lines follow the list of endpoints.**
-/

namespace RoomWatch

open Wire

namespace Notifier

variable {apiKey : Option String}

/-- What an endpoint does with a request. -/
inductive Response where
  | answered (status : UInt16)
  /-- The endpoint gets the request and does not answer it. -/
  | failed (fault : TransportFault)
  /-- The request does not get through to the endpoint. -/
  | unreached (fault : TransportFault)
  deriving DecidableEq

def Response.exchange : Response → Exchange
  | .answered status => .answered status
  | .failed fault => .failed fault
  | .unreached fault => .unreached fault

/-- An api key can stand in a header: it has no control characters but tabs. -/
def Sendable (apiKey : Option String) : Prop :=
  ∀ key ∈ apiKey, ∀ c ∈ key.toList, c = '\t' ∨ 32 ≤ c.toNat ∧ c.toNat ≠ 127

instance : Decidable (Sendable apiKey) :=
  inferInstanceAs (Decidable (∀ key ∈ apiKey, ∀ c ∈ key.toList, _ ∨ _))

/-- What comes of a request to an endpoint that does `r` with it. With an api key that cannot be
sent there is no request to make. -/
def Response.outcome (apiKey : Option String) (r : Response) : Exchange :=
  if Sendable apiKey then r.exchange else .unreached ⟨"builder error", false⟩

/-- The error of an endpoint that does `r` with a request, unless it answers with a status from 200
to 299. A request that cannot be made is an error everywhere. -/
def Response.error? (apiKey : Option String) (url : String) (r : Response) : Option NotifyError :=
  if Sendable apiKey then
    match r with
    | .answered status =>
      if 200 ≤ status.toNat ∧ status.toNat ≤ 299 then none else some (.status url status)
    | .failed fault => some (.transport url fault)
    | .unreached fault => some (.transport url fault)
  else some (.transport url ⟨"builder error", false⟩)

/-- What the header says to whoever reads it: the key, less the spaces at its end. -/
structure Bears (key value : String) : Prop where
  spaces : ∃ n, value.toList ++ List.replicate n ' ' = "Bearer ".toList ++ key.toList
  last : ' ' ∉ value.toList.getLast?
  whole : key ≠ "" → ' ' ∉ key.toList.getLast? → value = "Bearer " ++ key

/-- When the context of a delivery is cancelled. -/
inductive Cancellation where
  | never
  /-- Before turn `n`, or after the last one where there are no more than `n`. -/
  | before (n : Nat)
  /-- While the request of turn `n` is under way. -/
  | during (n : Nat)
  deriving DecidableEq

namespace Cancellation

/-- What happens at turn `i`, at an endpoint that would do `r` with the request. -/
def exchange (c : Cancellation) (i : Nat) (r : Response) : Exchange :=
  match c with
  | .never => r.exchange
  | .before n => if i < n then r.exchange else .cancelledBefore
  | .during n =>
    if i < n then r.exchange else if i = n then .cancelledDuring else .cancelledBefore

/-- The turns of a delivery. -/
def turns (c : Cancellation) (endpoints : List (String × Response)) : List (String × Exchange) :=
  endpoints.mapIdx fun i e => (e.1, c.exchange i e.2)

/-- How many of `count` endpoints have their turn before the cancellation. -/
def started (c : Cancellation) (count : Nat) : Nat :=
  match c with
  | .never => count
  | .before n => min n count
  | .during n => min (n + 1) count

/-- How many of `count` endpoints are finished before the cancellation is seen. A request that
cannot be made fails at once, so a cancellation during such a request comes after it. -/
def finished (apiKey : Option String) (c : Cancellation) (count : Nat) : Nat :=
  match c with
  | .never => count
  | .before n => min n count
  | .during n => min (if Sendable apiKey then n else n + 1) count

/-- The first turn is finished before the cancellation `c`, which is `c'` for the turns after it. -/
inductive Passes (apiKey : Option String) : Cancellation → Cancellation → Prop where
  | never : Passes apiKey .never .never
  | before (n : Nat) : Passes apiKey (.before (n + 1)) (.before n)
  | during (n : Nat) : Passes apiKey (.during (n + 1)) (.during n)
  | unsendable : ¬ Sendable apiKey → Passes apiKey (.during 0) (.before 0)

end Cancellation

/-- How the endpoints fail, those that do. -/
def failures (apiKey : Option String) (endpoints : List (String × Response)) :
    List (String × NotifyError) :=
  endpoints.filterMap fun e => (e.2.error? apiKey e.1).map fun error => (e.1, error)

/-- The first failure in list order. -/
def firstFailure? (apiKey : Option String) (endpoints : List (String × Response)) :
    Option NotifyError :=
  (failures apiKey endpoints).head?.map Prod.snd

variable {event : WebhookEvent} {c c' : Cancellation}

/-! ## What an endpoint does -/

theorem Response.exchange_ne (r : Response) : r.exchange ≠ .cancelledBefore := by
  cases r <;> exact Exchange.noConfusion

theorem canSend_iff : CanSend apiKey ↔ Sendable apiKey := by
  cases apiKey <;> simp [CanSend, Sendable]

theorem actual_of_sendable (hkey : Sendable apiKey) (e : Exchange) : actual apiKey e = e := by
  cases e <;> simp [actual, canSend_iff.2 hkey]

theorem actual_of_not_sendable {e : Exchange} (hkey : ¬ Sendable apiKey)
    (h : e ≠ .cancelledBefore) : actual apiKey e = .unreached ⟨"builder error", false⟩ := by
  cases e <;> simp_all [actual, canSend_iff, unsendable]

theorem actual_response (r : Response) : actual apiKey r.exchange = r.outcome apiKey := by
  rw [Response.outcome]
  split
  · exact actual_of_sendable ‹_› _
  · exact actual_of_not_sendable ‹_› r.exchange_ne

/-- A response that is there ends no delivery. -/
theorem cancels_outcome (apiKey : Option String) (r : Response) :
    cancels (r.outcome apiKey) = false := by
  rw [Response.outcome]
  split
  · cases r <;> rfl
  · rfl

/-- What a finished endpoint is found to have failed with is its error. -/
theorem failure?_outcome (url : String) (r : Response) :
    failure? url (r.outcome apiKey) = r.error? apiKey url := by
  by_cases hkey : Sendable apiKey
  · simp only [Response.outcome, Response.error?, if_pos hkey]
    cases r with
    | answered status =>
      have hsuccess : isSuccess status = true ↔ 200 ≤ status.toNat ∧ status.toNat ≤ 299 := by
        simp only [isSuccess, Bool.and_eq_true, decide_eq_true_eq, UInt16.le_iff_toNat_le,
          UInt16.lt_iff_toNat_lt]
        exact and_congr_right' Nat.lt_succ_iff
      simp only [Response.exchange, failure?, hsuccess]
    | failed fault => rfl
    | unreached fault => rfl
  · simp only [Response.outcome, Response.error?, if_neg hkey, failure?]

/-- An endpoint never fails as cancelled. -/
theorem error?_ne_cancelled (url : String) (r : Response) :
    r.error? apiKey url ≠ some .cancelled := by
  intro h
  unfold Response.error? at h
  split at h
  · cases r with
    | answered status =>
      dsimp only at h
      split at h <;> cases h
    | failed fault => cases h
    | unreached fault => cases h
  · cases h

/-- What a key is trimmed to is the key less the spaces at its end. -/
theorem trimSpaces_spec {cs : List Char} (hfront : cs.dropWhile (· = ' ') = cs) :
    (∃ n, trimSpaces cs ++ List.replicate n ' ' = cs) ∧ ' ' ∉ (trimSpaces cs).getLast? := by
  have htrim : trimSpaces cs = cs.rdropWhile (· = ' ') := by
    rw [trimSpaces, hfront]
    rfl
  have hspaces : ∀ c ∈ cs.rtakeWhile (· = ' '), c = ' ' := fun c hc => by
    simpa using List.mem_rtakeWhile_imp hc
  have hlast := List.rdropWhile_last_not (fun c => decide (c = ' ')) cs
  rw [htrim]
  refine ⟨⟨(cs.rtakeWhile (· = ' ')).length, ?_⟩, fun hspace => ?_⟩
  · rw [← List.eq_replicate_of_mem hspaces]
    exact List.rdropWhile_append_rtakeWhile
  · obtain ⟨hne, hspace⟩ := List.mem_getLast?_eq_getLast hspace
    exact hlast hne (by rw [← hspace]; rfl)

theorem dropWhile_bearer (key : String) :
    ("Bearer ".toList ++ key.toList).dropWhile (· = ' ') = "Bearer ".toList ++ key.toList := rfl

/-- An api key without spaces at its end is in the header as it is. -/
theorem bearer_eq {key : String} (hne : key ≠ "") (hlast : ' ' ∉ key.toList.getLast?) :
    bearer key = "Bearer " ++ key := by
  have hend : ((("Bearer ".toList ++ key.toList).reverse).dropWhile (· = ' ')).reverse =
      "Bearer ".toList ++ key.toList := by
    have hlist : key.toList ≠ [] := fun h => hne (by rwa [String.toList_eq_nil_iff] at h)
    obtain ⟨front, last, hsplit⟩ := List.eq_nil_or_concat key.toList |>.resolve_left hlist
    have hspace : last ≠ ' ' := fun h => hlast (by simp [hsplit, h])
    simp [hsplit, hspace]
  rw [bearer, trimSpaces, dropWhile_bearer, hend, ← String.toList_append, String.ofList_toList]

theorem bears_bearer (key : String) : Bears key (bearer key) := by
  obtain ⟨hspaces, hlast⟩ := trimSpaces_spec (dropWhile_bearer key)
  constructor
  case spaces => rwa [bearer, String.toList_ofList]
  case last => rwa [bearer, String.toList_ofList]
  case whole => exact bearer_eq

/-- The failures of a list begin with the one of its first endpoint. -/
theorem failures_cons (e : String × Response) (es : List (String × Response)) :
    failures apiKey (e :: es) =
      ((e.2.error? apiKey e.1).map (e.1, ·)).toList ++ failures apiKey es := by
  unfold failures
  cases h : e.2.error? apiKey e.1 with
  | none => rw [List.filterMap_cons_none (by rw [h]; rfl)]; rfl
  | some error => rw [List.filterMap_cons_some (by rw [h]; rfl)]; rfl

theorem firstFailure?_cons (e : String × Response) (es : List (String × Response)) :
    firstFailure? apiKey (e :: es) =
      (e.2.error? apiKey e.1).or (firstFailure? apiKey es) := by
  rw [firstFailure?, failures_cons]
  cases e.2.error? apiKey e.1 <;> rfl

theorem firstFailure?_ne_cancelled (apiKey : Option String)
    (endpoints : List (String × Response)) :
    firstFailure? apiKey endpoints ≠ some .cancelled := by
  induction endpoints with
  | nil => intro h; cases h
  | cons e es ih =>
    rw [firstFailure?_cons]
    cases h : e.2.error? apiKey e.1 with
    | none => exact ih
    | some error => exact fun heq => error?_ne_cancelled e.1 e.2 (h.trans heq)

/-! ## Moments of cancellation -/

namespace Cancellation

/-- Either the first turn is finished, or the context is cancelled before it or during its
request. -/
theorem passes_or (apiKey : Option String) (c : Cancellation) :
    (∃ c', Passes apiKey c c') ∨ c = .before 0 ∨ c = .during 0 ∧ Sendable apiKey := by
  cases c with
  | never => exact .inl ⟨_, .never⟩
  | before n =>
    cases n with
    | zero => exact .inr (.inl rfl)
    | succ n => exact .inl ⟨_, .before n⟩
  | during n =>
    cases n with
    | zero =>
      by_cases hkey : Sendable apiKey
      · exact .inr (.inr ⟨rfl, hkey⟩)
      · exact .inl ⟨_, .unsendable hkey⟩
    | succ n => exact .inl ⟨_, .during n⟩

@[simp] theorem turns_nil (c : Cancellation) : c.turns [] = [] := List.mapIdx_nil

theorem turns_cons (c : Cancellation) (e : String × Response) (es : List (String × Response)) :
    c.turns (e :: es) =
      (e.1, c.exchange 0 e.2) :: es.mapIdx fun i e => (e.1, c.exchange (i + 1) e.2) :=
  List.mapIdx_cons

variable (h : Passes apiKey c c')
include h

/-- Later turns see the cancellation that is left for them. -/
theorem Passes.exchange_succ (i : Nat) (r : Response) :
    c.exchange (i + 1) r = c'.exchange i r := by
  cases h <;> simp [exchange]

theorem Passes.turns (e : String × Response) (es : List (String × Response)) :
    c.turns (e :: es) = (e.1, c.exchange 0 e.2) :: c'.turns es := by
  rw [turns_cons]
  simp only [h.exchange_succ]
  rfl

/-- At a turn that is finished the endpoint does what it would do without a cancellation. -/
theorem Passes.actual (r : Response) :
    actual apiKey (c.exchange 0 r) = r.outcome apiKey := by
  cases h with
  | never => exact actual_response r
  | before n => exact actual_response r
  | during n => exact actual_response r
  | unsendable hkey =>
    -- the request fails at once, whatever the endpoint would do with it
    rw [Response.outcome, if_neg hkey]
    exact actual_of_not_sendable hkey Exchange.noConfusion

theorem Passes.started (count : Nat) : c.started (count + 1) = c'.started count + 1 := by
  cases h <;> simp only [Cancellation.started] <;> omega

theorem Passes.finished (count : Nat) :
    c.finished apiKey (count + 1) = c'.finished apiKey count + 1 := by
  cases h with
  | never => rfl
  | before n => simp only [Cancellation.finished]; omega
  | during n => by_cases hkey : Sendable apiKey <;> simp [Cancellation.finished, hkey]
  | unsendable hkey => simp only [Cancellation.finished, if_neg hkey]; omega

end Cancellation

/-! ## The delivery -/

/-- **One turn.** A delivery that finishes its first endpoint has made its request, has logged its
error if there is one, and goes on with the first failure so far. -/
theorem postFrom_of_passes (h : c.Passes apiKey c') (first : Option NotifyError)
    (e : String × Response) (es : List (String × Response)) :
    postFrom apiKey event first (c.turns (e :: es)) =
      let error := e.2.error? apiKey e.1
      let later := postFrom apiKey event (first.or error) (c'.turns es)
      ⟨later.result, ⟨request e.1 apiKey event, e.2.outcome apiKey⟩ :: later.attempts,
        (error.map (.endpointFailed e.1 event.kind ·)).toList ++ later.log⟩ := by
  have hcancels := cancels_outcome apiKey e.2
  have hbefore : e.2.outcome apiKey ≠ .cancelledBefore := by
    intro heq
    rw [heq] at hcancels
    exact Bool.noConfusion hcancels
  rw [h.turns, postFrom]
  simp only [h.actual, failure?_outcome, hcancels, if_neg hbefore]
  rfl

/-- What a delivery does, given the first failure so far. -/
def Cancellation.posting (c : Cancellation) (apiKey : Option String) (event : WebhookEvent)
    (first : Option NotifyError) (endpoints : List (String × Response)) : Posting :=
  let finished := endpoints.take (c.finished apiKey endpoints.length)
  { result :=
      if finished.length < endpoints.length then .error .cancelled
      else (first.or (firstFailure? apiKey finished)).elim (.ok ()) .error
    attempts := ((c.turns endpoints).take (c.started endpoints.length)).map fun turn =>
      ⟨request turn.1 apiKey event, actual apiKey turn.2⟩
    log := (failures apiKey finished).map fun f => .endpointFailed f.1 event.kind f.2 }

/-- **A delivery** does what its list of endpoints and its moment of cancellation say. -/
theorem postFrom_turns (c : Cancellation) (first : Option NotifyError)
    (endpoints : List (String × Response)) :
    postFrom apiKey event first (c.turns endpoints) = c.posting apiKey event first endpoints := by
  -- along the list, with what is left of the cancellation and the first failure so far
  induction endpoints generalizing c first with
  | nil =>
    have hfailures : failures apiKey [] = [] := rfl
    simp [postFrom, Cancellation.posting, hfailures, firstFailure?]
  | cons e es ih =>
    rcases c.passes_or apiKey with ⟨c', h⟩ | rfl | ⟨rfl, hkey⟩
    · rw [postFrom_of_passes h]
      simp only [ih, Cancellation.posting, List.length_cons, h.finished, h.started, h.turns,
        List.take_succ_cons, List.map_cons, failures_cons, firstFailure?_cons, h.actual,
        Nat.add_lt_add_iff_right, Option.or_assoc, List.map_append]
      cases e.2.error? apiKey e.1 <;> rfl
    · -- cancelled before the turn: no request, no log line
      simp [postFrom, Cancellation.posting, Cancellation.turns_cons, Cancellation.exchange,
        Cancellation.finished, Cancellation.started, actual, cancels, failures]
    · -- cancelled during the request: it has been made, but its outcome is not seen
      simp [postFrom, Cancellation.posting, Cancellation.turns_cons, Cancellation.exchange,
        Cancellation.finished, Cancellation.started, actual_of_sendable hkey, hkey, cancels,
        failures]

/-! ## What a delivery does at its endpoints -/

namespace Cancellation

variable {i count : Nat}

theorem finished_le (apiKey : Option String) (c : Cancellation) (count : Nat) :
    c.finished apiKey count ≤ count := by
  cases c with
  | never => exact Nat.le_refl _
  | before n => exact Nat.min_le_right ..
  | during n => exact Nat.min_le_right ..

/-- Every endpoint that is finished has had its turn. -/
theorem finished_le_started (apiKey : Option String) (c : Cancellation) (count : Nat) :
    c.finished apiKey count ≤ c.started count := by
  cases c with
  | never => exact Nat.le_refl _
  | before n => exact Nat.le_refl _
  | during n =>
    have hn : (if Sendable apiKey then n else n + 1) ≤ n + 1 := by split <;> omega
    simp only [finished, started]
    omega

/-- An endpoint that is finished has done what it would have done without a cancellation. -/
theorem actual_of_lt (hi : i < c.finished apiKey count) (r : Response) :
    actual apiKey (c.exchange i r) = r.outcome apiKey := by
  induction i generalizing c count with
  | zero =>
    -- where the cancellation comes first, no endpoint is finished
    rcases c.passes_or apiKey with ⟨c', h⟩ | rfl | ⟨rfl, hkey⟩
    · exact h.actual r
    · simp [finished] at hi
    · simp [finished, hkey] at hi
  | succ i ih =>
    obtain ⟨count, rfl⟩ : ∃ n, count = n + 1 :=
      Nat.exists_eq_add_one_of_ne_zero fun h => by
        have hle := c.finished_le apiKey count
        omega
    rcases c.passes_or apiKey with ⟨c', h⟩ | rfl | ⟨rfl, hkey⟩
    · rw [h.exchange_succ]
      rw [h.finished] at hi
      exact ih (Nat.lt_of_succ_lt_succ hi)
    · simp [finished] at hi
    · simp [finished, hkey] at hi

variable (c : Cancellation) (endpoints : List (String × Response))

theorem length_take_finished :
    (endpoints.take (c.finished apiKey endpoints.length)).length =
      c.finished apiKey endpoints.length :=
  List.length_take_of_le (c.finished_le apiKey endpoints.length)

theorem map_fst_turns : (c.turns endpoints).map Prod.fst = endpoints.map Prod.fst := by
  apply List.ext_getElem
  · simp [turns]
  · intro i _ _
    simp [turns]

theorem urls_posting (first : Option NotifyError) :
    (c.posting apiKey event first endpoints).attempts.map (·.request.url) =
      (endpoints.take (c.started endpoints.length)).map Prod.fst := by
  rw [List.map_take, ← map_fst_turns c, ← List.map_take, posting, List.map_map]
  rfl

theorem exchanges_posting (first : Option NotifyError) :
    ((c.posting apiKey event first endpoints).attempts.take
        (c.finished apiKey endpoints.length)).map Attempt.exchange =
      (endpoints.take (c.finished apiKey endpoints.length)).map (·.2.outcome apiKey) := by
  have hstarted := c.finished_le_started apiKey endpoints.length
  rw [posting, ← List.map_take, List.take_take, Nat.min_eq_left hstarted, List.map_map]
  apply List.ext_getElem
  · simp [turns]
  · intro i _ hi
    have hlt : i < c.finished apiKey endpoints.length := by
      rw [List.length_map, length_take_finished] at hi
      exact hi
    simp [turns, actual_of_lt hlt]

/-- A delivery is cancelled only where it sees the cancellation: no failure is like it. -/
theorem result_posting_eq_cancelled_iff :
    (c.posting apiKey event none endpoints).result = .error .cancelled ↔
      c.finished apiKey endpoints.length < endpoints.length := by
  simp only [posting, length_take_finished]
  by_cases hlt : c.finished apiKey endpoints.length < endpoints.length
  · rw [if_pos hlt]
    exact iff_of_true rfl hlt
  · have hnone := firstFailure?_ne_cancelled apiKey
      (endpoints.take (c.finished apiKey endpoints.length))
    rw [if_neg hlt, Option.none_or]
    refine iff_of_false (fun heq => ?_) hlt
    cases hfirst : firstFailure? apiKey
        (endpoints.take (c.finished apiKey endpoints.length)) with
    | none =>
      rw [hfirst] at heq
      cases heq
    | some error =>
      rw [hfirst] at heq
      cases heq
      exact hnone hfirst

theorem result_posting (hall : c.finished apiKey endpoints.length = endpoints.length) :
    (c.posting apiKey event none endpoints).result =
      (firstFailure? apiKey endpoints).elim (.ok ()) .error := by
  rw [posting, hall, List.take_length, if_neg (Nat.lt_irrefl _), Option.none_or]

end Cancellation

/-- A delivery to a list of endpoints whose context is cancelled at some moment, or never. -/
structure Follows (apiKey : Option String) (event : WebhookEvent)
    (endpoints : List (String × Response)) (c : Cancellation) (p : Posting) : Prop where
  /-- One request for each endpoint whose turn comes before the cancellation, in list order. -/
  urls : p.attempts.map (·.request.url) =
    (endpoints.take (c.started endpoints.length)).map Prod.fst
  /-- What the endpoints that are finished have done. -/
  exchanges : (p.attempts.take (c.finished apiKey endpoints.length)).map Attempt.exchange =
    (endpoints.take (c.finished apiKey endpoints.length)).map (·.2.outcome apiKey)
  /-- Every request has the same body, which is the event. -/
  body : ∀ a ∈ p.attempts, a.request.contentType = "application/json" ∧
    a.request.body = WebhookEvent.codec.encode event ∧
    WebhookEvent.codec.decode a.request.body = .ok event
  /-- Without an api key there is no header for it. -/
  anonymous : apiKey = none → ∀ a ∈ p.attempts, a.request.authorization = none
  /-- With an api key every request bears it. -/
  bearing : ∀ key ∈ apiKey, ∀ a ∈ p.attempts,
    ∃ value ∈ a.request.authorization, Bears key value
  /-- The delivery is cancelled exactly when it sees the cancellation before its last endpoint is
  finished. -/
  cancelled : p.result = .error .cancelled ↔
    c.finished apiKey endpoints.length < endpoints.length
  /-- Otherwise the first failure is the result. -/
  result : c.finished apiKey endpoints.length = endpoints.length →
    p.result = (firstFailure? apiKey endpoints).elim (.ok ()) .error
  /-- Each endpoint that is finished and has failed is logged once, in list order. -/
  log : p.log = (failures apiKey (endpoints.take (c.finished apiKey endpoints.length))).map
    fun f => .endpointFailed f.1 event.kind f.2

/-- **A delivery follows its list of endpoints**, whatever they do and whenever its context is
cancelled. It makes a request for every endpoint whose turn comes before the cancellation, also
after failures, and for no other. -/
theorem follows_of_post (apiKey : Option String) (event : WebhookEvent)
    (endpoints : List (String × Response)) (c : Cancellation) :
    Follows apiKey event endpoints c (post apiKey event (c.turns endpoints)) := by
  have hpost : post apiKey event (c.turns endpoints) = c.posting apiKey event none endpoints :=
    postFrom_turns c none endpoints
  have hattempts : ∀ a ∈ (c.posting apiKey event none endpoints).attempts,
      ∃ url, a.request = request url apiKey event := by
    intro a ha
    obtain ⟨turn, -, rfl⟩ := List.mem_map.1 ha
    exact ⟨turn.1, rfl⟩
  rw [hpost]
  constructor
  case urls => exact c.urls_posting endpoints none
  case exchanges => exact c.exchanges_posting endpoints none
  case body =>
    intro a ha
    obtain ⟨url, hrequest⟩ := hattempts a ha
    rw [hrequest]
    exact ⟨rfl, rfl, Codec.decode_encode lawful_webhookEvent event⟩
  case anonymous =>
    rintro rfl a ha
    obtain ⟨url, hrequest⟩ := hattempts a ha
    rw [hrequest]
    rfl
  case bearing =>
    rintro key rfl a ha
    obtain ⟨url, hrequest⟩ := hattempts a ha
    rw [hrequest]
    exact ⟨bearer key, rfl, bears_bearer key⟩
  case cancelled => exact c.result_posting_eq_cancelled_iff endpoints
  case result => exact c.result_posting endpoints
  case log => rfl

/-- The same endpoint twice, and an endpoint that cannot be reached: the first failure is hidden
only by a cancellation that is seen before the last request has been answered. -/
example (event : WebhookEvent) (refused : TransportFault) :
    let endpoints := [("a", .answered 500), ("b", .unreached refused), ("a", .answered 204)]
    (post none event (Cancellation.turns (.before 3) endpoints)).result =
        .error (.status "a" 500) ∧
      (post none event (Cancellation.turns (.during 2) endpoints)).result = .error .cancelled :=
  ⟨rfl, rfl⟩

end Notifier

end RoomWatch
