/-
# The RPC client

Requests go to one of several endpoints, which a counter numbers around.  A view call makes up to
three attempts, and every attempt moves the counter; an endpoint that cannot be reached, that is
busy or that fails is passed over, and any other answer ends the call.  All other requests go to
the endpoint at which the counter stands and leave it there.

* With at most three endpoints a view call finds every endpoint that answers, and the first that
  it finds decides it (`view_finds_answer`).
* A request that is no view call is sent to the endpoint behind the one that the last view call
  tried, and to the first one if there was none; it is not sent to another one when it fails
  (`request_follows_last_view`).
-/
import DeadmktNode.EventDecoding
import DeadmktNode.Runs

/-! ## Answers -/

/-- What a request ends with instead of an answer. -/
inductive ChainError where
  | networkError (text : String)
  | deserializationError (text : String)
  | transactionFailed (text : String)
  | timeout
  | allEndpointsFailed
  | rateLimited (status : ℕ)
deriving DecidableEq, Repr

/-- The texts and the parser that the client takes from third-party crates. -/
structure HttpCrates where
  /-- a status with its reason (`StatusCode`'s `Display`) -/
  statusText : ℕ → String
  /-- `serde_json::from_str` -/
  parse : String → Except String JsonValue

/-- A response; its body may fail to arrive. -/
structure HttpResponse where
  status : ℕ
  contentType : Option String
  text : Except String String

/-- How an attempt to send a request ends. -/
inductive HttpAnswer where
  | failed (error : String)
  | response (resp : HttpResponse)

namespace HttpResponse

/-- A busy endpoint: by its status, or because it sends a page instead of an answer. -/
def checkRateLimit (resp : HttpResponse) : Except ChainError Unit :=
  if resp.status = 429 ∨ resp.status = 403 ∨ resp.status = 503 then
    .error (.rateLimited resp.status)
  else
    match resp.contentType with
    | some ct => if "text/html".toList <:+: ct.toList then .error (.rateLimited resp.status)
        else .ok ()
    | none => .ok ()

def isSuccess (resp : HttpResponse) : Bool := 200 ≤ resp.status && resp.status < 300

def isServerError (resp : HttpResponse) : Bool := 500 ≤ resp.status && resp.status < 600

/-- The body as JSON; the error quotes its first 200 characters. -/
def parseJson (http : HttpCrates) (resp : HttpResponse) : Except ChainError JsonValue :=
  match resp.text with
  | .error e => .error (.networkError ("failed to read response body: " ++ e))
  | .ok text =>
      match http.parse text with
      | .ok json => .ok json
      | .error e => .error (.deserializationError ("HTTP " ++ http.statusText resp.status
          ++ " — not valid JSON: " ++ e ++ " — raw: " ++ String.ofList (text.toList.take 200)))

end HttpResponse

/-- The first `n` bytes of a text, or all of it; `none` if they end within a character. -/
def takeBytes : ℕ → List Char → Option (List Char)
  | 0, _ => some []
  | _, [] => some []
  | n, c :: cs => if c.utf8Size ≤ n then (takeBytes (n - c.utf8Size) cs).map (c :: ·) else none

/-- What an attempt comes to: another attempt, or the end of the call; `none` is a panic. -/
inductive Attempt where
  | retry (error : ChainError)
  | done (result : Option (Except ChainError JsonValue))

/-- One attempt of a view call. -/
def viewAttempt (http : HttpCrates) : HttpAnswer → Attempt
  | .failed error => .retry (.networkError error)
  | .response resp =>
      match resp.checkRateLimit with
      | .error e => .retry e
      | .ok () =>
          if resp.isSuccess then
            match resp.parseJson http with
            | .error e => .done (some (.error e))
            -- the result may be wrapped in an object
            | .ok json => .done (some (.ok ((json.get "result").getD json)))
          else if resp.isServerError then
            .retry (.networkError ("server error: " ++ http.statusText resp.status))
          else
            let text := match resp.text with
              | .ok text => text
              | .error _ => ""
            match http.parse text with
            | .ok _ => .done (some (.error (.deserializationError text)))
            -- the quotation is cut by bytes
            | .error _ => .done ((takeBytes 100 text.toList).map fun preview =>
                .error (.deserializationError ("not valid JSON: " ++ String.ofList preview)))

/-! ## Endpoints -/

/-- The endpoints and the counter. -/
structure SupraClient where
  endpoints : List String
  currentEndpoint : UInt64

namespace SupraClient

/-- A new client starts at its first endpoint. -/
def new (endpoints : List String) : SupraClient := ⟨endpoints, 0⟩

/-- The attempts of a view call. -/
def maxRetries : ℕ := 3

/-- The number of the endpoint at which the counter stands. -/
def currentIndex (c : SupraClient) : ℕ := c.currentEndpoint.toNat % c.endpoints.length

/-- The endpoint at which the counter stands; without endpoints the division fails. -/
def currentBase (c : SupraClient) : Option String := c.endpoints[c.currentIndex]?

/-- The same, and move the counter. -/
def nextEndpoint (c : SupraClient) : Option (String × SupraClient) :=
  c.currentBase.map fun base => (base, { c with currentEndpoint := c.currentEndpoint + 1 })

/-- The loop of a view call: `tries` attempts are left and `tried` were made.  `ask` is what the
attempt with a number gets from an endpoint. -/
def viewLoop (http : HttpCrates) (ask : ℕ → String → HttpAnswer) :
    ℕ → ℕ → SupraClient → Option ChainError →
      Option (Except ChainError JsonValue) × SupraClient
  | 0, _, c, lastError => (some (.error (lastError.getD .allEndpointsFailed)), c)
  | tries + 1, tried, c, _ =>
      match c.nextEndpoint with
      | none => (none, c)
      | some (base, c') =>
          match viewAttempt http (ask tried base) with
          | .retry e => viewLoop http ask tries (tried + 1) c' (some e)
          | .done result => (result, c')

/-- A view call, and the client after it. -/
def viewAbsolute (http : HttpCrates) (ask : ℕ → String → HttpAnswer) (c : SupraClient) :
    Option (Except ChainError JsonValue) × SupraClient :=
  viewLoop http ask maxRetries 0 c none

/-! ### What a view call does -/

/-- The client after some attempts. -/
def moved (c : SupraClient) (attempts : ℕ) : SupraClient :=
  { c with currentEndpoint := c.currentEndpoint + UInt64.ofNat attempts }

@[simp] theorem moved_zero (c : SupraClient) : c.moved 0 = c := by
  show { c with currentEndpoint := c.currentEndpoint + UInt64.ofNat 0 } = c
  simp

theorem moved_moved (c : SupraClient) (m n : ℕ) : (c.moved m).moved n = c.moved (m + n) := by
  unfold moved
  dsimp only
  rw [UInt64.ofNat_add, UInt64.add_assoc]

@[simp] theorem endpoints_moved (c : SupraClient) (n : ℕ) :
    (c.moved n).endpoints = c.endpoints := rfl

/-- With endpoints the counter always stands at one of them. -/
theorem exists_currentBase {c : SupraClient} (hne : c.endpoints ≠ []) :
    ∃ base, c.currentBase = some base ∧ c.nextEndpoint = some (base, c.moved 1) := by
  have hpos : 0 < c.endpoints.length := List.length_pos_iff.mpr hne
  have hlt : c.currentIndex < c.endpoints.length := Nat.mod_lt _ hpos
  refine ⟨c.endpoints[c.currentIndex], List.getElem?_eq_getElem hlt, ?_⟩
  rw [nextEndpoint, currentBase, List.getElem?_eq_getElem hlt, Option.map_some]
  rfl

variable {http : HttpCrates} {ask : ℕ → String → HttpAnswer}

variable (http ask) in
/-- A loop ends with the first attempt that is not passed over, at the endpoint of that attempt;
if all are passed over, with the last of their errors. -/
theorem viewLoop_cases {c : SupraClient} (hne : c.endpoints ≠ []) (tries tried : ℕ)
    (lastError : Option ChainError) :
    (∃ j < tries, ∃ base result, (c.moved j).currentBase = some base ∧
        viewAttempt http (ask (tried + j) base) = .done result ∧
        (∀ i < j, ∀ base, (c.moved i).currentBase = some base →
          ∃ e, viewAttempt http (ask (tried + i) base) = .retry e) ∧
        viewLoop http ask tries tried c lastError = (result, c.moved (j + 1))) ∨
      ((∀ j < tries, ∀ base, (c.moved j).currentBase = some base →
          ∃ e, viewAttempt http (ask (tried + j) base) = .retry e) ∧
        ∃ e, viewLoop http ask tries tried c lastError = (some (.error e), c.moved tries)) := by
  induction tries generalizing c tried lastError with
  | zero =>
      right
      refine ⟨fun j hj => absurd hj (Nat.not_lt_zero j),
        lastError.getD .allEndpointsFailed, ?_⟩
      rw [moved_zero]
      rfl
  | succ tries ih =>
      obtain ⟨base, hbase, hnext⟩ := exists_currentBase hne
      have hzero : ∀ base', (c.moved 0).currentBase = some base' → base' = base := by
        intro base' hbase'
        rw [moved_zero, hbase] at hbase'
        exact (Option.some.inj hbase').symm
      cases hattempt : viewAttempt http (ask tried base) with
      | done result =>
          left
          refine ⟨0, Nat.succ_pos tries, base, result, ?_, hattempt,
            fun i hi => absurd hi (Nat.not_lt_zero i), ?_⟩
          · rw [moved_zero]
            exact hbase
          · rw [viewLoop, hnext]
            dsimp only
            rw [hattempt]
      | retry e =>
          have hloop : viewLoop http ask (tries + 1) tried c lastError
              = viewLoop http ask tries (tried + 1) (c.moved 1) (some e) := by
            rw [viewLoop, hnext]
            dsimp only
            rw [hattempt]
          -- the attempts after the first are those of the rest of the loop
          have hfirst : ∀ j, (∀ i < j, ∀ base, ((c.moved 1).moved i).currentBase = some base →
              ∃ e, viewAttempt http (ask (tried + 1 + i) base) = .retry e) →
              ∀ i < j + 1, ∀ base, (c.moved i).currentBase = some base →
                ∃ e, viewAttempt http (ask (tried + i) base) = .retry e := by
            intro j hrest i hi base' hbase'
            rcases Nat.eq_zero_or_pos i with rfl | hpos
            · rw [hzero base' hbase']
              exact ⟨e, hattempt⟩
            · have hi' := hrest (i - 1) (by omega) base'
              rw [moved_moved, show 1 + (i - 1) = i by omega,
                show tried + 1 + (i - 1) = tried + i by omega] at hi'
              exact hi' hbase'
          rw [hloop]
          rcases ih (c := c.moved 1) hne (tried + 1) (some e) with
            ⟨j, hj, base', result, hbase', hdone, hbefore, hresult⟩ | ⟨hall, e', hresult⟩
          · left
            refine ⟨j + 1, Nat.succ_lt_succ hj, base', result, ?_, ?_, hfirst j hbefore, ?_⟩
            · rw [moved_moved] at hbase'
              rw [Nat.add_comm]
              exact hbase'
            · rw [show tried + (j + 1) = tried + 1 + j by omega]
              exact hdone
            · rw [hresult, moved_moved, show 1 + (j + 1) = j + 1 + 1 by omega]
          · right
            refine ⟨hfirst tries hall, e', ?_⟩
            rw [hresult, moved_moved, Nat.add_comm]

/-! ### Few endpoints -/

/-- As long as the counter does not wrap around, the attempts go round the endpoints. -/
theorem currentIndex_moved {c : SupraClient} {n : ℕ} (hn : c.currentEndpoint.toNat + n < 2 ^ 64) :
    (c.moved n).currentIndex = (c.currentIndex + n) % c.endpoints.length := by
  have hto : (c.currentEndpoint + UInt64.ofNat n).toNat = c.currentEndpoint.toNat + n := by
    rw [UInt64.toNat_add, UInt64.toNat_ofNat', Nat.mod_eq_of_lt (show n < 2 ^ 64 by omega),
      Nat.mod_eq_of_lt hn]
  show (c.currentEndpoint + UInt64.ofNat n).toNat % c.endpoints.length = _
  rw [hto, currentIndex, Nat.mod_add_mod]

/-- Three attempts reach every one of at most three endpoints. -/
theorem exists_attempt_at {c : SupraClient} (hlen : c.endpoints.length ≤ maxRetries)
    (hwrap : c.currentEndpoint.toNat + maxRetries < 2 ^ 64) {base : String}
    (hbase : base ∈ c.endpoints) :
    ∃ j < maxRetries, (c.moved j).currentBase = some base := by
  obtain ⟨k, hk, rfl⟩ := List.getElem_of_mem hbase
  have hlt : c.currentIndex < c.endpoints.length := Nat.mod_lt _ (by omega)
  refine ⟨(k + c.endpoints.length - c.currentIndex) % c.endpoints.length,
    (Nat.mod_lt _ (by omega)).trans_le hlen, ?_⟩
  have hj := Nat.mod_lt (k + c.endpoints.length - c.currentIndex)
    (show 0 < c.endpoints.length by omega)
  have hindex : (c.moved ((k + c.endpoints.length - c.currentIndex) % c.endpoints.length)
      ).currentIndex = k := by
    rw [currentIndex_moved (by omega), Nat.add_mod_mod,
      show c.currentIndex + (k + c.endpoints.length - c.currentIndex)
        = k + c.endpoints.length by omega,
      Nat.add_mod_right, Nat.mod_eq_of_lt hk]
  rw [currentBase, hindex, endpoints_moved, List.getElem?_eq_getElem hk]

/-- **View calls.**  With at most three endpoints, of which one ends every attempt, a view call
is ended by an endpoint: the first, from the counter on, whose attempt is not passed over.  It
fails for want of an answer only where all endpoints are passed over. -/
theorem view_finds_answer {c : SupraClient} (hlen : c.endpoints.length ≤ maxRetries)
    (hwrap : c.currentEndpoint.toNat + maxRetries < 2 ^ 64) {alive : String}
    (hmem : alive ∈ c.endpoints)
    (halive : ∀ j < maxRetries, ∃ result, viewAttempt http (ask j alive) = .done result) :
    ∃ j < maxRetries, ∃ base ∈ c.endpoints, ∃ result, (c.moved j).currentBase = some base ∧
      viewAttempt http (ask j base) = .done result ∧
      (∀ i < j, ∀ base, (c.moved i).currentBase = some base →
        ∃ e, viewAttempt http (ask i base) = .retry e) ∧
      c.viewAbsolute http ask = (result, c.moved (j + 1)) := by
  have hne : c.endpoints ≠ [] := List.ne_nil_of_mem hmem
  rcases viewLoop_cases http ask hne maxRetries 0 none with
    ⟨j, hj, base, result, hbase, hdone, hbefore, hresult⟩ | ⟨hall, -⟩
  · simp only [Nat.zero_add] at hdone hbefore
    refine ⟨j, hj, base, ?_, result, hbase, hdone, hbefore, hresult⟩
    exact List.mem_of_getElem? hbase
  · obtain ⟨j, hj, hat⟩ := exists_attempt_at hlen hwrap hmem
    obtain ⟨e, he⟩ := hall j hj alive hat
    obtain ⟨result, hdone⟩ := halive j hj
    rw [Nat.zero_add, hdone] at he
    cases he

/-! ## Runs -/

/-- What is asked of a client. -/
inductive Request where
  | view (ask : ℕ → String → HttpAnswer)
  /-- a request to the endpoint at which the counter stands, whatever comes of it -/
  | other

/-- The client as a system; a panic ends it. -/
def system (http : HttpCrates) : System SupraClient Request where
  step c
    | .view ask => (c.viewAbsolute http ask).1.map fun _ => (c.viewAbsolute http ask).2
    | .other => some c

/-- A view call that returns has made between one and three attempts. -/
theorem exists_moved_of_step {c c' : SupraClient} (hne : c.endpoints ≠ [])
    {ask : ℕ → String → HttpAnswer} (h : (system http).step c (.view ask) = some c') :
    ∃ j < maxRetries, c' = c.moved (j + 1) := by
  obtain ⟨result, hresult, rfl⟩ := Option.map_eq_some_iff.mp h
  rcases viewLoop_cases http ask hne maxRetries 0 none with
    ⟨j, hj, base, result, -, -, -, hloop⟩ | ⟨-, e, hloop⟩
  · exact ⟨j, hj, congrArg Prod.snd hloop⟩
  · exact ⟨maxRetries - 1, by decide, congrArg Prod.snd hloop⟩

/-- The endpoints stay, and every request moves the counter by at most three. -/
structure Counted (endpoints : List String) (requests : ℕ) (c : SupraClient) : Prop where
  endpoints_eq : c.endpoints = endpoints
  le : c.currentEndpoint.toNat ≤ maxRetries * requests

theorem Counted.step {endpoints : List String} (hne : endpoints ≠ []) {c c' : SupraClient}
    {requests : ℕ} {r : Request} (h : Counted endpoints requests c)
    (hstep : (system http).step c r = some c') : Counted endpoints (requests + 1) c' := by
  have hle := h.le
  unfold maxRetries at hle
  cases r with
  | other =>
      obtain rfl := Option.some.inj hstep
      refine ⟨h.endpoints_eq, ?_⟩
      unfold maxRetries
      omega
  | view ask =>
      have hne' : c.endpoints ≠ [] := by
        rw [h.endpoints_eq]
        exact hne
      obtain ⟨j, hj, rfl⟩ := exists_moved_of_step hne' hstep
      refine ⟨h.endpoints_eq, ?_⟩
      show (c.currentEndpoint + UInt64.ofNat (j + 1)).toNat ≤ _
      have hmod := Nat.mod_le (c.currentEndpoint.toNat + (UInt64.ofNat (j + 1)).toNat) (2 ^ 64)
      have hj' : (UInt64.ofNat (j + 1)).toNat ≤ j + 1 := by
        rw [UInt64.toNat_ofNat']
        exact Nat.mod_le ..
      rw [UInt64.toNat_add]
      unfold maxRetries at hj ⊢
      omega

theorem counted_of_run {endpoints : List String} (hne : endpoints ≠ []) {rs : List Request}
    {c : SupraClient} (hrun : (system http).run (new endpoints) rs = some c) :
    Counted endpoints rs.length c := by
  have hnew : Counted endpoints ([] : List Request).length (new endpoints) :=
    ⟨rfl, Nat.zero_le _⟩
  refine (system http).run_history (I := fun past c => Counted endpoints past.length c) ?_ hnew hrun
  intro past c r c' hc hstep
  rw [List.length_append, List.length_singleton]
  exact hc.step hne hstep

/-- Requests that are no view calls leave the client as it is. -/
theorem run_other {rs : List Request} (hother : ∀ r ∈ rs, r = .other) (c : SupraClient) :
    (system http).run c rs = some c := by
  induction rs with
  | nil => rfl
  | cons r rs ih =>
      obtain rfl := hother r List.mem_cons_self
      rw [System.run_cons]
      exact ih fun r hr => hother r (List.mem_cons_of_mem _ hr)

/-- **All other requests.**  In a run of a new client a request that is no view call is sent to
the first endpoint, if there was no view call before, and else to the endpoint behind the one that
the last attempt of the last view call went to, be it the one that answered; among two or more
endpoints this is another one.  What came of the requests in between plays no part. -/
theorem request_follows_last_view {endpoints : List String} (hne : endpoints ≠ [])
    {rs : List Request} {c : SupraClient} (hlen : maxRetries * rs.length < 2 ^ 64)
    (hrun : (system http).run (new endpoints) rs = some c) :
    ((∀ r ∈ rs, r = .other) → c.currentBase = endpoints.head?) ∧
      ∀ before ask after, rs = before ++ .view ask :: after → (∀ r ∈ after, r = .other) →
        ∃ c₀ last, (system http).run (new endpoints) before = some c₀ ∧ last < maxRetries ∧
          c = c₀.moved (last + 1) ∧ (c₀.viewAbsolute http ask).2 = c ∧
          c.currentIndex = ((c₀.moved last).currentIndex + 1) % endpoints.length ∧
          (2 ≤ endpoints.length → c.currentIndex ≠ (c₀.moved last).currentIndex) := by
  constructor
  · intro hother
    rw [run_other hother] at hrun
    obtain rfl := Option.some.inj hrun
    show endpoints[0 % endpoints.length]? = _
    rw [Nat.zero_mod, List.head?_eq_getElem?]
  · rintro before ask after rfl hafter
    rw [System.run_append] at hrun
    obtain ⟨c₀, hbefore, hrest⟩ := Option.bind_eq_some_iff.mp hrun
    obtain ⟨c₁, hview, hafterRun⟩ := Option.bind_eq_some_iff.mp hrest
    rw [run_other hafter] at hafterRun
    obtain rfl := Option.some.inj hafterRun
    have hcounted := counted_of_run hne hbefore
    have hne₀ : c₀.endpoints ≠ [] := by
      rw [hcounted.endpoints_eq]
      exact hne
    -- the last view ends with the attempt `last`, and nothing moves the counter after it
    obtain ⟨last, hlast, rfl⟩ := exists_moved_of_step hne₀ hview
    obtain ⟨-, -, hclient⟩ := Option.map_eq_some_iff.mp hview
    have hpos : 0 < endpoints.length := List.length_pos_iff.mpr hne
    have hle := hcounted.le
    unfold maxRetries at hlen hlast hle
    rw [List.length_append, List.length_cons] at hlen
    have hindex : (c₀.moved (last + 1)).currentIndex
        = ((c₀.moved last).currentIndex + 1) % endpoints.length := by
      rw [currentIndex_moved (by omega), currentIndex_moved (by omega), hcounted.endpoints_eq,
        Nat.mod_add_mod, Nat.add_assoc]
    refine ⟨c₀, last, hbefore, hlast, rfl, hclient, hindex, fun htwo heq => ?_⟩
    have hlt : (c₀.moved last).currentIndex < endpoints.length := by
      rw [← hcounted.endpoints_eq]
      rw [← hcounted.endpoints_eq] at hpos
      exact Nat.mod_lt _ hpos
    rw [hindex] at heq
    -- the next endpoint is another one, also where the indices wrap
    rcases Nat.lt_or_ge ((c₀.moved last).currentIndex + 1) endpoints.length with hsmall | hlarge
    · rw [Nat.mod_eq_of_lt hsmall] at heq
      omega
    · rw [show (c₀.moved last).currentIndex + 1 = endpoints.length by omega, Nat.mod_self] at heq
      omega

/-! ## Two endpoints

The first endpoint cannot be reached, the second one answers with an empty array. -/

def sampleCrates : HttpCrates where
  statusText status := if status = 200 then "200 OK" else ""
  parse text := if text = "[]" then .ok (.array []) else .error ""

def sampleAsk (_ : ℕ) (base : String) : HttpAnswer :=
  if base = "https://b" then .response ⟨200, some "application/json", .ok "[]"⟩
  else .failed "connection refused"

def sampleClient : SupraClient := new ["https://a", "https://b"]

theorem viewAttempt_sampleAsk (j : ℕ) :
    viewAttempt sampleCrates (sampleAsk j "https://b") = .done (some (.ok (.array []))) := rfl

/-- The second endpoint is found. -/
theorem view_finds_second :
    ∃ j < 3, ∃ base ∈ sampleClient.endpoints, ∃ result,
      viewAttempt sampleCrates (sampleAsk j base) = .done result ∧
      sampleClient.viewAbsolute sampleCrates sampleAsk = (result, sampleClient.moved (j + 1)) := by
  have hmem : "https://b" ∈ sampleClient.endpoints := by decide
  have halive : ∀ j < maxRetries, ∃ result,
      viewAttempt sampleCrates (sampleAsk j "https://b") = .done result :=
    fun j _ => ⟨_, viewAttempt_sampleAsk j⟩
  obtain ⟨j, hj, base, hbase, result, -, hdone, -, hresult⟩ :=
    view_finds_answer (by decide) (by decide) hmem halive
  exact ⟨j, hj, base, hbase, result, hdone, hresult⟩

/-- After that the next request goes to the endpoint that cannot be reached. -/
theorem request_goes_back :
    ∃ c, (system sampleCrates).run sampleClient [.view sampleAsk] = some c ∧
      c.currentBase = some "https://a" ∧
      ∃ c₀ last, (system sampleCrates).run sampleClient [] = some c₀ ∧
        c.currentIndex = ((c₀.moved last).currentIndex + 1) % 2 := by
  have hrun : (system sampleCrates).run (new ["https://a", "https://b"]) [.view sampleAsk]
      = some (sampleClient.moved 2) := rfl
  obtain ⟨c₀, last, hbefore, -, -, -, hindex, -⟩ :=
    (request_follows_last_view (by decide) (by decide) hrun).2 [] sampleAsk [] rfl (by simp)
  exact ⟨_, hrun, by decide, c₀, last, hbefore, hindex⟩

end SupraClient
