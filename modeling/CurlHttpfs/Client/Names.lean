import CurlHttpfs.Client.Residue

/-!
# What the names of objects do not decide

A call names the objects it allocates: its `CurlRequest` and its header list.
Which names these are shows neither in what is sent nor in the answers, so
calls of one client can be compared with calls of a client that shares the
supply of names with others.
-/

namespace CurlHttpfs.Client

open Http Curl

/-! ## Handles -/

/-- The pointer without the name of its object. -/
def anonymousPointer : DataPointer → DataPointer
  | .curlRequest _ => .curlRequest 0
  | .headerCollection => .headerCollection
  | .body => .body

/-- The options without the names of objects and without the private data,
which no transfer reads. -/
def anonymous (easy : Easy) : Easy :=
  { easy with
    headerData := easy.headerData.map anonymousPointer
    writeData := easy.writeData.map anonymousPointer
    privateData := none
    httpHeader := easy.httpHeader.map fun list => ⟨0, list.lines⟩ }

/-- Everything a transfer sends and how it connects. -/
structure Sent where
  /-- The URL. -/
  url : Str
  /-- The method and the payload. -/
  wire : WireRequest
  /-- The custom header lines. -/
  headers : List Str
  /-- Whether redirects are followed. -/
  followLocation : Bool
  /-- The options of the connection. -/
  connection : ConnectionOptions

/-- What a transfer sends that starts with these options. -/
def sent (easy : Easy) : Sent where
  url := easy.url
  wire := easy.wire
  headers := easy.sentHeaders
  followLocation := easy.followLocation
  connection := easy.connection

theorem sent_anonymous (easy : Easy) : sent (anonymous easy) = sent easy := by
  have hheaders : (anonymous easy).sentHeaders = easy.sentHeaders := by
    simp only [Easy.sentHeaders, anonymous, Option.map_map]
    rfl
  simp only [sent, hheaders]
  rfl

/-- The options differ in names at most. -/
def Alike (a b : Easy) : Prop := anonymous a = anonymous b

section

variable {a b : Easy}

/-- Handles that are alike send the same. -/
theorem Alike.sent (h : Alike a b) : sent a = Client.sent b := by
  rw [← sent_anonymous a, ← sent_anonymous b, h]

theorem anonymous_install (object : ObjectId) (easy : Easy) :
    anonymous (CurlRequest.install object easy) =
      { CurlRequest.install 0 (anonymous easy) with privateData := none } := rfl

/-- Constructors of two requests leave them alike. -/
theorem Alike.install (h : Alike a b) (object object' : ObjectId) :
    Alike (CurlRequest.install object a) (CurlRequest.install object' b) := by
  rw [Alike, anonymous_install, anonymous_install, h]

theorem anonymous_setUrl (url : Str) (easy : Easy) :
    anonymous (CurlRequest.setUrlOption url easy) = CurlRequest.setUrlOption url (anonymous easy) := rfl

theorem Alike.setUrl (h : Alike a b) (url : Str) :
    Alike (CurlRequest.setUrlOption url a) (CurlRequest.setUrlOption url b) := by
  rw [Alike, anonymous_setUrl, anonymous_setUrl, h]

/-- A list is kept without the name of its owner. -/
theorem anonymous_setHeaders (object : ObjectId) (lines : List Str) (easy : Easy) :
    anonymous (CurlRequest.setHeaders (SList.ofLines object lines) easy) =
      CurlRequest.setHeaders (SList.ofLines 0 lines) (anonymous easy) := by
  unfold SList.ofLines
  by_cases hlines : lines = []
  · rw [if_pos hlines, if_pos hlines]
    rfl
  · rw [if_neg hlines, if_neg hlines]
    rfl

theorem Alike.setHeaders (h : Alike a b) (object object' : ObjectId) (lines : List Str) :
    Alike (CurlRequest.setHeaders (SList.ofLines object lines) a)
      (CurlRequest.setHeaders (SList.ofLines object' lines) b) := by
  rw [Alike, anonymous_setHeaders, anonymous_setHeaders object', h]

/-- The method attributes of a queued call. -/
def attrs : Kind → Easy → Easy
  | .get => CurlRequest.setGetAttrs
  | .head => CurlRequest.setHeadAttrs
  | .put | .delete | .post => id

theorem anonymous_attrs (kind : Kind) (easy : Easy) :
    anonymous (attrs kind easy) = attrs kind (anonymous easy) := by
  cases kind <;> rfl

theorem Alike.attrs (h : Alike a b) (kind : Kind) : Alike (attrs kind a) (Client.attrs kind b) := by
  rw [Alike, anonymous_attrs, anonymous_attrs, h]

end

/-! ## Calls -/

section

variable [HeaderMap]

/-- What a queued call writes on the handle, step by step. -/
theorem start_queued_curl (client : MultiCurlClient) {op : Operation} (hop : op.kind.queued = true) :
    (start client op).client.curl =
      attrs op.kind (CurlRequest.setHeaders (SList.ofLines client.nextObject op.headerLines)
        (CurlRequest.setUrlOption op.url (CurlRequest.install client.nextObject client.curl))) := by
  cases op with
  | get info | head info => rfl
  | put info | delete info | post info => cases hop

/-- What a blocking call leaves on the handle, without names. -/
theorem anonymous_startBlocking (client : MultiCurlClient) (url : Str) (lines : List Str) {options : Easy → Easy}
    (hoptions : ∀ easy, anonymous (options easy) = options (anonymous easy)) :
    anonymous (startBlocking client url lines options).client.curl =
      { options { anonymous client.curl with url := url } with httpHeader := SList.ofLines 0 lines } := by
  have hlist (easy : Easy) : anonymous { easy with httpHeader := SList.ofLines client.nextObject lines } =
      { anonymous easy with httpHeader := SList.ofLines 0 lines } := by
    unfold SList.ofLines
    by_cases hlines : lines = []
    · rw [if_pos hlines, if_pos hlines]
      rfl
    · rw [if_neg hlines, if_neg hlines]
      rfl
  change anonymous { options { client.curl with url := url } with httpHeader := _ } = _
  rw [hlist, hoptions]
  rfl

section

variable {client client' : MultiCurlClient} {op : Operation}

/-- Blocking calls on handles that are alike leave them alike. -/
theorem Alike.start_blocking (h : Alike client.curl client'.curl) (hop : op.kind.queued = false) :
    Alike (start client op).client.curl (start client' op).client.curl := by
  have hboth (options : Easy → Easy) (hoptions : ∀ easy, anonymous (options easy) = options (anonymous easy))
      (url : Str) (lines : List Str) {counted counted' : MultiCurlClient}
      (hcurl : Alike counted.curl counted'.curl) :
      Alike (startBlocking counted url lines options).client.curl
        (startBlocking counted' url lines options).client.curl := by
    rw [Alike, anonymous_startBlocking counted url lines hoptions,
      anonymous_startBlocking counted' url lines hoptions, hcurl]
  cases op with
  | get info | head info => cases hop
  | put info =>
    exact hboth (fun easy => Easy.setPostFields { easy with customRequest := some "PUT".toList } info.bufferIn)
      (fun _ => rfl) _ _ h
  | delete info =>
    exact hboth (fun easy => { easy with customRequest := some "DELETE".toList, followLocation := true })
      (fun _ => rfl) _ _ h
  | post info => exact hboth (fun easy => easy.setPost.setPostFields info.bufferIn) (fun _ => rfl) _ _ h

/-- Without a live request a callback does not look at names. -/
theorem deliver_anonymous (easy : Easy) (own : RequestInfo) (event : TransferEvent) :
    deliver (anonymous easy) ⟨none, own⟩ event = deliver easy ⟨none, own⟩ event := by
  cases event with
  | header d =>
    simp only [deliver, anonymous]
    cases easy.headerFunction with
    | none => rfl
    | some function =>
      cases easy.headerData with
      | none => cases function <;> rfl
      | some pointer => cases function <;> cases pointer <;> rfl
  | body d =>
    simp only [deliver, anonymous]
    cases easy.writeFunction with
    | none => rfl
    | some function =>
      cases easy.writeData with
      | none => cases function <;> rfl
      | some pointer => cases function <;> cases pointer <;> rfl

/-- Nor does it make a request live. -/
theorem deliver_request {easy : Easy} {own : RequestInfo} {event : TransferEvent} {memory : Memory}
    (h : deliver easy ⟨none, own⟩ event = .ok memory) : memory = ⟨none, memory.requestInfo⟩ := by
  cases event with
  | header d =>
    simp only [deliver, Memory.onRequest] at h
    split at h
    · cases h
    · cases hcallback : requestHeaderCallback d own.headerCollection with
      | error fault =>
        rw [hcallback] at h
        cases h
      | ok written =>
        rw [hcallback] at h
        cases h
        rfl
    · cases h
  | body d =>
    simp only [deliver, Memory.onRequest] at h
    split at h
    · cases h
    · cases hcallback : requestWriteCallback d own.body with
      | error fault =>
        rw [hcallback] at h
        cases h
      | ok written =>
        rw [hcallback] at h
        cases h
        rfl
    · cases h

/-- A blocking transfer does not look at names. -/
theorem transfer_anonymous (easy : Easy) (own : RequestInfo) (events : List TransferEvent) :
    transfer (anonymous easy) ⟨none, own⟩ events = transfer easy ⟨none, own⟩ events := by
  induction events generalizing own with
  | nil => rfl
  | cons event events ih =>
    unfold transfer at ih ⊢
    rw [List.foldlM_cons, List.foldlM_cons, deliver_anonymous]
    cases hdeliver : deliver easy ⟨none, own⟩ event with
    | error fault => rfl
    | ok memory =>
      rw [deliver_request hdeliver]
      exact ih memory.requestInfo

/-- What a blocking transfer starts from. -/
theorem start_blocking_memory (client : MultiCurlClient) (hop : op.kind.queued = false) :
    (start client op).request = none ∧
      (start client op).client.requestInfo = { client.requestInfo with url := op.url } := by
  cases op with
  | get info | head info => cases hop
  | put info | delete info | post info => exact ⟨rfl, rfl⟩

/-- A blocking call transfers into the client's `RequestInfo` and answers from there. -/
theorem complete_blocking_eq (lib : Library) (client : MultiCurlClient) (hop : op.kind.queued = false)
    (outcome : Outcome) :
    complete lib (start client op) op outcome =
      (transfer (start client op).client.curl ⟨none, { client.requestInfo with url := op.url }⟩
        outcome.events).map fun memory =>
          finishBlocking lib { (start client op).client with requestInfo := memory.requestInfo }
            (decide (op.kind = .post)) outcome := by
  obtain ⟨hrequest, hinfo⟩ := start_blocking_memory client hop
  unfold complete
  rw [hrequest, hinfo, Option.map_none]
  cases transfer (start client op).client.curl ⟨none, { client.requestInfo with url := op.url }⟩
    outcome.events with
  | error fault => rfl
  | ok memory =>
    cases op with
    | get _ | head _ => cases hop
    | put _ | delete _ | post _ => rfl

/-- A blocking call gives the same answer on handles that are alike, and
leaves the same behind in the client's `RequestInfo`. -/
theorem Alike.complete_blocking (h : Alike client.curl client'.curl)
    (hinfo : client.requestInfo = client'.requestInfo) (hop : op.kind.queued = false) (lib : Library)
    (outcome : Outcome) :
    (complete lib (start client op) op outcome).map (fun done => (done.1.requestInfo, done.2)) =
      (complete lib (start client' op) op outcome).map (fun done => (done.1.requestInfo, done.2)) := by
  have hcurl : anonymous (start client op).client.curl = anonymous (start client' op).client.curl :=
    h.start_blocking hop
  rw [complete_blocking_eq lib client hop, complete_blocking_eq lib client' hop, hinfo, ← transfer_anonymous,
    hcurl, transfer_anonymous]
  cases transfer (start client' op).client.curl ⟨none, { client'.requestInfo with url := op.url }⟩
    outcome.events <;> rfl

/-- The end of a queued call. -/
def endQueued (client : MultiCurlClient) (op : Operation) (response : HTTPResponse) : Answer :=
  match op with
  | .get info => (finishGet client info response).2
  | _ => { response := response }

/-- The answer to a queued call is the response and what the handlers make of it. -/
theorem endQueued_eq (client client' : MultiCurlClient) (op : Operation) (response : HTTPResponse) :
    endQueued client op response = endQueued client' op response := by
  cases op with
  | get info =>
    simp only [endQueued, finishGet]
    split <;> rfl
  | head info | put info | delete info | post info => rfl

/-- A queued call leaves the client's own `RequestInfo` alone, and its answer
is the response and what the handlers make of it. -/
theorem complete_queued_info {lib : Library} {outcome : Outcome} {done : MultiCurlClient × Answer}
    (hop : op.kind.queued = true) (h : complete lib (start client op) op outcome = .ok done) :
    done.1.requestInfo = client.requestInfo ∧ done.2 = endQueued client op done.2.response := by
  obtain ⟨hroute, hsome⟩ := start_queued_route client hop
  obtain ⟨request, hrequest⟩ := Option.isSome_iff_exists.mp hsome
  have htransfer := transfer_request hroute request.info (start client op).client.requestInfo outcome.events
  unfold complete at h
  rw [hrequest, Option.map_some, htransfer] at h
  cases hfold : outcome.events.foldlM receiveRequest request.info with
  | error fault =>
    rw [hfold] at h
    cases h
  | ok info =>
    rw [hfold] at h
    cases op with
    | get get =>
      rw [← Except.ok.inj h]
      refine ⟨?_, ?_⟩
      · rw [finishGet_client]
        rfl
      · rw [finishGet_response]
        exact endQueued_eq _ client (.get get) _
    | head _ =>
      rw [← Except.ok.inj h]
      exact ⟨rfl, rfl⟩
    | put _ | delete _ | post _ => cases hop

end

/-! ## Sequences -/

/-- The sequence of calls returns with these records and leaves this client behind. -/
def Reaches (lib : Library) (client : MultiCurlClient) (calls : List Call) (next : MultiCurlClient)
    (records : List Record) : Prop :=
  ∀ more, run lib client (calls ++ more) = records ++ run lib next more

theorem reaches_nil (lib : Library) (client : MultiCurlClient) : Reaches lib client [] client [] :=
  fun _ => rfl

section

variable {lib : Library} {client next : MultiCurlClient} {calls : List Call} {records : List Record}

/-- One more call returns. -/
theorem Reaches.snoc (h : Reaches lib client calls next records) (call : Call) {done : MultiCurlClient × Answer}
    (hdone : complete lib (start next call.op) call.op call.outcome = .ok done) :
    Reaches lib client (calls ++ [call]) done.1 (records ++ [⟨call, start next call.op, .ok done.2⟩]) := by
  intro more
  rw [List.append_assoc, h, List.singleton_append, run_cons_ok more hdone, List.append_assoc,
    List.singleton_append]

/-- One more call ends the sequence. -/
theorem Reaches.fault (h : Reaches lib client calls next records) (call : Call) {fault : Fault}
    (hfault : complete lib (start next call.op) call.op call.outcome = .error fault) :
    run lib client (calls ++ [call]) = records ++ [⟨call, start next call.op, .error fault⟩] := by
  rw [h, run_cons_error [] hfault]

/-- The last record of a sequence with one more call. -/
theorem Reaches.last (h : Reaches lib client calls next records) (call : Call) :
    ∃ record, (run lib client (calls ++ [call])).getLast? = some record ∧ record.call = call ∧
      record.started = start next call.op := by
  rw [h]
  cases hdone : complete lib (start next call.op) call.op call.outcome with
  | error fault =>
    rw [run_cons_error [] hdone]
    exact ⟨_, List.getLast?_concat, rfl, rfl⟩
  | ok done =>
    rw [run_cons_ok [] hdone]
    exact ⟨_, List.getLast?_concat, rfl, rfl⟩

/-- The transfer of one more call of the client, whatever comes of it, starts
with options that send the same as these. -/
def SendsAs (lib : Library) (client : MultiCurlClient) (calls : List Call) (op : Operation) (easy : Easy) : Prop :=
  ∀ outcome, ∃ record, (run lib client (calls ++ [⟨op, outcome⟩])).getLast? = some record ∧
    record.call = ⟨op, outcome⟩ ∧ sent easy = sent record.started.client.curl

/-- Options that are alike send the same. -/
theorem Reaches.sendsAs (h : Reaches lib client calls next records) {op : Operation} {easy : Easy}
    (halike : Alike easy (start next op).client.curl) : SendsAs lib client calls op easy := by
  intro outcome
  obtain ⟨record, hlast, hcall, hstarted⟩ := h.last ⟨op, outcome⟩
  refine ⟨record, hlast, hcall, ?_⟩
  rw [hstarted]
  exact halike.sent

end

end

end CurlHttpfs.Client
