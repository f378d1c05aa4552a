import CurlHttpfs.Client.Residue

/-!
# From a transcript to a response

A transcript interleaves header lines and body chunks. Whatever the
interleaving, the decoder sees the lines and the body is the concatenation of
the chunks, so a response is decided by those two, the status code and the
result. Both response builders start from there; they part where one of them
hides the stored status line or fills in the URL and the other does not.
-/

namespace CurlHttpfs.Client

open Http Curl

/-- The header lines of a transfer, in order. -/
def deliveredLines : List TransferEvent → List Str
  | [] => []
  | .header d :: events => d.contents :: deliveredLines events
  | .body _ :: events => deliveredLines events

/-- The header lines of a transfer, if any, start with a status line. -/
def OpensWithStatus (events : List TransferEvent) : Prop :=
  ∀ line ∈ (deliveredLines events).head?, isStatusLine (trimLineEnd line) = true

instance (events : List TransferEvent) : Decidable (OpensWithStatus events) :=
  inferInstanceAs (Decidable (∀ line ∈ (deliveredLines events).head?, _))

section

variable [HeaderMap]

/-! ## What a transfer leaves in its target -/

/-- The callbacks of a transfer collect its lines and concatenate its chunks. -/
theorem foldlM_receiveRequest (events : List TransferEvent) (info : RequestInfo) :
    events.foldlM receiveRequest info =
      (collectAll info.headerCollection (deliveredLines events)).map fun c =>
        { info with body := info.body ++ bodyBytes events, headerCollection := c } := by
  induction events generalizing info with
  | nil =>
    simp only [List.foldlM_nil, deliveredLines, bodyBytes, List.append_nil]
    rfl
  | cons event events ih =>
    rw [List.foldlM_cons, ← receiveOwn_eq]
    cases event with
    | header d =>
      rw [receiveOwn_header, deliveredLines, collectAll_cons, bodyBytes, receiveOwn_eq]
      cases collectHeader info.headerCollection d.contents with
      | error fault => rfl
      | ok c => exact ih { info with headerCollection := c }
    | body d =>
      rw [receiveOwn_body, deliveredLines, bodyBytes, receiveOwn_eq, ← List.append_assoc]
      exact ih { info with body := info.body ++ d.contents }

/-- Every map of a collection holds a nonempty status line. -/
def Marked (collection : List HTTPHeaders) : Prop :=
  ∀ headers ∈ collection, ∃ status, HeaderMap.find? headers responseStatusKey = some status ∧ status ≠ []

/-- A block is opened with its status line. -/
theorem openBlock_marked [LawfulHeaderMap] {collection : List HTTPHeaders} (header : Str)
    (h : Marked collection) : Marked (openBlock collection header) := by
  unfold openBlock
  split
  · rename_i hs
    intro headers hm
    rcases List.mem_append.mp hm with hm | hm
    · exact h headers hm
    · refine ⟨header, ?_, ?_⟩
      · rw [List.mem_singleton.mp hm, LawfulHeaderMap.find?_insert, if_pos rfl,
          LawfulHeaderMap.find?_empty, Option.none_or]
      · intro hempty
        rw [hempty] at hs
        exact absurd hs (by decide)
  · exact h

/-- A stored status line stays, whatever field is inserted behind it. -/
theorem insertBack_marked [LawfulHeaderMap] {collection written : List HTTPHeaders} {name value : Str}
    (h : Marked collection) (hinsert : insertBack collection name value = .ok written) :
    Marked written := by
  unfold insertBack at hinsert
  cases hback : collection.getLast? with
  | none =>
    rw [hback] at hinsert
    cases hinsert
  | some back =>
    rw [hback] at hinsert
    obtain rfl := Except.ok.inj hinsert
    intro headers hm
    rcases List.mem_append.mp hm with hm | hm
    · exact h headers (List.dropLast_subset _ hm)
    · obtain ⟨status, hstatus, hne⟩ := h back (List.mem_of_getLast? hback)
      refine ⟨status, ?_, hne⟩
      rw [List.mem_singleton.mp hm, LawfulHeaderMap.find?_insert, hstatus, Option.some_or]

/-- Every line keeps the status lines stored. -/
theorem collectHeader_marked [LawfulHeaderMap] {collection written : List HTTPHeaders} {line : Str}
    (h : Marked collection) (hline : collectHeader collection line = .ok written) : Marked written := by
  have hopen := openBlock_marked (trimLineEnd line) h
  rcases colon_split (trimLineEnd line) with hplain | ⟨name, rest, hname, hsplit⟩
  · rw [collectHeader_plain hplain] at hline
    exact Except.ok.inj hline ▸ hopen
  · rw [collectHeader_field hname hsplit] at hline
    cases rest with
    | nil => cases hline
    | cons c rest => exact insertBack_marked hopen hline

/-- The collection of a whole transcript holds a status line in every map. -/
theorem collectAll_marked [LawfulHeaderMap] {collection written : List HTTPHeaders} {lines : List Str}
    (h : Marked collection) (hlines : collectAll collection lines = .ok written) : Marked written := by
  induction lines generalizing collection with
  | nil => exact Except.ok.inj hlines ▸ h
  | cons line lines ih =>
    rw [collectAll_cons] at hlines
    cases hline : collectHeader collection line with
    | error fault =>
      rw [hline] at hlines
      cases hlines
    | ok next =>
      rw [hline] at hlines
      exact ih (collectHeader_marked h hline) hlines

/-- A collection that was opened stays open. -/
theorem collectAll_ne_nil {collection written : List HTTPHeaders} {lines : List Str}
    (h : collection ≠ [] ∨ ∃ line ∈ lines.head?, isStatusLine (trimLineEnd line) = true)
    (hlines : collectAll collection lines = .ok written) : written ≠ [] := by
  induction lines generalizing collection with
  | nil =>
    rcases h with hne | ⟨line, hm, -⟩
    · exact Except.ok.inj hlines ▸ hne
    · cases hm
  | cons line lines ih =>
    have hfirst : collection ≠ [] ∨ isStatusLine (trimLineEnd line) = true := by
      rcases h with hne | ⟨line', hm, hs⟩
      · exact .inl hne
      · exact .inr (Option.some.inj hm ▸ hs)
    obtain ⟨hbad, hgood⟩ := collectHeader_cases hfirst
    rw [collectAll_cons] at hlines
    by_cases hcolon : EndsInFirstColon (trimLineEnd line)
    · rw [hbad hcolon] at hlines
      cases hlines
    · obtain ⟨next, hnext, hne⟩ := hgood hcolon
      rw [hnext] at hlines
      exact ih (.inl hne) hlines

/-! ## Two response builders -/

/-- Two responses a caller treats alike. -/
structure Agree (multi blocking : HTTPResponse) : Prop where
  /-- The bodies are equal. -/
  body : multi.body = blocking.body
  /-- The headers are equal as sets of entries. -/
  headers : ∀ entry, entry ∈ HeaderMap.entries multi.headers ↔ entry ∈ HeaderMap.entries blocking.headers
  /-- The errors are equal. -/
  requestError : multi.requestError = blocking.requestError
  /-- The URLs are equal. -/
  url : multi.url = blocking.url
  /-- `CheckMulti` does not expose the stored status line. -/
  multi_hidden : HeaderMap.hasHeader multi.headers responseStatusKey = false
  /-- `TransformResponseCurl` does not expose the stored status line. -/
  blocking_hidden : HeaderMap.hasHeader blocking.headers responseStatusKey = false

/-- Without a block no builder returns a header. -/
theorem transformHeaders_nil : transformHeaders [] = HeaderMap.empty := rfl

theorem checkMultiHeaders_nil : checkMultiHeaders [] = HeaderMap.empty := rfl

/-- `TransformResponseCurl` copies the stored status line into the response. -/
theorem transformHeaders_marked [LawfulHeaderMap] {collection : List HTTPHeaders}
    (h : Marked collection) (hne : collection ≠ []) :
    HeaderMap.hasHeader (transformHeaders collection) responseStatusKey = true := by
  obtain ⟨status, hstatus, -⟩ := h _ (List.getLast_mem hne)
  simp only [HeaderMap.hasHeader, transformHeaders, List.getLast?_eq_some_getLast hne,
    HeaderMap.find?_insertAll, LawfulHeaderMap.find?_empty, Option.none_or]
  rw [← LawfulHeaderMap.find?_entries, hstatus]
  rfl

/-- An empty map has no header. -/
theorem hasHeader_empty [LawfulHeaderMap] (name : Str) :
    HeaderMap.hasHeader HeaderMap.empty name = false := by
  rw [HeaderMap.hasHeader, LawfulHeaderMap.find?_empty]
  rfl

/-- The collection a transcript leaves is empty exactly when it has no line,
and otherwise every map holds its status line. -/
theorem collectAll_fresh [LawfulHeaderMap] {events : List TransferEvent} {written : List HTTPHeaders}
    (hopens : OpensWithStatus events) (hlines : collectAll [] (deliveredLines events) = .ok written) :
    Marked written ∧ (written = [] ↔ deliveredLines events = []) := by
  refine ⟨collectAll_marked (fun _ h => absurd h List.not_mem_nil) hlines, ?_, ?_⟩
  · intro hwritten
    by_contra hne
    refine collectAll_ne_nil (.inr ?_) hlines hwritten
    exact ⟨_, List.head_mem_head? hne, hopens _ (List.head_mem_head? hne)⟩
  · intro hnone
    rw [hnone] at hlines
    exact (Except.ok.inj hlines).symm

/-- Successful responses of one target agree exactly when it holds no header block. -/
theorem agree_ok_iff [LawfulHeaderMap] (lib : Library) {info : RequestInfo}
    (h : Marked info.headerCollection) :
    Agree (checkMultiResponse lib info curleOk) (transformResponseCurl lib info curleOk).1 ↔
      info.headerCollection = [] := by
  constructor
  · intro hagree
    by_contra hne
    exact absurd ((transformHeaders_marked h hne).symm.trans hagree.blocking_hidden) (by decide)
  · intro hnil
    have hmulti : (checkMultiResponse lib info curleOk).headers = HeaderMap.empty := by
      rw [← checkMultiHeaders_nil, ← hnil]
      rfl
    have hblocking : (transformResponseCurl lib info curleOk).1.headers = HeaderMap.empty := by
      rw [← transformHeaders_nil, ← hnil]
      rfl
    refine ⟨rfl, ?_, rfl, rfl, ?_, ?_⟩
    · rw [hmulti, hblocking]
      exact fun _ => Iff.rfl
    · rw [hmulti]
      exact hasHeader_empty _
    · rw [hblocking]
      exact hasHeader_empty _

/-- Failed responses of one target agree exactly when the request had no URL. -/
theorem agree_failed_iff [LawfulHeaderMap] (lib : Library) {info : RequestInfo} {res : CURLcode}
    (h : res ≠ curleOk) :
    Agree (checkMultiResponse lib info res) (transformResponseCurl lib info res).1 ↔ info.url = [] := by
  simp only [checkMultiResponse, transformResponseCurl, ne_eq, h, not_false_eq_true, if_true]
  constructor
  · exact fun hagree => hagree.url
  · exact fun hurl => ⟨rfl, fun _ => Iff.rfl, rfl, hurl, hasHeader_empty _, hasHeader_empty _⟩

/-- For every transcript that opens with a status line and is taken by the
callbacks, every URL, status code and result, both engines build the same
response exactly when the transfer succeeded without a header line or failed
for an empty URL. -/
theorem responses_agree_iff [LawfulHeaderMap] (lib : Library) (events : List TransferEvent) (url : Str)
    (code : UInt16) (res : CURLcode) (hopens : OpensWithStatus events) (queued own : RequestInfo)
    (hqueued : events.foldlM receiveRequest ({ url := url } : RequestInfo) = .ok queued)
    (hown : events.foldlM receiveOwn ({ url := url } : RequestInfo) = .ok own) :
    Agree (checkMultiResponse lib { queued with responseCode := code } res)
        (transformResponseCurl lib { own with responseCode := code } res).1 ↔
      if res = curleOk then deliveredLines events = [] else url = [] := by
  obtain rfl : queued = own := by
    rw [receiveOwn_eq, hqueued] at hown
    exact Except.ok.inj hown
  rw [foldlM_receiveRequest] at hqueued
  cases hlines : collectAll [] (deliveredLines events) with
  | error fault =>
    rw [hlines] at hqueued
    cases hqueued
  | ok written =>
    rw [hlines] at hqueued
    obtain rfl := Except.ok.inj hqueued
    obtain ⟨hmarked, hnil⟩ := collectAll_fresh hopens hlines
    by_cases hres : res = curleOk
    · rw [if_pos hres, hres, ← hnil]
      exact agree_ok_iff lib hmarked
    · rw [if_neg hres]
      exact agree_failed_iff lib hres

/-! ## `Get` from end to end -/

/-- The target of a transfer that left the given collection. -/
def filled (url : Str) (outcome : Outcome) (collection : List HTTPHeaders) : RequestInfo where
  url := url
  body := bodyBytes outcome.events
  responseCode := UInt16.ofNat outcome.responseCode
  headerCollection := collection

/-- A `Get` is decided by the lines, the concatenated chunks, the status code
and the result of its transfer. -/
theorem complete_get (lib : Library) (client : MultiCurlClient) (info : GetRequestInfo) (outcome : Outcome) :
    complete lib (startGet client info) (.get info) outcome =
      (collectAll [] (deliveredLines outcome.events)).map fun collection =>
        finishGet (startGet client info).client info
          (checkMultiResponse lib (filled info.url outcome collection) outcome.result) := by
  have hqueued : (Operation.get info).kind.queued = true := rfl
  have hroute : RoutedToRequest (startGet client info).client.curl (startGet client info).object :=
    (start_queued_route client hqueued).1
  have htransfer := transfer_request hroute ({ url := info.url } : RequestInfo)
    (startGet client info).client.requestInfo outcome.events
  rw [foldlM_receiveRequest] at htransfer
  have hrequest : (startGet client info).request.map (fun request =>
      ((startGet client info).object, request.info)) =
      some ((startGet client info).object, { url := info.url }) := rfl
  unfold complete
  rw [hrequest]
  change (transfer (startGet client info).client.curl _ _).bind _ = _
  rw [htransfer]
  cases collectAll [] (deliveredLines outcome.events) with
  | error fault => rfl
  | ok collection => rfl

/-- The error text of a failed transfer is the stored status line or the
library's text, neither of which is empty. -/
theorem requestErrorText_ne_nil [LawfulHeaderMap] {lib : Library} {collection : List HTTPHeaders}
    {res : CURLcode} (h : Marked collection) (hlib : lib.easyStrerror res ≠ []) :
    requestErrorText lib collection res ≠ [] := by
  unfold requestErrorText
  cases hback : collection.getLast? with
  | none => exact hlib
  | some back =>
    obtain ⟨status, hstatus, hne⟩ := h back (List.mem_of_getLast? hback)
    have hhas : HeaderMap.hasHeader back responseStatusKey = true := by
      rw [HeaderMap.hasHeader, hstatus]
      rfl
    simp only [hhas, dif_pos, HeaderMap.getHeaderValue, hstatus, Option.get_some]
    exact hne

/-- What the caller and the handlers of a `Get` see. -/
structure GetSees (client : MultiCurlClient) (info : GetRequestInfo) (outcome : Outcome)
    (next : MultiCurlClient) (answer : Answer) : Prop where
  /-- The response has an error text exactly when the transfer failed. -/
  error : answer.response.requestError ≠ [] ↔ outcome.result ≠ curleOk
  /-- The body of a success is the concatenation of all chunks. -/
  body : outcome.result = curleOk → answer.response.body = bodyBytes outcome.events
  /-- A failure has no body and no headers. -/
  failed : outcome.result ≠ curleOk →
    answer.response.body = [] ∧ answer.response.headers = HeaderMap.empty
  /-- The content handler is called at most once. -/
  once : answer.contents.length ≤ 1
  /-- It is called when there is one and no response handler objects. -/
  called : answer.contents ≠ [] ↔ info.contentHandler.isSome = true ∧
    ∀ handler ∈ info.responseHandler, handler answer.response = true
  /-- It receives the body of the response. -/
  received : ∀ content ∈ answer.contents, content = answer.response.body
  /-- The counters grow by one request and the size of the body. -/
  counted : next.state = client.state.map fun s =>
    { s with
      getCount := s.getCount + 1
      totalBytesReceived := s.totalBytesReceived + answer.response.body.length }

/-- The handlers see the response, and the content handler only its body. -/
theorem finishGet_sees {client : MultiCurlClient} {info : GetRequestInfo} {outcome : Outcome}
    (response : HTTPResponse) (herror : response.requestError ≠ [] ↔ outcome.result ≠ curleOk)
    (hbody : outcome.result = curleOk → response.body = bodyBytes outcome.events)
    (hfailed : outcome.result ≠ curleOk → response.body = [] ∧ response.headers = HeaderMap.empty) :
    GetSees client info outcome (finishGet (startGet client info).client info response).1
      (finishGet (startGet client info).client info response).2 := by
  have hstate : (finishGet (startGet client info).client info response).1.state =
      client.state.map fun s =>
        { s with
          getCount := s.getCount + 1
          totalBytesReceived := s.totalBytesReceived + response.body.length } := by
    rw [finishGet_client]
    exact Option.map_map _ _ client.state
  have hall : info.responseHandler.all (fun handler => handler response) = true ↔
      ∀ handler ∈ info.responseHandler, handler response = true := by
    cases info.responseHandler with
    | none => exact iff_of_true rfl fun _ h => nomatch h
    | some handler => exact ⟨fun h _ hm => Option.some.inj hm ▸ h, fun h => h handler rfl⟩
  unfold finishGet at hstate ⊢
  split at hstate
  · rename_i hcalled
    rw [if_pos hcalled]
    refine ⟨herror, hbody, hfailed, Nat.le_refl 1, ?_, ?_, hstate⟩
    · exact iff_of_true (List.cons_ne_nil _ _) ⟨hcalled.2, hall.mp hcalled.1⟩
    · exact fun content hm => List.mem_singleton.mp hm
  · rename_i hcalled
    rw [if_neg hcalled]
    refine ⟨herror, hbody, hfailed, Nat.zero_le 1, ?_, ?_, hstate⟩
    · exact iff_of_false (fun hne => hne rfl) fun h => hcalled ⟨hall.mpr h.2, h.1⟩
    · exact fun content hm => absurd hm List.not_mem_nil

/-- `Get` from end to end. On every client, for every transcript that is taken
by `WriteHeader` and every result, the call returns, its caller and handlers
see what they should, and every transfer with the same lines, the same
concatenated chunks, the same status code and the same result ends the same. -/
theorem get_endToEnd [LawfulHeaderMap] (lib : Library)
    (hlib : ∀ res, res ≠ curleOk → lib.easyStrerror res ≠ [])
    (client : MultiCurlClient) (info : GetRequestInfo) (outcome : Outcome)
    (htaken : ∃ left, outcome.events.foldlM receiveRequest ({ url := info.url } : RequestInfo) = .ok left) :
    ∃ next answer, complete lib (startGet client info) (.get info) outcome = .ok (next, answer) ∧
      GetSees client info outcome next answer ∧
      ∀ other : Outcome, deliveredLines other.events = deliveredLines outcome.events →
        bodyBytes other.events = bodyBytes outcome.events →
        other.responseCode = outcome.responseCode → other.result = outcome.result →
        complete lib (startGet client info) (.get info) other = .ok (next, answer) := by
  obtain ⟨left, htaken⟩ := htaken
  rw [foldlM_receiveRequest] at htaken
  cases hlines : collectAll [] (deliveredLines outcome.events) with
  | error fault =>
    rw [hlines] at htaken
    cases htaken
  | ok collection =>
    have hmarked := collectAll_marked (fun _ h => absurd h List.not_mem_nil) hlines
    refine ⟨_, _, ?_, finishGet_sees (checkMultiResponse lib
      (filled info.url outcome collection) outcome.result) ?_ ?_ ?_, ?_⟩
    · rw [complete_get, hlines]
      rfl
    · by_cases hres : outcome.result = curleOk
      · rw [hres]
        exact iff_of_false (fun hne => hne rfl) fun hne => hne rfl
      · refine iff_of_true ?_ hres
        simp only [checkMultiResponse, ne_eq, hres, not_false_eq_true, if_true]
        exact requestErrorText_ne_nil hmarked (hlib _ hres)
    · intro hres
      rw [hres]
      rfl
    · intro hres
      simp only [checkMultiResponse, ne_eq, hres, not_false_eq_true, if_true, and_self]
    · intro other hsame hbytes hcode hresult
      have hfilled : filled info.url other = filled info.url outcome := by
        funext collection
        simp only [filled, hbytes, hcode]
      rw [complete_get, hsame, hlines, hresult, hfilled]
      rfl

end

/-- Without header lines a success looks the same on both paths. -/
theorem responses_agree_iff_empty :
    Agree (checkMultiResponse .common { url := "http://h/a".toList, body := "data".toList, responseCode := 200 }
        curleOk)
      (transformResponseCurl .common
        { url := "http://h/a".toList, body := "data".toList, responseCode := 200 } curleOk).1 := by
  refine (responses_agree_iff .common [.body (.ofLine "data".toList)] "http://h/a".toList 200 curleOk
    ?_ { url := "http://h/a".toList, body := "data".toList }
    { url := "http://h/a".toList, body := "data".toList } rfl rfl).mpr ?_
  · decide
  · decide

/-- One ordinary status line and the blocking path exposes it as a header. -/
theorem responses_differ :
    ∃ queued own : RequestInfo,
      OpensWithStatus [.header (.ofLine "HTTP/1.1 200 OK\r\n".toList)] ∧
      [TransferEvent.header (.ofLine "HTTP/1.1 200 OK\r\n".toList)].foldlM receiveRequest
        ({ url := "http://h/a".toList } : RequestInfo) = .ok queued ∧
      [TransferEvent.header (.ofLine "HTTP/1.1 200 OK\r\n".toList)].foldlM receiveOwn
        ({ url := "http://h/a".toList } : RequestInfo) = .ok own ∧
      ¬Agree (checkMultiResponse .common { queued with responseCode := 200 } curleOk)
        (transformResponseCurl .common { own with responseCode := 200 } curleOk).1 := by
  refine ⟨_, _, by decide, rfl, rfl, ?_⟩
  intro hagree
  exact absurd hagree.blocking_hidden (by decide)

/-- A `Get` that fails behind half of its body. -/
theorem get_endToEnd_partial :
    ∃ next answer, complete .common
        (startGet plainClient { url := "http://h/a".toList, contentHandler := some fun _ => true })
        (.get { url := "http://h/a".toList, contentHandler := some fun _ => true })
        ⟨[.header (.ofLine "HTTP/1.1 200 OK\r\n".toList), .body (.ofLine "half".toList)], 200, 18⟩ =
        .ok (next, answer) ∧
      answer.response.requestError ≠ [] ∧ answer.contents = [[]] := by
  obtain ⟨next, answer, hcomplete, hsees, -⟩ := get_endToEnd .common
    (by
      intro res _
      change (if res = 7 then _ else _) ≠ []
      split <;> decide)
    plainClient { url := "http://h/a".toList, contentHandler := some fun _ => true }
    ⟨[.header (.ofLine "HTTP/1.1 200 OK\r\n".toList), .body (.ofLine "half".toList)], 200, 18⟩ ⟨_, rfl⟩
  refine ⟨next, answer, hcomplete, hsees.error.mpr (by decide), ?_⟩
  obtain ⟨content, hcontent⟩ := List.length_eq_one_iff.mp (Nat.le_antisymm hsees.once
    (List.length_pos_iff.mpr (hsees.called.mpr ⟨rfl, fun _ h => nomatch h⟩)))
  have hempty := hsees.received content (hcontent ▸ List.mem_singleton_self content)
  rw [hcontent, hempty, (hsees.failed (by decide)).1]

end CurlHttpfs.Client
