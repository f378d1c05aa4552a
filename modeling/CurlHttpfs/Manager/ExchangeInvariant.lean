import CurlHttpfs.Manager.Exchange

/-!
# Invariants of the exchange

A request is identified by three pointers: the key of `ongoing_requests`, the
private data of its handle and the callback data of its handle. The invariant
ties them together through the client that waits: an open request is awaited
by the client of its own handle, a client awaits one request at a time, and a
request occupies one place. An entry whose promise is set survives only while
the background thread is between setting it and erasing it.
-/

namespace CurlHttpfs.Manager.Exchange

open Http Curl

variable [HeaderMap]

/-! ## Places -/

/-- The handle a request borrows. -/
def owner (s : Exchange) (r : RequestId) : CURL := (s.request r).easyCurl

/-- The promise of the request is not set. -/
def Open (s : Exchange) (r : RequestId) : Prop := (s.request r).response = none

/-- `HandleRequest` has been called with the request. -/
def Sent (s : Exchange) (r : RequestId) : Prop :=
  r < s.nextRequest ∧ s.client (s.owner r) ≠ .built r

instance (s : Exchange) (r : RequestId) : Decidable (s.Open r) :=
  inferInstanceAs (Decidable ((s.request r).response = none))

instance (s : Exchange) (r : RequestId) : Decidable (s.Sent r) :=
  inferInstanceAs (Decidable (_ ∧ _))

/-- How many places the request occupies. -/
def places (s : Exchange) (r : RequestId) : Nat :=
  s.pendingRequests.count r + (if s.focus = .held r then 1 else 0) +
    (if s.ongoingRequests (s.owner r) = some r ∧ s.Open r then 1 else 0) +
    (if s.Open r then 0 else 1)

/-- All callbacks and the private data of the handle denote the request. -/
structure RoutedTo (easy : Easy) (r : RequestId) : Prop where
  headerFunction : easy.headerFunction = some .writeHeader
  headerData : easy.headerData = some (.curlRequest r)
  writeFunction : easy.writeFunction = some .writeBody
  writeData : easy.writeData = some (.curlRequest r)
  privateData : easy.privateData = some r

/-- The background thread is between setting the promise of a handle's
request and erasing the handle's entry. -/
def Closing (s : Exchange) (h : CURL) : Prop := s.focus = .removing h ∨ s.focus = .erasing h

/-- The handles with an unread message. -/
def finished (s : Exchange) : List CURL := s.msgs.filterMap CURLMsg.handle?

/-- Who is responsible for each request. -/
structure Custody (s : Exchange) : Prop where
  /-- Every request that was sent is in one place, every other in none. -/
  conserved : ∀ r, s.places r = if s.Sent r then 1 else 0
  /-- A client is concerned with a request of its own handle. -/
  concern : ∀ h r, (s.client h).request? = some r → r < s.nextRequest ∧ s.owner r = h
  /-- An open request is the concern of its owner. -/
  awaited : ∀ r, r < s.nextRequest → s.Open r → (s.client (s.owner r)).request? = some r
  /-- The owner's handle is routed to an open request. -/
  routed : ∀ h r, (s.client h).request? = some r → s.Open r → RoutedTo (s.easy h) r
  /-- Entries are stored under the handle of their request. -/
  keyed : ∀ h r, s.ongoingRequests h = some r → r < s.nextRequest ∧ s.owner r = h
  /-- A completed entry is about to be erased. -/
  settled : ∀ h r, s.ongoingRequests h = some r → ¬s.Open r → s.Closing h
  /-- The request being added has its entry. -/
  adding : ∀ h r, s.focus = .adding h r → s.ongoingRequests h = some r
  /-- The request being fulfilled has its entry and its promise is not set. -/
  fulfilling : ∀ h r res, s.focus = .fulfilling h r res → s.ongoingRequests h = some r ∧ s.Open r
  /-- The handle being closed has an entry, and its promise is set. -/
  closing : ∀ h, s.Closing h → ∃ r, s.ongoingRequests h = some r ∧ ¬s.Open r

/-- What libcurl holds of each handle. -/
structure Attachment (s : Exchange) : Prop where
  /-- Attached handles have an entry. -/
  entry : ∀ h, h ∈ s.attached → s.ongoingRequests h ≠ none
  /-- The handle being added is not attached yet. -/
  adding : ∀ h r, s.focus = .adding h r → h ∉ s.attached
  /-- The transfer being fulfilled is over and its message is read. -/
  fulfilling : ∀ h r res, s.focus = .fulfilling h r res →
    h ∈ s.attached ∧ h ∉ s.running ∧ h ∉ s.finished
  /-- The same holds of the handle about to be removed. -/
  removing : ∀ h, s.focus = .removing h → h ∈ s.attached ∧ h ∉ s.running ∧ h ∉ s.finished
  /-- The handle whose entry is about to be erased is detached. -/
  erasing : ∀ h, s.focus = .erasing h → h ∉ s.attached
  /-- A running handle is attached and has no message. -/
  running : ∀ h, h ∈ s.running → h ∈ s.attached ∧ h ∉ s.finished
  /-- Messages are about attached handles. -/
  finished : ∀ h, h ∈ s.finished → h ∈ s.attached
  /-- A handle has at most one message. -/
  unique : s.finished.Nodup

/-! ## Custody -/

theorem custody_init (easy : CURL → Easy) : Custody (init easy) where
  conserved r := by simp [places, init, Open, Sent, CurlRequest.create]
  concern h r hr := by simp [init, ClientPc.request?] at hr
  awaited r hr := by simp [init] at hr
  routed h r hr := by simp [init, ClientPc.request?] at hr
  keyed h r hr := by simp [init] at hr
  settled h r hr := by simp [init] at hr
  adding h r hf := by simp [init] at hf
  fulfilling h r res hf := by simp [init] at hf
  closing h hf := by simp [init, Closing] at hf

/-- The step neither moves a request nor changes a route. -/
structure Unmoved (s t : Exchange) : Prop where
  client : t.client = s.client
  nextRequest : t.nextRequest = s.nextRequest
  owner : ∀ r, t.owner r = s.owner r
  isOpen : ∀ r, t.Open r ↔ s.Open r
  routed : ∀ h r, RoutedTo (s.easy h) r → RoutedTo (t.easy h) r
  pendingRequests : t.pendingRequests = s.pendingRequests
  ongoingRequests : t.ongoingRequests = s.ongoingRequests

/-- Custody survives such a step when the locals stay the same. -/
theorem Unmoved.custody {s t : Exchange} (hu : Unmoved s t) (hfocus : t.focus = s.focus)
    (hs : Custody s) : Custody t where
  conserved r := by
    have h := hs.conserved r
    simp only [places, Sent, hu.client, hu.nextRequest, hu.owner, hu.isOpen, hu.pendingRequests,
      hu.ongoingRequests, hfocus] at h ⊢
    exact h
  concern h r hr := by
    rw [hu.client] at hr
    rw [hu.nextRequest, hu.owner]
    exact hs.concern h r hr
  awaited r hr ho := by
    rw [hu.nextRequest] at hr
    rw [hu.client, hu.owner]
    exact hs.awaited r hr ((hu.isOpen r).mp ho)
  routed h r hr ho := by
    rw [hu.client] at hr
    exact hu.routed h r (hs.routed h r hr ((hu.isOpen r).mp ho))
  keyed h r he := by
    rw [hu.ongoingRequests] at he
    rw [hu.nextRequest, hu.owner]
    exact hs.keyed h r he
  settled h r he ho := by
    rw [hu.ongoingRequests] at he
    rw [Closing, hfocus]
    exact hs.settled h r he fun h => ho ((hu.isOpen r).mpr h)
  adding h r hf := by
    rw [hfocus] at hf
    rw [hu.ongoingRequests]
    exact hs.adding h r hf
  fulfilling h r res hf := by
    rw [hfocus] at hf
    rw [hu.ongoingRequests, hu.isOpen]
    exact hs.fulfilling h r res hf
  closing h hf := by
    rw [Closing, hfocus] at hf
    rw [hu.ongoingRequests]
    obtain ⟨r, he, ho⟩ := hs.closing h hf
    exact ⟨r, he, fun h => ho ((hu.isOpen r).mp h)⟩

/-- Filling in a `RequestInfo` moves nothing. -/
theorem setInfo_unmoved (s : Exchange) (r : RequestId) (info : RequestInfo) :
    Unmoved s (s.setInfo r info) where
  client := rfl
  nextRequest := rfl
  owner r' := by
    simp only [owner, setInfo, Function.update_apply]
    split
    · rename_i he
      rw [he]
    · rfl
  isOpen r' := by
    simp only [Open, setInfo, Function.update_apply]
    split
    · rename_i he
      rw [he]
    · rfl
  routed _ _ hr := hr
  pendingRequests := rfl
  ongoingRequests := rfl

/-- Writing options that keep the route moves nothing. -/
theorem configure_unmoved {s : Exchange} {h : CURL} {easy : Easy} (hroute : SameRoute (s.easy h) easy) :
    Unmoved s { s with easy := Function.update s.easy h easy } where
  client := rfl
  nextRequest := rfl
  owner _ := rfl
  isOpen _ := Iff.rfl
  routed h' r hr := by
    by_cases he : h' = h
    · subst he
      simp only [Function.update_self]
      exact ⟨hroute.headerFunction.trans hr.headerFunction, hroute.headerData.trans hr.headerData,
        hroute.writeFunction.trans hr.writeFunction, hroute.writeData.trans hr.writeData,
        hroute.privateData.trans hr.privateData⟩
    · simp only [Function.update_of_ne he]
      exact hr
  pendingRequests := rfl
  ongoingRequests := rfl

/-- `SetUrl` writes one field of the request and one option. -/
theorem setUrl_unmoved (s : Exchange) (h : CURL) (r : RequestId) (url : Str) :
    Unmoved s (s.setUrl h r url) := by
  have hinfo := setInfo_unmoved s r ((s.request r).setUrl url).info
  have hurl : SameRoute (s.easy h) (CurlRequest.setUrlOption url (s.easy h)) := ⟨rfl, rfl, rfl, rfl, rfl⟩
  exact ⟨rfl, rfl, hinfo.owner, hinfo.isOpen, (configure_unmoved hurl).routed, rfl, rfl⟩

/-- Changes inside libcurl move nothing. -/
theorem libcurl_unmoved (s : Exchange) (attached running : Finset CURL) (msgs : List CURLMsg)
    (focus : Focus) :
    Unmoved s { s with attached := attached, running := running, msgs := msgs, focus := focus } :=
  ⟨rfl, rfl, fun _ => rfl, fun _ => Iff.rfl, fun _ _ hr => hr, rfl, rfl⟩

/-- A promise that is set changes no owner. -/
theorem setValue_owner (lib : Library) (s : Exchange) (h : CURL) (r : RequestId) (res : CURLcode)
    (r' : RequestId) : (s.setValue lib h r res).owner r' = s.owner r' := by
  simp only [owner, setValue, setResponse, Function.update_apply]
  split
  · rename_i he
    rw [he]
  · rfl

/-- `set_value` closes its own request and no other. -/
theorem setValue_open (lib : Library) (s : Exchange) (h : CURL) (r : RequestId) (res : CURLcode)
    (r' : RequestId) : (s.setValue lib h r res).Open r' ↔ s.Open r' ∧ r' ≠ r := by
  simp only [Open, setValue, setResponse, Function.update_apply]
  by_cases he : r' = r
  · rw [if_pos he]
    exact iff_of_false (fun hnone => by cases hnone) fun hboth => hboth.2 he
  · rw [if_neg he]
    exact ⟨fun ho => ⟨ho, he⟩, And.left⟩

/-- A request that was not sent is in no place. -/
theorem Custody.unsent {s : Exchange} (hs : Custody s) {r : RequestId} (hr : ¬s.Sent r) :
    r ∉ s.pendingRequests ∧ s.focus ≠ .held r ∧ s.Open r := by
  have hplaces := hs.conserved r
  rw [if_neg hr, places] at hplaces
  have hpending : s.pendingRequests.count r = 0 := by omega
  refine ⟨List.count_eq_zero.mp hpending, ?_, ?_⟩
  · intro hf
    rw [if_pos hf] at hplaces
    omega
  · by_contra ho
    rw [if_neg ho] at hplaces
    omega

/-- A new request is open. -/
theorem Custody.next_open {s : Exchange} (hs : Custody s) : s.Open s.nextRequest :=
  (hs.unsent fun hsent => Nat.lt_irrefl s.nextRequest hsent.1).2.2

/-- A request under construction was not sent. -/
theorem Custody.built_unsent {s : Exchange} (hs : Custody s) {h : CURL} {r : RequestId}
    (hbuilt : s.client h = .built r) : ¬s.Sent r := by
  have howner := hs.concern h r (by rw [hbuilt]; rfl)
  intro hsent
  exact hsent.2 (howner.2.symm ▸ hbuilt)

/-- With nothing in hand every entry is open. -/
theorem Custody.entry_open {s : Exchange} (hs : Custody s) {h : CURL} {r : RequestId}
    (hfocus : ¬s.Closing h) (hentry : s.ongoingRequests h = some r) : s.Open r := by
  by_contra ho
  exact hfocus (hs.settled h r hentry ho)

/-- A request in hand is open and stored nowhere. -/
theorem Custody.held {s : Exchange} (hs : Custody s) {r : RequestId} (hfocus : s.focus = .held r) :
    s.Sent r ∧ s.Open r ∧ s.ongoingRequests (s.owner r) ≠ some r := by
  have hplaces := hs.conserved r
  rw [places, if_pos hfocus] at hplaces
  have hsent : s.Sent r := by
    by_contra hn
    rw [if_neg hn] at hplaces
    omega
  have hopen : s.Open r := by
    by_contra hn
    rw [if_pos hsent, if_neg hn] at hplaces
    omega
  refine ⟨hsent, hopen, fun he => ?_⟩
  rw [if_pos hsent, if_pos ⟨he, hopen⟩] at hplaces
  omega

/-- A handle is being closed in two positions only. -/
theorem not_closing {s : Exchange} {focus : Focus} (hfocus : s.focus = focus)
    (hremoving : ∀ h, focus ≠ .removing h) (herasing : ∀ h, focus ≠ .erasing h) (h : CURL) :
    ¬s.Closing h := by
  intro hc
  rcases hc with hc | hc
  · exact hremoving h (hfocus.symm.trans hc)
  · exact herasing h (hfocus.symm.trans hc)

/-- A step that changes neither the places of a request nor whether it was
sent keeps the balance of the two. -/
theorem Custody.balance {s t : Exchange} (hs : Custody s) {r : RequestId}
    (hplaces : t.places r = s.places r) (hsent : t.Sent r ↔ s.Sent r) :
    t.places r = if t.Sent r then 1 else 0 := by
  rw [hplaces, hs.conserved r]
  simp only [hsent]

/-- The concern of a client whose program counter may have changed. -/
theorem update_client {s : Exchange} {h : CURL} {pc : ClientPc} {h' : CURL} {r : RequestId}
    (hr : (Function.update s.client h pc h').request? = some r) :
    h' = h ∧ pc.request? = some r ∨ h' ≠ h ∧ (s.client h').request? = some r := by
  by_cases he : h' = h
  · subst he
    rw [Function.update_self] at hr
    exact .inl ⟨rfl, hr⟩
  · rw [Function.update_of_ne he] at hr
    exact .inr ⟨he, hr⟩

/-- A client that is in no construction before or behind the step has sent
what it had sent. -/
theorem sent_update {s : Exchange} {h : CURL} {pc : ClientPc} {r : RequestId}
    (hbefore : s.client h ≠ .built r) (hafter : ∀ r', pc ≠ .built r') :
    Sent { s with client := Function.update s.client h pc } r ↔ s.Sent r := by
  refine and_congr_right fun _ => ?_
  change Function.update s.client h pc (s.owner r) ≠ .built r ↔ _
  by_cases he : s.owner r = h
  · rw [he, Function.update_self]
    exact iff_of_true (hafter r) hbefore
  · rw [Function.update_of_ne he]

/-- The requests of before a construction. -/
theorem build_request (s : Exchange) (h : CURL) (r : RequestId) :
    (s.build h).request r = if r = s.nextRequest then CurlRequest.create h else s.request r :=
  Function.update_apply _ _ _ _

/-- The new request is open and its client's. -/
theorem build_new (s : Exchange) (h : CURL) :
    (s.build h).owner s.nextRequest = h ∧ (s.build h).Open s.nextRequest := by
  have hnew : (s.build h).request s.nextRequest = CurlRequest.create h := by rw [build_request, if_pos rfl]
  exact ⟨congrArg CurlRequest.easyCurl hnew, congrArg CurlRequest.response hnew⟩

/-- The other requests stay as they are. -/
theorem build_old {s : Exchange} {r : RequestId} (h : CURL) (hr : r ≠ s.nextRequest) :
    (s.build h).owner r = s.owner r ∧ ((s.build h).Open r ↔ s.Open r) := by
  have hold : (s.build h).request r = s.request r := by rw [build_request, if_neg hr]
  exact ⟨congrArg CurlRequest.easyCurl hold, by rw [Open, hold, Open]⟩

/-- The new request starts in no place, and the places of the others stay. -/
theorem conserved_build {s : Exchange} {h : CURL} (hidle : s.client h = .idle) (hs : Custody s)
    (r : RequestId) : (s.build h).places r = if (s.build h).Sent r then 1 else 0 := by
  by_cases hr : r = s.nextRequest
  · have hplace := hs.unsent fun hsent => Nat.lt_irrefl s.nextRequest hsent.1
    obtain ⟨howner, hopen⟩ := build_new s h
    subst hr
    have hunsent : ¬(s.build h).Sent s.nextRequest := by
      intro hsent
      rw [Sent, howner] at hsent
      exact hsent.2 (Function.update_self _ _ _)
    have hunstored : s.ongoingRequests h ≠ some s.nextRequest :=
      fun hentry => Nat.lt_irrefl _ (hs.keyed h _ hentry).1
    have hcount : (s.build h).pendingRequests.count s.nextRequest = 0 := List.count_eq_zero.mpr hplace.1
    have hhand : (s.build h).focus ≠ .held s.nextRequest := hplace.2.1
    rw [places, hcount, howner, if_neg hhand, if_neg fun hboth => hunstored hboth.1, if_pos hopen,
      if_neg hunsent]
  · obtain ⟨howner, hopen⟩ := build_old h hr
    refine hs.balance ?_ ?_
    · simp only [places, howner, hopen]
      rfl
    · rw [Sent, howner]
      refine and_congr ⟨fun hlt => Nat.lt_of_le_of_ne (Nat.le_of_lt_succ hlt) hr, Nat.lt_succ_of_lt⟩ ?_
      change Function.update s.client h (.built s.nextRequest) (s.owner r) ≠ .built r ↔ _
      by_cases he : s.owner r = h
      · rw [he, Function.update_self, hidle]
        exact iff_of_true (fun hsame => hr (ClientPc.built.inj hsame).symm) nofun
      · rw [Function.update_of_ne he]

/-- A new request becomes the concern of its client, whose earlier requests
are all completed. -/
theorem custody_build {s : Exchange} {h : CURL} (hidle : s.client h = .idle) (hs : Custody s) :
    Custody (s.build h) := by
  have hnone : ∀ r, r < s.nextRequest → s.Open r → s.owner r ≠ h := by
    intro r hr ho he
    have hc := hs.awaited r hr ho
    rw [he, hidle] at hc
    cases hc
  have holder (r : RequestId) (hlt : r < s.nextRequest) := build_old h (Nat.ne_of_lt hlt)
  constructor
  case conserved => exact conserved_build hidle hs
  case concern =>
    intro h' r hr
    rcases update_client hr with ⟨he, hnew⟩ | ⟨-, hold⟩
    · obtain rfl := Option.some.inj hnew
      exact ⟨Nat.lt_succ_self _, (build_new s h).1.trans he.symm⟩
    · obtain ⟨hlt, howner⟩ := hs.concern h' r hold
      exact ⟨Nat.lt_succ_of_lt hlt, (holder r hlt).1.trans howner⟩
  case awaited =>
    intro r hlt hopen
    change (Function.update s.client h (.built s.nextRequest) ((s.build h).owner r)).request? = some r
    rcases Nat.lt_or_eq_of_le (Nat.le_of_lt_succ hlt) with hlt | rfl
    · obtain ⟨howner, hiff⟩ := holder r hlt
      have hopen := hiff.mp hopen
      rw [howner, Function.update_of_ne (hnone r hlt hopen)]
      exact hs.awaited r hlt hopen
    · rw [(build_new s h).1, Function.update_self]
      rfl
  case routed =>
    intro h' r hr hopen
    rcases update_client hr with ⟨rfl, hnew⟩ | ⟨hne, hold⟩
    · obtain rfl := Option.some.inj hnew
      have heasy : (s.build h').easy h' = CurlRequest.install s.nextRequest (s.easy h') :=
        Function.update_self _ _ _
      rw [heasy]
      exact ⟨rfl, rfl, rfl, rfl, rfl⟩
    · have heasy : (s.build h).easy h' = s.easy h' := Function.update_of_ne hne _ _
      rw [heasy]
      exact hs.routed h' r hold ((holder r (hs.concern h' r hold).1).2.mp hopen)
  case keyed =>
    intro h' r hentry
    obtain ⟨hlt, howner⟩ := hs.keyed h' r hentry
    exact ⟨Nat.lt_succ_of_lt hlt, (holder r hlt).1.trans howner⟩
  case settled =>
    intro h' r hentry hset
    exact hs.settled h' r hentry fun hopen => hset ((holder r (hs.keyed h' r hentry).1).2.mpr hopen)
  case adding => exact hs.adding
  case fulfilling =>
    intro h' r res hfocus
    obtain ⟨hentry, hopen⟩ := hs.fulfilling h' r res hfocus
    exact ⟨hentry, (holder r (hs.keyed h' r hentry).1).2.mpr hopen⟩
  case closing =>
    intro h' hc
    obtain ⟨r, hentry, hset⟩ := hs.closing h' hc
    exact ⟨r, hentry, fun hopen => hset ((holder r (hs.keyed h' r hentry).1).2.mp hopen)⟩

/-- A client that moves on with the same request keeps its concern. -/
theorem Custody.repoint {s : Exchange} (hs : Custody s) {h : CURL} {r : RequestId} {pc : ClientPc}
    (hbefore : (s.client h).request? = some r) (hafter : pc.request? = some r)
    (pending : List RequestId)
    (hconserved : ∀ r', places { s with client := Function.update s.client h pc, pendingRequests := pending } r' =
      if Sent { s with client := Function.update s.client h pc, pendingRequests := pending } r' then 1 else 0) :
    Custody { s with client := Function.update s.client h pc, pendingRequests := pending } where
  conserved := hconserved
  concern h' r' hr := by
    rcases update_client hr with ⟨rfl, hnew⟩ | ⟨-, hold⟩
    · exact hs.concern h' r' (hbefore.trans (hafter.symm.trans hnew))
    · exact hs.concern h' r' hold
  awaited r' hlt hopen := by
    have hawaited := hs.awaited r' hlt hopen
    change (Function.update s.client h pc (s.owner r')).request? = some r'
    by_cases he : s.owner r' = h
    · rw [he] at hawaited
      rw [he, Function.update_self]
      exact hafter.trans (hbefore.symm.trans hawaited)
    · rwa [Function.update_of_ne he]
  routed h' r' hr hopen := by
    rcases update_client hr with ⟨rfl, hnew⟩ | ⟨-, hold⟩
    · exact hs.routed h' r' (hbefore.trans (hafter.symm.trans hnew)) hopen
    · exact hs.routed h' r' hold hopen
  keyed := hs.keyed
  settled := hs.settled
  adding := hs.adding
  fulfilling := hs.fulfilling
  closing := hs.closing

/-- Emplacing a request gives it one more place. -/
theorem enqueue_places (s : Exchange) (h : CURL) (r r' : RequestId) :
    (s.enqueue h r).places r' = s.places r' + if r = r' then 1 else 0 := by
  have hcount : (s.enqueue h r).pendingRequests.count r' =
      s.pendingRequests.count r' + if r = r' then 1 else 0 := by
    rw [enqueue, List.count_append, List.count_singleton]
    simp only [beq_iff_eq]
  unfold places
  rw [hcount]
  change _ + (if s.focus = .held r' then 1 else 0) +
    (if s.ongoingRequests (s.owner r') = some r' ∧ s.Open r' then 1 else 0) +
    (if s.Open r' then 0 else 1) = _
  omega

/-- The emplaced request moves from no place into the queue. -/
theorem custody_enqueue {s : Exchange} {h : CURL} {r : RequestId} (hbuilt : s.client h = .built r)
    (hs : Custody s) : Custody (s.enqueue h r) := by
  have hconcern : (s.client h).request? = some r := by rw [hbuilt]; rfl
  have howner := hs.concern h r hconcern
  have hunsent := hs.built_unsent hbuilt
  refine hs.repoint hconcern rfl (s.pendingRequests ++ [r]) fun r' => ?_
  change (s.enqueue h r).places r' = if (s.enqueue h r).Sent r' then 1 else 0
  have hclient : (s.enqueue h r).Sent r' ↔
      r' < s.nextRequest ∧ Function.update s.client h (.enqueued r) (s.owner r') ≠ .built r' := Iff.rfl
  rw [enqueue_places, hs.conserved r']
  by_cases hr : r = r'
  · subst hr
    have hsent : (s.enqueue h r).Sent r := by
      rw [hclient, howner.2, Function.update_self]
      exact ⟨howner.1, nofun⟩
    rw [if_neg hunsent, if_pos rfl, if_pos hsent]
  · have hsame : (s.enqueue h r).Sent r' ↔ s.Sent r' := by
      rw [hclient]
      refine and_congr_right fun _ => ?_
      by_cases he : s.owner r' = h
      · rw [he, Function.update_self, hbuilt]
        exact iff_of_true nofun fun hsame => hr (ClientPc.built.inj hsame)
      · rw [Function.update_of_ne he]
    rw [if_neg hr, Nat.add_zero]
    simp only [hsame]

/-- Whether or not the write succeeds, the client stays concerned with its request. -/
theorem custody_signal {s : Exchange} {h : CURL} {r : RequestId} (ok : Bool)
    (henqueued : s.client h = .enqueued r) (hs : Custody s) :
    Custody { s with client := Function.update s.client h (if ok = true then .waiting r else .threw r) } := by
  have hconcern : (s.client h).request? = some r := by rw [henqueued]; rfl
  have hpc : (if ok = true then ClientPc.waiting r else .threw r).request? = some r ∧
      ∀ r', (if ok = true then ClientPc.waiting r else .threw r) ≠ .built r' := by
    cases ok <;> exact ⟨rfl, nofun⟩
  refine hs.repoint hconcern hpc.1 s.pendingRequests fun r' => hs.balance rfl ?_
  refine sent_update (fun hbuilt => ?_) hpc.2
  cases henqueued.symm.trans hbuilt

/-- A client that returns leaves no open request behind. -/
theorem custody_receive {s : Exchange} {h : CURL} {r : RequestId} (hwaiting : s.client h = .waiting r)
    (hset : (s.request r).response.isSome = true) (hs : Custody s) :
    Custody { s with client := Function.update s.client h .idle } := by
  have hnone : ∀ r', r' < s.nextRequest → s.Open r' → s.owner r' ≠ h := by
    intro r' hr ho he
    have hc := hs.awaited r' hr ho
    rw [he, hwaiting] at hc
    obtain rfl := Option.some.inj hc
    rw [show (s.request r).response = none from ho] at hset
    cases hset
  constructor
  case conserved =>
    intro r'
    refine hs.balance rfl (sent_update (fun hbuilt => ?_) nofun)
    cases hwaiting.symm.trans hbuilt
  case concern =>
    intro h' r' hr
    rcases update_client hr with ⟨-, hnew⟩ | ⟨-, hold⟩
    · cases hnew
    · exact hs.concern h' r' hold
  case awaited =>
    intro r' hlt hopen
    have hne := hnone r' hlt hopen
    change (Function.update s.client h .idle (s.owner r')).request? = some r'
    rw [Function.update_of_ne hne]
    exact hs.awaited r' hlt hopen
  case routed =>
    intro h' r' hr hopen
    rcases update_client hr with ⟨-, hnew⟩ | ⟨-, hold⟩
    · cases hnew
    · exact hs.routed h' r' hold hopen
  case keyed => exact hs.keyed
  case settled => exact hs.settled
  case adding => exact hs.adding
  case fulfilling => exact hs.fulfilling
  case closing => exact hs.closing

/-- Moving the background thread without a request in hand moves no request. -/
theorem Custody.refocus {s : Exchange} (hs : Custody s) (msgs : List CURLMsg) {focus : Focus}
    (hbefore : ∀ r, s.focus ≠ .held r) (hafter : ∀ r, focus ≠ .held r)
    (hsettled : ∀ h r, s.ongoingRequests h = some r → ¬s.Open r → focus = .removing h ∨ focus = .erasing h)
    (hadding : ∀ h r, focus = .adding h r → s.ongoingRequests h = some r)
    (hfulfilling : ∀ h r res, focus = .fulfilling h r res → s.ongoingRequests h = some r ∧ s.Open r)
    (hclosing : ∀ h, focus = .removing h ∨ focus = .erasing h →
      ∃ r, s.ongoingRequests h = some r ∧ ¬s.Open r) :
    Custody { s with msgs := msgs, focus := focus } where
  conserved r := by
    have hone := hs.conserved r
    rw [places, if_neg (hbefore r)] at hone
    rw [places, if_neg (hafter r)]
    exact hone
  concern := hs.concern
  awaited := hs.awaited
  routed := hs.routed
  keyed := hs.keyed
  settled := hsettled
  adding := hadding
  fulfilling := hfulfilling
  closing := hclosing

/-- Reading the message of an entry, with the status code of its transfer. -/
theorem custody_infoRead {s : Exchange} {h : CURL} {r : RequestId} (res : CURLcode) (code : Nat)
    (rest : List CURLMsg) (hfocus : s.focus = .idle) (hentry : s.ongoingRequests h = some r)
    (hs : Custody s) : Custody (s.infoRead h r res code rest) := by
  have hu := setInfo_unmoved s r { (s.request r).info with responseCode := UInt16.ofNat code }
  have hinfo := hu.custody rfl hs
  refine hinfo.refocus rest (fun _ hheld => nomatch hfocus.symm.trans hheld) nofun ?_ nofun ?_ ?_
  · intro h' r' hentry' hset
    exact absurd (hinfo.entry_open (not_closing hfocus nofun nofun h') hentry') hset
  · intro h' r' res' hfulfilling
    obtain ⟨rfl, rfl, -⟩ := Focus.fulfilling.inj hfulfilling
    exact ⟨hentry, hinfo.entry_open (not_closing hfocus nofun nofun h) hentry⟩
  · intro h' hclosing
    rcases hclosing with hclosing | hclosing <;> cases hclosing

/-- The completed request leaves the map for the places. -/
theorem setValue_places (lib : Library) {s : Exchange} {h : CURL} {r : RequestId} {res : CURLcode}
    (hfocus : s.focus = .fulfilling h r res) (hentry : s.ongoingRequests (s.owner r) = some r)
    (hopen : s.Open r) (r' : RequestId) : (s.setValue lib h r res).places r' = s.places r' := by
  have hhand : s.focus ≠ .held r' := fun hheld => nomatch hfocus.symm.trans hheld
  have hhand' : (s.setValue lib h r res).focus ≠ .held r' := nofun
  have hsame : (s.setValue lib h r res).ongoingRequests = s.ongoingRequests := rfl
  have hqueue : (s.setValue lib h r res).pendingRequests = s.pendingRequests := rfl
  unfold places
  rw [if_neg hhand, if_neg hhand', hsame, hqueue, setValue_owner]
  by_cases hr : r' = r
  · subst hr
    have hset : ¬(s.setValue lib h r' res).Open r' := fun ho =>
      ((setValue_open lib s h r' res r').mp ho).2 rfl
    rw [if_neg hset, if_neg fun hboth => hset hboth.2, if_pos hopen, if_pos ⟨hentry, hopen⟩]
  · have hkept : (s.setValue lib h r res).Open r' ↔ s.Open r' :=
      (setValue_open lib s h r res r').trans (and_iff_left hr)
    simp only [hkept]

/-- Setting the promise turns the entry into a completed request. -/
theorem custody_setValue (lib : Library) {s : Exchange} {h : CURL} {r : RequestId} {res : CURLcode}
    (hfocus : s.focus = .fulfilling h r res) (hs : Custody s) : Custody (s.setValue lib h r res) := by
  obtain ⟨hentry, hopen⟩ := hs.fulfilling h r res hfocus
  have howner := (hs.keyed h r hentry).2
  have hothers := setValue_owner lib s h r res
  have hrest := setValue_open lib s h r res
  constructor
  case conserved =>
    intro r'
    refine hs.balance (setValue_places lib hfocus (howner.symm ▸ hentry) hopen r') ?_
    rw [Sent, hothers]
    exact Iff.rfl
  case concern =>
    intro h' r' hr
    rw [hothers]
    exact hs.concern h' r' hr
  case awaited =>
    intro r' hlt hopen'
    rw [hothers]
    exact hs.awaited r' hlt ((hrest r').mp hopen').1
  case routed => exact fun h' r' hr hopen' => hs.routed h' r' hr ((hrest r').mp hopen').1
  case keyed =>
    intro h' r' hentry'
    rw [hothers]
    exact hs.keyed h' r' hentry'
  case settled =>
    intro h' r' hentry' hset
    by_cases he : r' = r
    · subst he
      have hkey : h = h' := howner.symm.trans (hs.keyed h' r' hentry').2
      exact .inl (congrArg Focus.removing hkey)
    · have hset' : ¬s.Open r' := fun ho => hset ((hrest r').mpr ⟨ho, he⟩)
      exact absurd (hs.settled h' r' hentry' hset') (not_closing hfocus nofun nofun h')
  case adding => exact nofun
  case fulfilling => exact nofun
  case closing =>
    intro h' hclosing
    rcases hclosing with hclosing | hclosing
    · obtain rfl := Focus.removing.inj hclosing
      exact ⟨r, hentry, fun ho => ((hrest r).mp ho).2 rfl⟩
    · cases hclosing

/-- Removing the handle only moves the background thread. -/
theorem custody_removeHandle {s : Exchange} {h : CURL} (hfocus : s.focus = .removing h)
    (hs : Custody s) : Custody (s.removeHandle h) := by
  have hu := libcurl_unmoved s (s.attached.erase h) (s.running.erase h) s.msgs s.focus
  have hremoved := hu.custody rfl hs
  refine hremoved.refocus _ (fun _ hheld => nomatch hfocus.symm.trans hheld) nofun ?_ nofun nofun ?_
  · intro h' r hentry hset
    have hclosing := hs.settled h' r hentry hset
    rw [Closing, hfocus] at hclosing
    rcases hclosing with hclosing | hclosing
    · exact .inr (congrArg Focus.erasing (Focus.removing.inj hclosing))
    · cases hclosing
  · intro h' hclosing
    rcases hclosing with hclosing | hclosing
    · cases hclosing
    · obtain rfl := Focus.erasing.inj hclosing
      exact hs.closing h (.inl hfocus)

/-- An entry whose promise is set is no place of its request. -/
theorem erase_places {s : Exchange} {h : CURL} {r : RequestId} (hfocus : s.focus = .erasing h)
    (hentry : s.ongoingRequests h = some r) (hset : ¬s.Open r) (r' : RequestId) :
    (s.erase h).places r' = s.places r' := by
  have hhand : s.focus ≠ .held r' := fun hheld => nomatch hfocus.symm.trans hheld
  have hhand' : (s.erase h).focus ≠ .held r' := nofun
  have hstored : (s.erase h).ongoingRequests (s.owner r') = some r' ∧ s.Open r' ↔
      s.ongoingRequests (s.owner r') = some r' ∧ s.Open r' := by
    refine and_congr_left fun hopen => ?_
    change Function.update s.ongoingRequests h none (s.owner r') = _ ↔ _
    by_cases he : s.owner r' = h
    · rw [he, Function.update_self, hentry]
      refine iff_of_false nofun fun hsame => ?_
      exact hset (Option.some.inj hsame ▸ hopen)
    · rw [Function.update_of_ne he]
  have hrest : (s.erase h).Open r' ↔ s.Open r' := Iff.rfl
  have howner : (s.erase h).owner r' = s.owner r' := rfl
  unfold places
  rw [if_neg hhand, if_neg hhand', howner]
  simp only [hrest, hstored]
  rfl

/-- The erased entry was completed, so no open request loses its place. -/
theorem custody_erase {s : Exchange} {h : CURL} (hfocus : s.focus = .erasing h) (hs : Custody s) :
    Custody (s.erase h) := by
  obtain ⟨r, hentry, hset⟩ := hs.closing h (.inr hfocus)
  have hkept {h' : CURL} {r' : RequestId} (hentry' : (s.erase h).ongoingRequests h' = some r') :
      h' ≠ h ∧ s.ongoingRequests h' = some r' := by
    have hne : h' ≠ h := by
      intro he
      subst he
      have hnone : (s.erase h').ongoingRequests h' = none := Function.update_self _ _ _
      cases hnone.symm.trans hentry'
    exact ⟨hne, (Function.update_of_ne hne _ _).symm.trans hentry'⟩
  constructor
  case conserved =>
    exact fun r' => hs.balance (erase_places hfocus hentry hset r') Iff.rfl
  case concern => exact hs.concern
  case awaited => exact hs.awaited
  case routed => exact hs.routed
  case keyed => exact fun h' r' hentry' => hs.keyed h' r' (hkept hentry').2
  case settled =>
    intro h' r' hentry' hset'
    obtain ⟨hne, hbefore⟩ := hkept hentry'
    have hclosing := hs.settled h' r' hbefore hset'
    rw [Closing, hfocus] at hclosing
    rcases hclosing with hclosing | hclosing
    · cases hclosing
    · exact absurd (Focus.erasing.inj hclosing).symm hne
  case adding => exact nofun
  case fulfilling => exact nofun
  case closing =>
    intro h' hclosing
    rcases hclosing with hclosing | hclosing <;> cases hclosing

/-- The popped request changes its place in the queue for one in hand. -/
theorem pop_places {s : Exchange} {r : RequestId} {rest : List RequestId} (hfocus : s.focus = .idle)
    (hpending : s.pendingRequests = r :: rest) (r' : RequestId) :
    (s.pop r rest).places r' = s.places r' := by
  have hhand : s.focus ≠ .held r' := fun hheld => nomatch hfocus.symm.trans hheld
  have hcount : s.pendingRequests.count r' = rest.count r' + if r = r' then 1 else 0 := by
    rw [hpending, List.count_cons]
    simp only [beq_iff_eq]
  have hheld : (s.pop r rest).focus = .held r' ↔ r = r' := by
    rw [pop, Focus.held.injEq]
  unfold places
  rw [if_neg hhand, hcount]
  simp only [hheld]
  rfl

/-- The oldest request moves from the queue into the background thread's hands. -/
theorem custody_pop {s : Exchange} {r : RequestId} {rest : List RequestId} (hfocus : s.focus = .idle)
    (hpending : s.pendingRequests = r :: rest) (hs : Custody s) : Custody (s.pop r rest) where
  conserved r' := hs.balance (pop_places hfocus hpending r') Iff.rfl
  concern := hs.concern
  awaited := hs.awaited
  routed := hs.routed
  keyed := hs.keyed
  settled h r' hentry hset :=
    absurd (hs.entry_open (not_closing hfocus nofun nofun h) hentry) hset
  adding := nofun
  fulfilling := nofun
  closing h hclosing := by
    rcases hclosing with hclosing | hclosing <;> cases hclosing

/-- The stored request changes its place in hand for one in the map. -/
theorem insert_places {s : Exchange} {h : CURL} {r : RequestId} (hfocus : s.focus = .held r)
    (hhandle : s.owner r = h) (hopen : s.Open r) (habsent : s.ongoingRequests h = none)
    (r' : RequestId) : (s.insert h r).places r' = s.places r' := by
  have hheld : s.focus = .held r' ↔ r = r' := by rw [hfocus, Focus.held.injEq]
  have hhand' : (s.insert h r).focus ≠ .held r' := nofun
  have hrest : (s.insert h r).Open r' ↔ s.Open r' := Iff.rfl
  have howner : (s.insert h r).owner r' = s.owner r' := rfl
  have hqueue : (s.insert h r).pendingRequests = s.pendingRequests := rfl
  unfold places
  rw [if_neg hhand', howner, hqueue]
  by_cases hr : r = r'
  · subst hr
    have hstored : (s.insert h r).ongoingRequests (s.owner r) = some r := by
      rw [hhandle]
      exact Function.update_self _ _ _
    have hunstored : ¬(s.ongoingRequests (s.owner r) = some r ∧ s.Open r) := by
      rw [hhandle, habsent]
      exact fun hboth => nomatch hboth.1
    rw [if_pos ⟨hstored, hopen⟩, if_pos hfocus, if_neg hunstored]
    rfl
  · have hstored : (s.insert h r).ongoingRequests (s.owner r') = some r' ↔
        s.ongoingRequests (s.owner r') = some r' := by
      change Function.update s.ongoingRequests h (some r) (s.owner r') = _ ↔ _
      by_cases he : s.owner r' = h
      · rw [he, Function.update_self, habsent]
        exact iff_of_false (fun hsame => hr (Option.some.inj hsame)) nofun
      · rw [Function.update_of_ne he]
    rw [if_neg (mt hheld.mp hr)]
    simp only [hrest, hstored]

/-- The request in hand moves into the map. -/
theorem custody_insert {s : Exchange} {h : CURL} {r : RequestId} (hfocus : s.focus = .held r)
    (hhandle : s.owner r = h) (habsent : s.ongoingRequests h = none) (hs : Custody s) :
    Custody (s.insert h r) := by
  obtain ⟨hsent, hopen, -⟩ := hs.held hfocus
  have hawaited := hs.awaited r hsent.1 hopen
  have hkept {h' : CURL} {r' : RequestId} (hentry : (s.insert h r).ongoingRequests h' = some r') :
      h' = h ∧ r' = r ∨ h' ≠ h ∧ s.ongoingRequests h' = some r' := by
    by_cases he : h' = h
    · subst he
      have hnew : (s.insert h' r).ongoingRequests h' = some r := Function.update_self _ _ _
      exact .inl ⟨rfl, Option.some.inj (hentry.symm.trans hnew)⟩
    · exact .inr ⟨he, (Function.update_of_ne he _ _).symm.trans hentry⟩
  constructor
  case conserved =>
    exact fun r' => hs.balance (insert_places hfocus hhandle hopen habsent r') Iff.rfl
  case concern => exact hs.concern
  case awaited => exact hs.awaited
  case routed =>
    intro h' r' hr hopen'
    have hroute := hs.routed h' r' hr hopen'
    by_cases he : h' = h
    · subst he
      -- the only open request of the handle is the one being stored
      rw [hhandle] at hawaited
      have hsame : r = r' := Option.some.inj (hawaited.symm.trans hr)
      have heasy : (s.insert h' r).easy h' = { s.easy h' with privateData := some r } :=
        Function.update_self _ _ _
      rw [heasy, hsame]
      exact ⟨hroute.headerFunction, hroute.headerData, hroute.writeFunction, hroute.writeData, rfl⟩
    · have heasy : (s.insert h r).easy h' = s.easy h' := Function.update_of_ne he _ _
      rw [heasy]
      exact hroute
  case keyed =>
    intro h' r' hentry
    rcases hkept hentry with ⟨rfl, rfl⟩ | ⟨-, hbefore⟩
    · exact ⟨hsent.1, hhandle⟩
    · exact hs.keyed h' r' hbefore
  case settled =>
    intro h' r' hentry hset
    rcases hkept hentry with ⟨rfl, rfl⟩ | ⟨-, hbefore⟩
    · exact absurd hopen hset
    · exact absurd (hs.settled h' r' hbefore hset) (not_closing hfocus nofun nofun h')
  case adding =>
    intro h' r' hadding
    obtain ⟨rfl, rfl⟩ := Focus.adding.inj hadding
    exact Function.update_self _ _ _
  case fulfilling => exact nofun
  case closing =>
    intro h' hclosing
    rcases hclosing with hclosing | hclosing <;> cases hclosing

/-- Whatever `curl_multi_add_handle` returns, the entry stays. -/
theorem custody_addHandle {s : Exchange} {h : CURL} {r : RequestId} (hfocus : s.focus = .adding h r)
    (hs : Custody s) : Custody { s with focus := .idle } := by
  refine hs.refocus s.msgs (fun _ hheld => nomatch hfocus.symm.trans hheld) nofun ?_ nofun nofun ?_
  · intro h' r' hentry hset
    exact absurd (hs.settled h' r' hentry hset) (not_closing hfocus nofun nofun h')
  · intro h' hclosing
    rcases hclosing with hclosing | hclosing <;> cases hclosing

/-! ## Attachment -/

theorem attachment_init (easy : CURL → Easy) : Attachment (init easy) where
  entry h hm := absurd hm (Finset.notMem_empty h)
  adding := nofun
  fulfilling := nofun
  removing := nofun
  erasing := nofun
  running h hm := absurd hm (Finset.notMem_empty h)
  finished _ hm := absurd hm List.not_mem_nil
  unique := List.nodup_nil

/-- libcurl's part depends on five components only. -/
theorem Attachment.congr {s t : Exchange} (hs : Attachment s)
    (hentry : t.ongoingRequests = s.ongoingRequests) (hattached : t.attached = s.attached)
    (hrunning : t.running = s.running) (hmsgs : t.finished = s.finished) (hfocus : t.focus = s.focus) :
    Attachment t := by
  obtain ⟨h1, h2, h3, h4, h5, h6, h7, h8⟩ := hs
  constructor
  all_goals
    simp only [hentry, hattached, hrunning, hmsgs, hfocus]
    assumption

/-- Moving the background thread settles what the new position says of its handle. -/
theorem Attachment.refocus {s : Exchange} (hs : Attachment s) {focus : Focus}
    (hadding : ∀ h r, focus = .adding h r → h ∉ s.attached)
    (hfulfilling : ∀ h r res, focus = .fulfilling h r res →
      h ∈ s.attached ∧ h ∉ s.running ∧ h ∉ s.finished)
    (hremoving : ∀ h, focus = .removing h → h ∈ s.attached ∧ h ∉ s.running ∧ h ∉ s.finished)
    (herasing : ∀ h, focus = .erasing h → h ∉ s.attached) :
    Attachment { s with focus := focus } where
  entry := hs.entry
  adding := hadding
  fulfilling := hfulfilling
  removing := hremoving
  erasing := herasing
  running := hs.running
  finished := hs.finished
  unique := hs.unique

/-- The finished transfer moves from running to the messages. -/
theorem attachment_finish {s : Exchange} {h : CURL} (res : CURLcode) (hrunning : h ∈ s.running)
    (hs : Attachment s) : Attachment (s.finish h res) := by
  have hfinished : (s.finish h res).finished = s.finished ++ [h] := by
    simp only [finished, finish, List.filterMap_append, List.filterMap_cons, CURLMsg.handle?,
      List.filterMap_nil]
  have hsplit (h' : CURL) : h' ∈ (s.finish h res).finished ↔ h' ∈ s.finished ∨ h' = h := by
    rw [hfinished, List.mem_append, List.mem_singleton]
  have hone := hs.running h hrunning
  -- a transfer that is over is another one
  have hover (h' : CURL) (hbefore : h' ∈ s.attached ∧ h' ∉ s.running ∧ h' ∉ s.finished) :
      h' ∈ s.attached ∧ h' ∉ s.running.erase h ∧ h' ∉ (s.finish h res).finished := by
    refine ⟨hbefore.1, fun hm => hbefore.2.1 (Finset.mem_of_mem_erase hm), fun hm => ?_⟩
    rcases (hsplit h').mp hm with hm | rfl
    · exact hbefore.2.2 hm
    · exact hbefore.2.1 hrunning
  constructor
  case entry => exact hs.entry
  case adding => exact hs.adding
  case fulfilling => exact fun h' r res' hfocus => hover h' (hs.fulfilling h' r res' hfocus)
  case removing => exact fun h' hfocus => hover h' (hs.removing h' hfocus)
  case erasing => exact hs.erasing
  case running =>
    intro h' hm
    obtain ⟨hne, hm⟩ := Finset.mem_erase.mp hm
    obtain ⟨hattached, hsilent⟩ := hs.running h' hm
    refine ⟨hattached, fun hm' => ?_⟩
    rcases (hsplit h').mp hm' with hm' | he
    · exact hsilent hm'
    · exact hne he
  case finished =>
    intro h' hm
    rcases (hsplit h').mp hm with hm | rfl
    · exact hs.finished h' hm
    · exact hone.1
  case unique =>
    rw [hfinished, List.nodup_append]
    refine ⟨hs.unique, List.nodup_singleton h, fun h' hm h'' hm' he => ?_⟩
    rw [List.mem_singleton.mp hm'] at he
    exact hone.2 (he ▸ hm)

/-- The message read was the only one of its handle. -/
theorem attachment_fulfilling {s : Exchange} {h : CURL} (r : RequestId) {res : CURLcode}
    {rest : List CURLMsg} (hmsgs : s.msgs = .done h res :: rest) (hs : Attachment s) :
    Attachment { s with msgs := rest, focus := .fulfilling h r res } := by
  have hfinished : s.finished = h :: rest.filterMap CURLMsg.handle? := by
    simp only [finished, hmsgs, List.filterMap_cons, CURLMsg.handle?]
  have hm : h ∈ s.finished := hfinished ▸ List.mem_cons_self
  have hrest {h' : CURL} (hm' : h' ∈ rest.filterMap CURLMsg.handle?) : h' ∈ s.finished :=
    hfinished ▸ List.mem_cons_of_mem _ hm'
  have hunique := hs.unique
  rw [hfinished, List.nodup_cons] at hunique
  constructor
  case entry => exact hs.entry
  case adding => exact nofun
  case fulfilling =>
    intro h' r' res' hfocus
    obtain ⟨rfl, -, -⟩ := Focus.fulfilling.inj hfocus
    exact ⟨hs.finished h hm, fun hrunning => (hs.running h hrunning).2 hm, hunique.1⟩
  case removing => exact nofun
  case erasing => exact nofun
  case running =>
    intro h' hrunning
    obtain ⟨hattached, hsilent⟩ := hs.running h' hrunning
    exact ⟨hattached, fun hm' => hsilent (hrest hm')⟩
  case finished => exact fun h' hm' => hs.finished h' (hrest hm')
  case unique => exact hunique.2

/-- A message of another kind is about no handle. -/
theorem attachment_notice {s : Exchange} (hs : Attachment s) :
    Attachment { s with msgs := s.msgs ++ [.other] } := by
  refine hs.congr rfl rfl rfl ?_ rfl
  simp only [finished, List.filterMap_append, List.filterMap_cons, CURLMsg.handle?,
    List.filterMap_nil, List.append_nil]

/-- Skipping such a message leaves the handles with a message alone. -/
theorem attachment_infoSkip {s : Exchange} {rest : List CURLMsg} (hmsgs : s.msgs = .other :: rest)
    (hs : Attachment s) : Attachment { s with msgs := rest } := by
  refine hs.congr rfl rfl rfl ?_ rfl
  simp only [finished, hmsgs, List.filterMap_cons, CURLMsg.handle?]

/-- The transfer whose promise was set is over. -/
theorem attachment_setValue (lib : Library) {s : Exchange} {h : CURL} {r : RequestId} {res : CURLcode}
    (hfocus : s.focus = .fulfilling h r res) (hs : Attachment s) :
    Attachment (s.setValue lib h r res) := by
  have hover := hs.fulfilling h r res hfocus
  have hmoved : Attachment { s with focus := .removing h } := by
    refine hs.refocus nofun nofun (fun h' hremoving => ?_) nofun
    obtain rfl := Focus.removing.inj hremoving
    exact hover
  exact hmoved.congr rfl rfl rfl rfl rfl

/-- Nothing of the removed handle is left in libcurl. -/
theorem attachment_removeHandle {s : Exchange} {h : CURL} (hs : Attachment s) :
    Attachment (s.removeHandle h) := by
  have hfinished : (s.removeHandle h).finished = s.finished.filter (· ≠ h) := by
    simp only [finished, removeHandle, List.filterMap_filter, List.filter_filterMap]
    congr
    funext msg
    cases msg <;> simp [CURLMsg.handle?, Option.filter]
  have hkept (h' : CURL) : h' ∈ (s.removeHandle h).finished ↔ h' ∈ s.finished ∧ h' ≠ h := by
    rw [hfinished, List.mem_filter, decide_eq_true_eq]
  constructor
  case entry => exact fun h' hm => hs.entry h' (Finset.mem_of_mem_erase hm)
  case adding => exact nofun
  case fulfilling => exact nofun
  case removing => exact nofun
  case erasing =>
    intro h' hfocus
    obtain rfl := Focus.erasing.inj hfocus
    exact Finset.notMem_erase h s.attached
  case running =>
    intro h' hm
    obtain ⟨hne, hm⟩ := Finset.mem_erase.mp hm
    obtain ⟨hattached, hsilent⟩ := hs.running h' hm
    exact ⟨Finset.mem_erase.mpr ⟨hne, hattached⟩, fun hm' => hsilent ((hkept h').mp hm').1⟩
  case finished =>
    intro h' hm
    obtain ⟨hm, hne⟩ := (hkept h').mp hm
    exact Finset.mem_erase.mpr ⟨hne, hs.finished h' hm⟩
  case unique =>
    rw [hfinished]
    exact hs.unique.filter _

/-- The erased entry belonged to a detached handle. -/
theorem attachment_erase {s : Exchange} {h : CURL} (hfocus : s.focus = .erasing h)
    (hs : Attachment s) : Attachment (s.erase h) where
  entry h' hm := by
    have hne : h' ≠ h := fun he => hs.erasing h hfocus (he ▸ hm)
    have hsame : (s.erase h).ongoingRequests h' = s.ongoingRequests h' := Function.update_of_ne hne _ _
    rw [hsame]
    exact hs.entry h' hm
  adding := nofun
  fulfilling := nofun
  removing := nofun
  erasing := nofun
  running := hs.running
  finished := hs.finished
  unique := hs.unique

/-- A request in hand is no business of libcurl. -/
theorem attachment_pop {s : Exchange} (r : RequestId) (rest : List RequestId) (hs : Attachment s) :
    Attachment (s.pop r rest) := by
  have hmoved : Attachment { s with focus := .held r } := hs.refocus nofun nofun nofun nofun
  exact hmoved.congr rfl rfl rfl rfl rfl

/-- A handle without entry is not attached, so the one being added is not. -/
theorem attachment_insert {s : Exchange} {h : CURL} (r : RequestId)
    (habsent : s.ongoingRequests h = none) (hs : Attachment s) : Attachment (s.insert h r) := by
  have hdetached : h ∉ s.attached := fun hm => hs.entry h hm habsent
  constructor
  case entry =>
    intro h' hm
    have hne : h' ≠ h := fun he => hdetached (he ▸ hm)
    have hsame : (s.insert h r).ongoingRequests h' = s.ongoingRequests h' :=
      Function.update_of_ne hne _ _
    rw [hsame]
    exact hs.entry h' hm
  case adding =>
    intro h' r' hfocus
    obtain ⟨rfl, -⟩ := Focus.adding.inj hfocus
    exact hdetached
  case fulfilling => exact nofun
  case removing => exact nofun
  case erasing => exact nofun
  case running => exact hs.running
  case finished => exact hs.finished
  case unique => exact hs.unique

/-- The added handle has its entry and starts to run. -/
theorem attachment_attach {s : Exchange} {h : CURL} {r : RequestId} (hentry : s.ongoingRequests h = some r)
    (hdetached : h ∉ s.attached) (hs : Attachment s) : Attachment (s.attach h) := by
  have hsilent : h ∉ s.finished := fun hm => hdetached (hs.finished h hm)
  constructor
  case entry =>
    intro h' hm
    rcases Finset.mem_insert.mp hm with rfl | hm
    · exact fun hnone => nomatch hnone.symm.trans hentry
    · exact hs.entry h' hm
  case adding => exact nofun
  case fulfilling => exact nofun
  case removing => exact nofun
  case erasing => exact nofun
  case running =>
    intro h' hm
    rcases Finset.mem_insert.mp hm with rfl | hm
    · exact ⟨Finset.mem_insert_self _ _, hsilent⟩
    · obtain ⟨hattached, hrest⟩ := hs.running h' hm
      exact ⟨Finset.mem_insert_of_mem hattached, hrest⟩
  case finished => exact fun h' hm => Finset.mem_insert_of_mem (hs.finished h' hm)
  case unique => exact hs.unique

/-- A failed addition changes nothing in libcurl. -/
theorem attachment_attachFailed {s : Exchange} (hs : Attachment s) :
    Attachment { s with focus := .idle } := hs.refocus nofun nofun nofun nofun

/-! ## Both together -/

/-- The invariant of the exchange. -/
structure Inv (s : Exchange) : Prop where
  custody : Custody s
  attachment : Attachment s

theorem inv_init (easy : CURL → Easy) : Inv (init easy) := ⟨custody_init easy, attachment_init easy⟩

/-- An attached handle is stored with an open request, awaited by its client
and routed to itself, unless the handle is being closed. -/
theorem Inv.attached_entry {s : Exchange} (hs : Inv s) {h : CURL} (hattached : h ∈ s.attached)
    (hclosing : ¬s.Closing h) :
    ∃ r, s.ongoingRequests h = some r ∧ s.Open r ∧ RoutedTo (s.easy h) r := by
  obtain ⟨r, hentry⟩ := Option.ne_none_iff_exists'.mp (hs.attachment.entry h hattached)
  have hopen := hs.custody.entry_open hclosing hentry
  obtain ⟨hlt, howner⟩ := hs.custody.keyed h r hentry
  have hawaited := hs.custody.awaited r hlt hopen
  rw [howner] at hawaited
  exact ⟨r, hentry, hopen, hs.custody.routed h r hawaited hopen⟩

/-- A handle with an unread message is not being closed. -/
theorem Inv.not_closing {s : Exchange} (hs : Inv s) {h : CURL}
    (hm : h ∈ s.running ∨ h ∈ s.finished) : ¬s.Closing h := by
  intro hc
  rcases hc with hc | hc
  · have hover := hs.attachment.removing h hc
    rcases hm with hm | hm
    · exact hover.2.1 hm
    · exact hover.2.2 hm
  · refine hs.attachment.erasing h hc ?_
    rcases hm with hm | hm
    · exact (hs.attachment.running h hm).1
    · exact hs.attachment.finished h hm

/-- The private data of a message's handle names its entry. -/
theorem Inv.message_entry {s : Exchange} (hs : Inv s) {h : CURL} {r : RequestId} {res : CURLcode}
    {rest : List CURLMsg} (hmsgs : s.msgs = .done h res :: rest)
    (hprivate : (s.easy h).privateData = some r) : s.ongoingRequests h = some r := by
  have hm : h ∈ s.finished := by
    simp only [finished, hmsgs, List.filterMap_cons, CURLMsg.handle?, List.mem_cons, true_or]
  obtain ⟨r', hentry, -, hroute⟩ :=
    hs.attached_entry (hs.attachment.finished h hm) (hs.not_closing (.inr hm))
  have he := hroute.privateData.symm.trans hprivate
  rw [hentry]
  exact he

/-- Every step keeps the invariant. -/
theorem inv_step {lib : Library} {s t : Exchange} {a : Action} (hs : Inv s) (hstep : Step lib s a t) :
    Inv t := by
  cases hstep with
  | build hidle => exact ⟨custody_build hidle hs.custody, hs.attachment.congr rfl rfl rfl rfl rfl⟩
  | setUrl url hbuilt =>
    exact ⟨(setUrl_unmoved s _ _ url).custody rfl hs.custody, hs.attachment.congr rfl rfl rfl rfl rfl⟩
  | configure hpc hroute =>
    exact ⟨(configure_unmoved hroute).custody rfl hs.custody, hs.attachment.congr rfl rfl rfl rfl rfl⟩
  | enqueue hbuilt => exact ⟨custody_enqueue hbuilt hs.custody, hs.attachment.congr rfl rfl rfl rfl rfl⟩
  | signal ok henqueued =>
    exact ⟨custody_signal ok henqueued hs.custody, hs.attachment.congr rfl rfl rfl rfl rfl⟩
  | receive hwaiting hset =>
    exact ⟨custody_receive hwaiting hset hs.custody, hs.attachment.congr rfl rfl rfl rfl rfl⟩
  | callback hrunning htarget hreceive =>
    exact ⟨(setInfo_unmoved s _ _).custody rfl hs.custody, hs.attachment.congr rfl rfl rfl rfl rfl⟩
  | @finish h res hrunning =>
    have hu := libcurl_unmoved s s.attached (s.running.erase h) (s.msgs ++ [.done h res]) s.focus
    exact ⟨hu.custody rfl hs.custody, attachment_finish res hrunning hs.attachment⟩
  | notice =>
    have hu := libcurl_unmoved s s.attached s.running (s.msgs ++ [.other]) s.focus
    exact ⟨hu.custody rfl hs.custody, attachment_notice hs.attachment⟩
  | @infoSkip rest hfocus hmsgs =>
    have hu := libcurl_unmoved s s.attached s.running rest s.focus
    exact ⟨hu.custody rfl hs.custody, attachment_infoSkip hmsgs hs.attachment⟩
  | @infoRead h r res rest code hfocus hmsgs hprivate =>
    have hentry := hs.message_entry hmsgs hprivate
    have hinfo : Attachment (s.setInfo r { (s.request r).info with responseCode := UInt16.ofNat code }) :=
      hs.attachment.congr rfl rfl rfl rfl rfl
    exact ⟨custody_infoRead res code rest hfocus hentry hs.custody,
      attachment_fulfilling r hmsgs hinfo⟩
  | setValue hfocus hunset =>
    exact ⟨custody_setValue lib hfocus hs.custody, attachment_setValue lib hfocus hs.attachment⟩
  | removeHandle hfocus =>
    exact ⟨custody_removeHandle hfocus hs.custody, attachment_removeHandle hs.attachment⟩
  | erase hfocus hfound => exact ⟨custody_erase hfocus hs.custody, attachment_erase hfocus hs.attachment⟩
  | pop hfocus hpending =>
    exact ⟨custody_pop hfocus hpending hs.custody, attachment_pop _ _ hs.attachment⟩
  | insert hfocus hhandle habsent =>
    exact ⟨custody_insert hfocus hhandle habsent hs.custody, attachment_insert _ habsent hs.attachment⟩
  | @attach h r hfocus hdetached =>
    have hadded := custody_addHandle hfocus hs.custody
    have hu := libcurl_unmoved { s with focus := .idle } (Insert.insert h s.attached)
      (Insert.insert h s.running) s.msgs .idle
    exact ⟨hu.custody rfl hadded,
      attachment_attach (hs.custody.adding h r hfocus) hdetached hs.attachment⟩
  | attachFailed hfocus hcode =>
    exact ⟨custody_addHandle hfocus hs.custody, attachment_attachFailed hs.attachment⟩

end CurlHttpfs.Manager.Exchange
