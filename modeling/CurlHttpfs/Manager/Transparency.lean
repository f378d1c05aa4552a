import CurlHttpfs.Client.Responses
import CurlHttpfs.Manager.LoopInvariant

/-!
# Concurrency is transparent to a client

Any number of clients share one event loop, one queue and one multi handle.
What a client gets back is nevertheless decided by its own dialogue alone:
the URL it set and what libcurl did to its own handle since it constructed
its request. The response is the one a client computes that has libcurl for
itself.
-/

namespace CurlHttpfs.Manager

open Http Curl Transition Client

section

variable [HeaderMap]

/-! ## What concerns one client -/

/-- What a client and libcurl have done to the client's latest request. -/
structure Dialogue where
  /-- The URL the client set. -/
  url : Str
  /-- Callbacks, status code and result of its transfer so far. -/
  outcome : Outcome

/-- Nothing has happened since the construction. -/
def Dialogue.empty : Dialogue := ⟨[], ⟨[], 0, curleOk⟩⟩

/-- A step is noted when it is about the client's own handle. -/
def Dialogue.note (h : CURL) (d : Dialogue) : Exchange.Action → Dialogue
  | .build h' => if h' = h then .empty else d
  | .setUrl h' url => if h' = h then { d with url := url } else d
  | .callback h' event =>
    if h' = h then { d with outcome := { d.outcome with events := d.outcome.events ++ [event] } } else d
  | .finish h' res => if h' = h then { d with outcome := { d.outcome with result := res } } else d
  | .infoRead h' code => if h' = h then { d with outcome := { d.outcome with responseCode := code } } else d
  | _ => d

/-- The dialogue of a client in a sequence of steps. -/
def dialogue (h : CURL) (actions : List Exchange.Action) : Dialogue :=
  actions.foldl (Dialogue.note h) .empty

/-- What the dialogue fills into a new request. -/
def Dialogue.filled (d : Dialogue) : Except Fault RequestInfo :=
  (d.outcome.events.foldlM receiveRequest { url := d.url }).map fun info =>
    { info with responseCode := UInt16.ofNat d.outcome.responseCode }

/-- The response to the dialogue. -/
def Dialogue.response (lib : Library) (d : Dialogue) : Except Fault HTTPResponse :=
  d.filled.map fun info => checkMultiResponse lib info d.outcome.result

/-- Callbacks do not look at the status code. -/
theorem receiveRequest_responseCode (info : RequestInfo) (code : UInt16) (event : TransferEvent) :
    receiveRequest { info with responseCode := code } event =
      (receiveRequest info event).map fun info => { info with responseCode := code } := by
  cases event with
  | header d =>
    simp only [receiveRequest, writeHeader]
    cases collectHeader info.headerCollection (d.contents.take (d.size * d.nmemb)) <;> rfl
  | body d => rfl

/-- A callback fills what it filled before. -/
theorem filled_callback {d : Dialogue} {info info' : RequestInfo} {event : TransferEvent}
    (hfilled : d.filled = .ok info) (hreceive : receiveRequest info event = .ok info') :
    Dialogue.filled { d with outcome := { d.outcome with events := d.outcome.events ++ [event] } } =
      .ok info' := by
  unfold Dialogue.filled at hfilled ⊢
  rw [List.foldlM_append]
  cases hfold : d.outcome.events.foldlM receiveRequest { url := d.url } with
  | error fault =>
    rw [hfold] at hfilled
    cases hfilled
  | ok before =>
    rw [hfold] at hfilled
    obtain rfl := Except.ok.inj hfilled
    rw [receiveRequest_responseCode] at hreceive
    change (List.foldlM receiveRequest before [event]).map _ = _
    rw [List.foldlM_cons]
    cases hone : receiveRequest before event with
    | error fault =>
      rw [hone] at hreceive
      cases hreceive
    | ok behind =>
      rw [hone] at hreceive
      exact hreceive

/-- A new status code replaces the old one. -/
theorem filled_code {d : Dialogue} {info : RequestInfo} (hfilled : d.filled = .ok info) (code : Nat) :
    Dialogue.filled { d with outcome := { d.outcome with responseCode := code } } =
      .ok { info with responseCode := UInt16.ofNat code } := by
  unfold Dialogue.filled at hfilled ⊢
  dsimp only
  cases hfold : d.outcome.events.foldlM receiveRequest { url := d.url } with
  | error fault =>
    rw [hfold] at hfilled
    cases hfilled
  | ok before =>
    rw [hfold] at hfilled
    obtain rfl := Except.ok.inj hfilled
    rfl

/-- Before the first callback a new URL replaces the old one. -/
theorem filled_url {d : Dialogue} {info : RequestInfo} (hfilled : d.filled = .ok info)
    (hquiet : d.outcome.events = []) (url : Str) :
    Dialogue.filled { d with url := url } = .ok { info with url := url } := by
  unfold Dialogue.filled at hfilled ⊢
  dsimp only
  rw [hquiet] at hfilled ⊢
  obtain rfl := Except.ok.inj hfilled
  rfl

namespace Exchange

/-! ## What the exchange keeps of a dialogue -/

/-- The state of a client's request is what its dialogue says. -/
structure Told (lib : Library) (d : Dialogue) (s : Exchange) (h : CURL) : Prop where
  /-- No callback comes before the request is sent. -/
  quiet : ∀ r, s.client h = .built r → d.outcome.events = []
  /-- An open request is filled by the dialogue. -/
  filled : ∀ r, (s.client h).request? = some r → s.Open r → d.filled = .ok (s.request r).info
  /-- A set promise holds the response to the dialogue. -/
  answered : ∀ r, (s.client h).request? = some r → ¬s.Open r →
    ∃ resp, d.response lib = .ok resp ∧ (s.request r).response = some resp
  /-- A message has the result of the transfer. -/
  message : ∀ res, .done h res ∈ s.msgs → d.outcome.result = res
  /-- So has the message in hand. -/
  fulfilling : ∀ r res, s.focus = .fulfilling h r res → d.outcome.result = res

/-- Steps about other clients leave it so. -/
theorem Told.frame {lib : Library} {d : Dialogue} {s t : Exchange} {h : CURL} (hs : Told lib d s h)
    (hclient : t.client h = s.client h)
    (hrequest : ∀ r, (s.client h).request? = some r → t.request r = s.request r)
    (hmsgs : ∀ res, .done h res ∈ t.msgs → .done h res ∈ s.msgs)
    (hfocus : ∀ r res, t.focus = .fulfilling h r res → s.focus = .fulfilling h r res) : Told lib d t h where
  quiet r hbuilt := hs.quiet r (hclient ▸ hbuilt)
  filled r hr hopen := by
    rw [hclient] at hr
    have hsame := hrequest r hr
    rw [hsame]
    rw [Open, hsame] at hopen
    exact hs.filled r hr hopen
  answered r hr hset := by
    rw [hclient] at hr
    have hsame := hrequest r hr
    rw [hsame]
    rw [Open, hsame] at hset
    exact hs.answered r hr hset
  message res hm := hs.message res (hmsgs res hm)
  fulfilling r res hf := hs.fulfilling r res (hfocus r res hf)

/-- A handle that runs or has a message is busy with the open request its client sent. -/
theorem Inv.busy {s : Exchange} (hs : Inv s) {h : CURL} (hm : h ∈ s.running ∨ h ∈ s.finished) :
    ∃ r, s.ongoingRequests h = some r ∧ s.Open r ∧ (s.client h).request? = some r ∧
      ∀ r', s.client h ≠ .built r' := by
  have hattached : h ∈ s.attached := hm.elim (fun hr => (hs.attachment.running h hr).1) (hs.attachment.finished h)
  obtain ⟨r, hentry, hopen, -⟩ := hs.attached_entry hattached (hs.not_closing hm)
  obtain ⟨hlt, howner⟩ := hs.custody.keyed h r hentry
  have hawaited := hs.custody.awaited r hlt hopen
  rw [howner] at hawaited
  refine ⟨r, hentry, hopen, hawaited, fun r' hbuilt => ?_⟩
  -- an entry counts as a place, so its request was sent
  have hplaces := hs.custody.conserved r
  have hone : (if s.ongoingRequests h = some r ∧ s.Open r then 1 else 0) = 1 := if_pos ⟨hentry, hopen⟩
  rw [hbuilt] at hawaited
  obtain rfl := Option.some.inj hawaited
  rw [places, if_neg (hs.custody.built_unsent hbuilt), howner, hone] at hplaces
  omega

/-- A message makes its handle finished. -/
theorem mem_finished {s : Exchange} {h : CURL} {res : CURLcode} (hm : .done h res ∈ s.msgs) : h ∈ s.finished :=
  List.mem_filterMap.mpr ⟨_, hm, rfl⟩

/-- The handle in hand between its message and its promise is busy, too. -/
theorem Inv.fulfilling_busy {s : Exchange} (hs : Inv s) {h : CURL} {r : RequestId} {res : CURLcode}
    (hfocus : s.focus = .fulfilling h r res) : s.Open r ∧ (s.client h).request? = some r := by
  obtain ⟨hentry, hopen⟩ := hs.custody.fulfilling h r res hfocus
  obtain ⟨hlt, howner⟩ := hs.custody.keyed h r hentry
  have hawaited := hs.custody.awaited r hlt hopen
  rw [howner] at hawaited
  exact ⟨hopen, hawaited⟩

/-- Two clients are concerned with different requests. -/
theorem Inv.concern_ne {s : Exchange} (hs : Inv s) {h h' : CURL} {r r' : RequestId} (hne : h' ≠ h)
    (hr : (s.client h).request? = some r) (hr' : (s.client h').request? = some r') : r ≠ r' := by
  rintro rfl
  have howner := (hs.custody.concern h r hr).2
  have howner' := (hs.custody.concern h' r hr').2
  exact hne (howner'.symm.trans howner)

/-- A client that constructs a request opens an empty dialogue. -/
theorem told_build {lib : Library} {d : Dialogue} {s : Exchange} {h h' : CURL} (hs : Inv s)
    (ht : Told lib d s h) (hidle : s.client h' = .idle) : Told lib (d.note h (.build h')) (s.build h') h := by
  by_cases he : h' = h
  · subst he
    have hnew (r : RequestId) (hr : ((s.build h').client h').request? = some r) : r = s.nextRequest := by
      simp only [build, Function.update_self, ClientPc.request?, Option.some.injEq] at hr
      exact hr.symm
    have hinfo : (s.build h').request s.nextRequest = CurlRequest.create h' := Function.update_self _ _ _
    rw [Dialogue.note, if_pos rfl]
    constructor
    case quiet => exact fun _ _ => rfl
    case filled =>
      intro r hr hopen
      rw [hnew r hr, hinfo]
      rfl
    case answered =>
      intro r hr hset
      rw [hnew r hr, Open, hinfo] at hset
      exact absurd rfl hset
    case message =>
      intro res hm
      obtain ⟨r, -, -, hr, -⟩ := hs.busy (.inr (mem_finished hm))
      rw [hidle] at hr
      cases hr
    case fulfilling =>
      intro r res hf
      have hr := (hs.fulfilling_busy hf).2
      rw [hidle] at hr
      cases hr
  · rw [Dialogue.note, if_neg he]
    refine ht.frame (Function.update_of_ne (Ne.symm he) _ _) ?_ (fun _ hm => hm) fun _ _ hf => hf
    intro r hr
    have hold : r ≠ s.nextRequest := Nat.ne_of_lt (hs.custody.concern h r hr).1
    rw [build_request, if_neg hold]

/-- A step that only fills in the request of another client. -/
theorem Told.other {lib : Library} {d : Dialogue} {s : Exchange} {h h' : CURL} {r : RequestId} (hs : Inv s)
    (ht : Told lib d s h) (hne : h' ≠ h) (hr : (s.client h').request? = some r) (info : RequestInfo) :
    Told lib d (s.setInfo r info) h :=
  ht.frame rfl (fun _ hr' => Function.update_of_ne (hs.concern_ne hne hr' hr) _ _) (fun _ hm => hm)
    fun _ _ hf => hf

/-- A step that fills in the open request of the client itself. -/
theorem Told.fill {lib : Library} {d : Dialogue} {s : Exchange} {h : CURL} {r : RequestId} (ht : Told lib d s h)
    (hr : (s.client h).request? = some r) (hopen : s.Open r) {d' : Dialogue} {info : RequestInfo}
    (hquiet : ∀ r, s.client h = .built r → d'.outcome.events = []) (hfilled : d'.filled = .ok info)
    (hresult : d'.outcome.result = d.outcome.result) : Told lib d' (s.setInfo r info) h := by
  have hself : (s.setInfo r info).request r = { s.request r with info := info } := Function.update_self _ _ _
  have hstays : (s.setInfo r info).Open r := ((setInfo_unmoved s r info).isOpen r).mpr hopen
  have hconcern (r' : RequestId) (hr' : (s.client h).request? = some r') : r' = r :=
    Option.some.inj (hr'.symm.trans hr)
  constructor
  case quiet => exact hquiet
  case filled =>
    intro r' hr' _
    rw [hconcern r' hr', hself]
    exact hfilled
  case answered =>
    intro r' hr' hset
    rw [hconcern r' hr'] at hset
    exact absurd hstays hset
  case message => exact fun res hm => hresult.trans (ht.message res hm)
  case fulfilling => exact fun r' res hf => hresult.trans (ht.fulfilling r' res hf)

/-- Setting a promise answers the dialogue of its client. -/
theorem told_setValue {lib : Library} {d : Dialogue} {s : Exchange} {h h' : CURL} {r : RequestId} {res : CURLcode}
    (hs : Inv s) (ht : Told lib d s h) (hfocus : s.focus = .fulfilling h' r res) :
    Told lib d (s.setValue lib h' r res) h := by
  obtain ⟨hopen, hr⟩ := hs.fulfilling_busy hfocus
  have hself : (s.setValue lib h' r res).request r =
      { s.request r with response := some (checkMultiResponse lib (s.request r).info res) } :=
    Function.update_self _ _ _
  by_cases he : h' = h
  · subst he
    have hconcern (r' : RequestId) (hr' : (s.client h').request? = some r') : r' = r :=
      Option.some.inj (hr'.symm.trans hr)
    constructor
    case quiet => exact ht.quiet
    case filled =>
      intro r' hr' hstays
      rw [hconcern r' hr', Open, hself] at hstays
      cases hstays
    case answered =>
      intro r' hr' _
      rw [hconcern r' hr', hself]
      refine ⟨_, ?_, rfl⟩
      rw [Dialogue.response, ht.filled r hr hopen, ht.fulfilling r res hfocus]
      rfl
    case message => exact ht.message
    case fulfilling =>
      intro r' res' hf
      cases hf
  · refine ht.frame rfl (fun r' hr' => ?_) (fun _ hm => hm) fun _ _ hf => by cases hf
    exact Function.update_of_ne (hs.concern_ne he hr' hr) _ _

/-- A step that moves a client on with the request it has. -/
theorem Told.moved {lib : Library} {d : Dialogue} {s t : Exchange} {h h' : CURL} {pc : ClientPc}
    (ht : Told lib d s h) (hpc : ∀ r, pc.request? = some r → (s.client h').request? = some r)
    (hbuilt : ∀ r, pc ≠ .built r) (hclient : t.client = Function.update s.client h' pc)
    (hrequest : t.request = s.request) (hmsgs : t.msgs = s.msgs) (hfocus : t.focus = s.focus) : Told lib d t h := by
  have hconcern (r : RequestId) (hr : (t.client h).request? = some r) : (s.client h).request? = some r := by
    rw [hclient] at hr
    rcases update_client hr with ⟨rfl, hown⟩ | ⟨-, hother⟩
    · exact hpc r hown
    · exact hother
  constructor
  case quiet =>
    intro r hr
    rw [hclient] at hr
    by_cases he : h = h'
    · rw [he, Function.update_self] at hr
      exact absurd hr (hbuilt r)
    · rw [Function.update_of_ne he] at hr
      exact ht.quiet r hr
  case filled =>
    intro r hr hopen
    rw [Open, hrequest] at hopen
    rw [hrequest]
    exact ht.filled r (hconcern r hr) hopen
  case answered =>
    intro r hr hset
    rw [Open, hrequest] at hset
    rw [hrequest]
    exact ht.answered r (hconcern r hr) hset
  case message =>
    intro res hm
    rw [hmsgs] at hm
    exact ht.message res hm
  case fulfilling =>
    intro r res hf
    rw [hfocus] at hf
    exact ht.fulfilling r res hf

/-- `SetUrl` is the first word of a dialogue. -/
theorem told_setUrl {lib : Library} {d : Dialogue} {s : Exchange} {h h' : CURL} {r : RequestId} (hs : Inv s)
    (ht : Told lib d s h) (url : Str) (hbuilt : s.client h' = .built r) :
    Told lib (d.note h (.setUrl h' url)) (s.setUrl h' r url) h := by
  have hr : (s.client h').request? = some r := by rw [hbuilt]; rfl
  have hopen := (hs.custody.unsent (hs.custody.built_unsent hbuilt)).2.2
  rw [Dialogue.note]
  by_cases he : h' = h
  · subst he
    rw [if_pos rfl]
    have hquiet := ht.quiet r hbuilt
    have hfilled := filled_url (ht.filled r hr hopen) hquiet url
    have hfill : Told lib { d with url := url } (s.setInfo r _) h' :=
      ht.fill hr hopen (fun _ _ => hquiet) hfilled rfl
    exact hfill.frame rfl (fun _ _ => rfl) (fun _ hm => hm) fun _ _ hf => hf
  · rw [if_neg he]
    have hother := ht.other hs he hr ((s.request r).setUrl url).info
    exact hother.frame rfl (fun _ _ => rfl) (fun _ hm => hm) fun _ _ hf => hf

/-- A callback is noted in the dialogue of the client whose request it fills. -/
theorem told_callback {lib : Library} {d : Dialogue} {s : Exchange} {h h' : CURL} {event : TransferEvent}
    {r : RequestId} {info : RequestInfo} (hs : Inv s) (ht : Told lib d s h) (hrunning : h' ∈ s.running)
    (htarget : callbackTarget (s.easy h') event = some r)
    (hreceive : receiveRequest (s.request r).info event = .ok info) :
    Told lib (d.note h (.callback h' event)) (s.setInfo r info) h := by
  obtain ⟨r', -, hopen, hr, hsent⟩ := hs.busy (.inl hrunning)
  obtain ⟨r'', hentry, hopen', hroute⟩ := hs.callback_target hrunning
  obtain ⟨hlt, howner⟩ := hs.custody.keyed h' r'' hentry
  have hawaited := hs.custody.awaited r'' hlt hopen'
  rw [howner, hr] at hawaited
  have htarget' : r' = r := (Option.some.inj hawaited).trans (Option.some.inj ((hroute event).symm.trans htarget))
  subst htarget'
  rw [Dialogue.note]
  by_cases he : h' = h
  · subst he
    rw [if_pos rfl]
    exact ht.fill hr hopen (fun r hbuilt => absurd hbuilt (hsent r))
      (filled_callback (ht.filled r' hr hopen) hreceive) rfl
  · rw [if_neg he]
    exact ht.other hs he hr info

/-- The end of a transfer decides the result of its client's dialogue. -/
theorem told_finish {lib : Library} {d : Dialogue} {s : Exchange} {h h' : CURL} (hs : Inv s)
    (ht : Told lib d s h) (res : CURLcode) (hrunning : h' ∈ s.running) :
    Told lib (d.note h (.finish h' res)) (s.finish h' res) h := by
  obtain ⟨r, -, hopen, hr, hsent⟩ := hs.busy (.inl hrunning)
  have hmsgs (h'' : CURL) (res' : CURLcode) (hne : h' ≠ h'') (hm : .done h'' res' ∈ s.msgs ++ [.done h' res]) :
      .done h'' res' ∈ s.msgs := by
    rcases List.mem_append.mp hm with hm | hm
    · exact hm
    · exact absurd (CURLMsg.done.inj (List.mem_singleton.mp hm)).1.symm hne
  rw [Dialogue.note]
  by_cases he : h' = h
  · subst he
    rw [if_pos rfl]
    constructor
    case quiet => exact fun r hbuilt => absurd hbuilt (hsent r)
    case filled => exact fun r' hr' hopen' => ht.filled r' hr' hopen'
    case answered =>
      intro r' hr' hset
      obtain rfl := Option.some.inj (hr'.symm.trans hr)
      exact absurd hopen hset
    case message =>
      intro res' hm
      rcases List.mem_append.mp hm with hm | hm
      · exact absurd (mem_finished hm) (hs.attachment.running h' hrunning).2
      · exact (CURLMsg.done.inj (List.mem_singleton.mp hm)).2.symm
    case fulfilling =>
      intro r' res' hf
      exact absurd hrunning (hs.attachment.fulfilling h' r' res' hf).2.1
  · rw [if_neg he]
    exact ht.frame rfl (fun _ _ => rfl) (fun res' hm => hmsgs h res' he hm) fun _ _ hf => hf

/-- Reading a message notes the response code. -/
theorem told_infoRead {lib : Library} {d : Dialogue} {s : Exchange} {h h' : CURL} {r : RequestId}
    {res : CURLcode} {rest : List CURLMsg} (hs : Inv s) (ht : Told lib d s h) (code : Nat)
    (hmsgs : s.msgs = .done h' res :: rest) (hprivate : (s.easy h').privateData = some r) :
    Told lib (d.note h (.infoRead h' code)) (s.infoRead h' r res code rest) h := by
  have hm : .done h' res ∈ s.msgs := hmsgs ▸ List.mem_cons_self
  have hrest (res' : CURLcode) (hm : .done h res' ∈ rest) : .done h res' ∈ s.msgs :=
    hmsgs ▸ List.mem_cons_of_mem _ hm
  obtain ⟨r', hentry, hopen, hr, hsent⟩ := hs.busy (.inr (mem_finished hm))
  obtain rfl : r' = r := Option.some.inj (hentry.symm.trans (hs.message_entry hmsgs hprivate))
  rw [Dialogue.note]
  by_cases he : h' = h
  · subst he
    rw [if_pos rfl]
    have hfill := ht.fill hr hopen (fun r hbuilt => absurd hbuilt (hsent r))
      (filled_code (ht.filled r' hr hopen) code) rfl
    refine ⟨hfill.quiet, hfill.filled, hfill.answered, fun res' hm => ht.message res' (hrest res' hm), ?_⟩
    intro r'' res' hf
    obtain ⟨-, -, rfl⟩ := Focus.fulfilling.inj hf
    exact ht.message res hm
  · rw [if_neg he]
    have hother := ht.other hs he hr { (s.request r').info with responseCode := UInt16.ofNat code }
    refine hother.frame rfl (fun _ _ => rfl) hrest fun r'' res' hf => ?_
    exact absurd (Focus.fulfilling.inj hf).1 he

/-- Every step keeps what the exchange knows of a dialogue. -/
theorem told_step {lib : Library} {d : Dialogue} {s t : Exchange} {a : Action} {h : CURL} (hs : Inv s)
    (ht : Told lib d s h) (hstep : Step lib s a t) : Told lib (d.note h a) t h := by
  cases hstep with
  | build hidle => exact told_build hs ht hidle
  | setUrl url hbuilt => exact told_setUrl hs ht url hbuilt
  | configure hpc hroute => exact ht.frame rfl (fun _ _ => rfl) (fun _ hm => hm) fun _ _ hf => hf
  | @enqueue h' r hbuilt =>
    exact ht.moved (fun _ hr => by rw [hbuilt]; exact hr) (fun _ hback => by cases hback) rfl rfl rfl rfl
  | @signal h' r ok henqueued =>
    refine ht.moved (fun _ hr => ?_) (fun _ hback => ?_) rfl rfl rfl rfl
    · rw [henqueued]
      cases ok <;> exact hr
    · cases ok <;> cases hback
  | receive hwaiting hset =>
    exact ht.moved (fun _ hr => by cases hr) (fun _ hback => by cases hback) rfl rfl rfl rfl
  | callback hrunning htarget hreceive => exact told_callback hs ht hrunning htarget hreceive
  | finish res hrunning => exact told_finish hs ht res hrunning
  | notice =>
    refine ht.frame rfl (fun _ _ => rfl) (fun res hm => ?_) fun _ _ hf => hf
    rcases List.mem_append.mp hm with hm | hm
    · exact hm
    · cases List.mem_singleton.mp hm
  | infoSkip hfocus hmsgs =>
    exact ht.frame rfl (fun _ _ => rfl) (fun res hm => hmsgs ▸ List.mem_cons_of_mem _ hm) fun _ _ hf => hf
  | infoRead code hfocus hmsgs hprivate => exact told_infoRead hs ht code hmsgs hprivate
  | setValue hfocus hunset => exact told_setValue hs ht hfocus
  | removeHandle hfocus =>
    refine ht.frame rfl (fun _ _ => rfl) (fun res hm => (List.mem_filter.mp hm).1) fun _ _ hf => by cases hf
  | erase hfocus hfound => exact ht.frame rfl (fun _ _ => rfl) (fun _ hm => hm) fun _ _ hf => by cases hf
  | pop hfocus hpending => exact ht.frame rfl (fun _ _ => rfl) (fun _ hm => hm) fun _ _ hf => by cases hf
  | insert hfocus hhandle habsent =>
    exact ht.frame rfl (fun _ _ => rfl) (fun _ hm => hm) fun _ _ hf => by cases hf
  | attach hfocus hdetached => exact ht.frame rfl (fun _ _ => rfl) (fun _ hm => hm) fun _ _ hf => by cases hf
  | attachFailed hfocus hcode =>
    exact ht.frame rfl (fun _ _ => rfl) (fun _ hm => hm) fun _ _ hf => by cases hf

/-- At the start every client has an empty dialogue. -/
theorem told_init (lib : Library) (easy : CURL → Easy) (h : CURL) : Told lib .empty (init easy) h where
  quiet r hbuilt := by cases hbuilt
  filled r hr := by cases hr
  answered r hr := by cases hr
  message res hm := by cases hm
  fulfilling r res hf := by cases hf

/-- In every reachable state every client's request is what its dialogue says. -/
theorem run_told {lib : Library} {easy : CURL → Easy} {history : List (Move Exchange Action)} {s : Exchange}
    (hrun : Run (Step lib) (init easy) history s) (h : CURL) :
    Told lib (dialogue h (labels history)) s h := by
  refine hrun.induct (I := fun history s => Told lib (dialogue h (labels history)) s h) (told_init lib easy h) ?_
  intro history s a t hpast ht hstep
  rw [labels_snoc, dialogue, List.foldl_append]
  exact told_step (run_inv hpast) ht hstep

end Exchange

/-! ## The client alone -/

/-- A client that has libcurl for itself answers a queued call with the response to the dialogue. -/
theorem complete_dialogue {lib : Library} {d : Dialogue} {resp : HTTPResponse} (hresp : d.response lib = .ok resp)
    (client : MultiCurlClient) {op : Operation} (hop : op.kind.queued = true) (hurl : op.url = d.url) :
    ∃ next answer, complete lib (start client op) op d.outcome = .ok (next, answer) ∧
      answer.response = resp := by
  have hroute := (start_queued_route client hop).1
  have hrequest : (start client op).request = some ((CurlRequest.create 0).setUrl d.url) := by
    cases op with
    | get info | head info =>
      rw [← hurl]
      rfl
    | put info | delete info | post info => cases hop
  have htransfer := transfer_request hroute { url := d.url } (start client op).client.requestInfo d.outcome.events
  unfold complete
  rw [hrequest]
  change ∃ next answer, (transfer _ ⟨some ((start client op).object, { url := d.url }), _⟩ _ >>= _) = _ ∧ _
  rw [htransfer]
  rw [Dialogue.response, Dialogue.filled] at hresp
  cases hfold : d.outcome.events.foldlM receiveRequest { url := d.url } with
  | error fault =>
    rw [hfold] at hresp
    cases hresp
  | ok info =>
    rw [hfold] at hresp
    obtain rfl := Except.ok.inj hresp
    cases op with
    | get get => exact ⟨(finishGet _ get _).1, (finishGet _ get _).2, rfl, finishGet_response _ get _⟩
    | head _ => exact ⟨_, _, rfl, rfl⟩
    | put _ | delete _ | post _ => cases hop

namespace EventLoop

/-- In every run of the event loop, with any number of clients and in any
interleaving: a response that `HandleRequest` returns is the response to its
client's own dialogue, and so the one a client computes that has libcurl for
itself, from the same URL and the same callbacks. -/
theorem run_transparent {lib : Library} {easy : CURL → Easy} {history : List (Move State Action)} {s : State}
    (hrun : Run (Step lib) (State.init easy) history s) {earlier : List (Move State Action)}
    {m : Move State Action} (hle : earlier ++ [m] <+: history) {h : CURL} {r : RequestId}
    (hlabel : m.label = .exchange (.receive h r)) :
    ∃ resp, (m.pre.exchange.request r).response = some resp ∧
      (dialogue h (exchangeLabels earlier)).response lib = .ok resp ∧
      ∀ (client : MultiCurlClient) (op : Operation), op.kind.queued = true →
        op.url = (dialogue h (exchangeLabels earlier)).url →
        ∃ next answer, complete lib (start client op) op (dialogue h (exchangeLabels earlier)).outcome =
          .ok (next, answer) ∧ answer.response = resp := by
  obtain ⟨hpast, hstep⟩ := hrun.of_prefix hle
  rw [hlabel] at hstep
  obtain ⟨exchangeHistory, hexchange, hlabels⟩ := run_exchange hpast
  have htold := Exchange.run_told hexchange h
  rw [hlabels] at htold
  have hreceive := step_shown hstep rfl
  generalize m.post.exchange = e at hreceive
  cases hreceive with
  | receive hwaiting hset =>
    have hr : (m.pre.exchange.client h).request? = some r := by
      rw [hwaiting]
      rfl
    have hclosed : ¬m.pre.exchange.Open r := fun hopen => by
      rw [hopen] at hset
      cases hset
    obtain ⟨resp, hresp, hrequest⟩ := htold.answered r hr hclosed
    exact ⟨resp, hrequest, hresp, fun client op hop hurl => complete_dialogue hresp client hop hurl⟩

end EventLoop

end

namespace EventLoop

/-- Two clients send at once and libcurl alternates between their transfers. -/
theorem run_transparent_two :
    ∃ (history : List (Move State Action)) (s : State) (resp : HTTPResponse),
      Run (Step .common) (State.init fun _ => {}) history s ∧ s.exchange.client 0 = .idle ∧
      s.exchange.client 1 = .enqueued 1 ∧ 1 ∈ s.exchange.running ∧
      resp.url = "a".toList ∧ resp.body = "first".toList ∧
      ∀ client : MultiCurlClient, ∃ next answer,
        complete .common (start client (.get { url := "a".toList })) (.get { url := "a".toList })
          ⟨[.body (.ofLine "fi".toList), .body (.ofLine "rst".toList)], 200, curleOk⟩ = .ok (next, answer) ∧
        answer.response = resp := by
  have start : Run (Step .common) (State.init fun _ => {}) [] _ := .nil
  have run := start.snoc (.exchange (a := .build 0) trivial rfl (.build rfl))
  have run := run.snoc (.exchange (a := .build 1) trivial rfl (.build rfl))
  have run := run.snoc (.exchange (a := .setUrl 0 "a".toList) trivial rfl (.setUrl (r := 0) _ rfl))
  have run := run.snoc (.exchange (a := .setUrl 1 "b".toList) trivial rfl (.setUrl (r := 1) _ rfl))
  have run := run.snoc (.exchange (a := .enqueue 1 1) trivial rfl (.enqueue rfl))
  have run := run.snoc (.exchange (a := .enqueue 0 0) trivial rfl (.enqueue rfl))
  have run := run.snoc (.signal (h := 0) trivial (.signal true rfl) rfl)
  have run := run.append (wake_run rfl (by decide))
  have run := run.append (store_run (h := 1) (r := 1) rfl rfl rfl rfl rfl)
  have run := run.snoc (.exchange (a := .addHandle 1 1 0) trivial rfl (.attach rfl (by decide)))
  have run := run.append (store_run (h := 0) (r := 0) rfl rfl rfl rfl rfl)
  have run := run.snoc (.exchange (a := .addHandle 0 0 0) trivial rfl (.attach rfl (by decide)))
  have run := run.snoc (.pendingEmpty rfl rfl rfl)
  have run := run.snoc (.batchDone rfl rfl)
  have run := run.snoc (.wake [.socket 9 true false] rfl (by decide) (by decide) (by decide) (by decide))
  have run := run.snoc (.socket rfl rfl)
  have run := run.snoc (.exchange (a := .callback 0 (.body (.ofLine "fi".toList))) trivial rfl
    (.callback (by decide) rfl rfl))
  have run := run.snoc (.exchange (a := .callback 1 (.body (.ofLine "second".toList))) trivial rfl
    (.callback (by decide) rfl rfl))
  have run := run.snoc (.exchange (a := .callback 0 (.body (.ofLine "rst".toList))) trivial rfl
    (.callback (by decide) rfl rfl))
  have run := run.snoc (.exchange (a := .finish 0 0) trivial rfl (.finish 0 (by decide)))
  have run := run.snoc (.actionReturns rfl)
  have run := run.snoc (.exchange (a := .infoRead 0 200) trivial rfl (.infoRead (r := 0) 200 rfl rfl rfl))
  have run := run.snoc (.exchange (a := .setValue 0) trivial rfl (.setValue rfl rfl))
  have run := run.snoc (.exchange (a := .receive 0 0) trivial rfl (.receive rfl rfl))
  obtain ⟨resp, hset, -, halone⟩ := run_transparent run List.prefix_rfl rfl
  have hresp := Option.some.inj hset
  exact ⟨_, _, resp, run, rfl, rfl, by decide, hresp ▸ rfl, hresp ▸ rfl, fun client => halone client _ rfl rfl⟩

end EventLoop

end CurlHttpfs.Manager
