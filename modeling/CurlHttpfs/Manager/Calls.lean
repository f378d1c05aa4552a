import CurlHttpfs.Client.Names
import CurlHttpfs.Manager.KqueueLoop
import CurlHttpfs.Manager.Transparency

/-!
# Concurrent clients and their sequences of calls

Any number of clients make their calls at once, each one on its own handle:
`Get` and `Head` go through the shared manager step by step, `Put`, `Post` and
`Delete` run in place. Whatever loop drives the manager and however the steps
interleave, every client gets the answers, and every transfer sends the
requests, of the sequential client that makes the same calls alone.
-/

namespace CurlHttpfs.Manager.Calls

open Http Curl Transition Client

/-- The client whose own code takes a step of the exchange, apart from its
wake-up call to the background thread. -/
def caller? : Exchange.Action → Option CURL
  | .build h | .setUrl h _ | .configure h | .enqueue h _ | .receive h _ => some h
  | _ => none

section

variable [HeaderMap]

/-- An event loop that drives the exchange. -/
structure Host (lib : Library) where
  /-- The states of the loop. -/
  State : Type
  /-- Its labels. -/
  Label : Type
  /-- Its steps. -/
  step : State → Label → State → Prop
  /-- The exchange in a state. -/
  exchange : State → Exchange
  /-- The step of the exchange a label stands for. -/
  visible : Label → Option Exchange.Action
  /-- Where the constructor leaves the loop. -/
  init : (CURL → Easy) → State
  /-- Nothing has been sent at the start. -/
  exchange_init : ∀ easy, exchange (init easy) = Exchange.init easy
  /-- Other steps leave the exchange alone. -/
  hidden : ∀ s a t, step s a t → visible a = none → exchange t = exchange s
  /-- A visible step is one of the exchange. -/
  shown : ∀ s a b t, step s a t → visible a = some b → Exchange.Step lib (exchange s) b (exchange t)

/-- The `epoll` loop. -/
def linux (lib : Library) : Host lib where
  State := Manager.State
  Label := EventLoop.Action
  step := EventLoop.Step lib
  exchange := Manager.State.exchange
  visible := EventLoop.visible
  init := Manager.State.init
  exchange_init _ := rfl
  hidden _ _ _ := EventLoop.step_hidden
  shown _ _ _ _ := EventLoop.step_shown

/-- The `kqueue` loop. -/
def macos (lib : Library) : Host lib where
  State := Apple.State
  Label := Apple.Action
  step := Apple.Step lib
  exchange := Apple.State.exchange
  visible := Apple.visible
  init := Apple.State.init
  exchange_init _ := rfl
  hidden _ _ _ := Apple.step_hidden
  shown _ _ _ _ := Apple.step_shown

/-- Where a client stands in its calls. -/
inductive Phase where
  /-- Between two calls. -/
  | ready
  /-- The `CurlRequest` of a queued call is constructed. -/
  | constructed (op : Operation)
  /-- `SetUrl` has returned. -/
  | located (op : Operation)
  /-- `SetHeaders` has returned. -/
  | headed (op : Operation)
  /-- `SetGetAttrs` or `SetHeadAttrs` has returned. -/
  | prepared (op : Operation)
  /-- In `HandleRequest`, behind the `emplace`. -/
  | handed (op : Operation)
  /-- A blocking call went wrong. -/
  | crashed

/-- Clients on an event loop. -/
structure System {lib : Library} (host : Host lib) where
  /-- The loop. -/
  loop : host.State
  /-- Where each client stands. -/
  phase : CURL → Phase
  /-- `request_info` of each client. -/
  requestInfo : CURL → RequestInfo
  /-- What each client has been answered, and the fault that ended its calls. -/
  answers : CURL → List (Except Fault Answer)

variable {lib : Library} {host : Host lib}

/-- Clients that have made no call yet, each with its own handle. -/
def System.init (host : Host lib) (clients : CURL → MultiCurlClient) : System host where
  loop := host.init fun h => (clients h).curl
  phase _ := .ready
  requestInfo h := (clients h).requestInfo
  answers _ := []

/-- The exchange of a system. -/
def System.exchange (s : System host) : Exchange := host.exchange s.loop

/-- A client as its own code sees it, without its counters. -/
def System.client (s : System host) (h : CURL) : MultiCurlClient where
  curl := s.exchange.easy h
  state := none
  requestInfo := s.requestInfo h
  nextObject := 0

/-- The label of a step. -/
inductive Action where
  /-- A step of the loop, of libcurl or of the kernel, or a client's wake-up call. -/
  | other (b : Option Exchange.Action)
  /-- A client begins a queued call. -/
  | begin (h : CURL) (op : Operation)
  /-- A client sets the URL. -/
  | setUrl (h : CURL) (url : Str)
  /-- A client sets the header list. -/
  | setHeaders (h : CURL)
  /-- A client sets the method attributes. -/
  | setAttrs (h : CURL)
  /-- A client emplaces its request. -/
  | enqueue (h : CURL) (r : RequestId)
  /-- `HandleRequest` returns and the call ends. -/
  | receive (h : CURL) (r : RequestId) (op : Operation)
  /-- A client makes a blocking call, whose transfer has an outcome. -/
  | perform (h : CURL) (op : Operation) (outcome : Outcome)

/-- The step of the exchange a label stands for. -/
def visible : Action → Option Exchange.Action
  | .other b => b
  | .begin h _ => some (.build h)
  | .setUrl h url => some (.setUrl h url)
  | .setHeaders h | .setAttrs h | .perform h _ _ => some (.configure h)
  | .enqueue h r => some (.enqueue h r)
  | .receive h r _ => some (.receive h r)

/-- The steps of clients on an event loop. -/
inductive Step (host : Host lib) : System host → Action → System host → Prop
  | other {s : System host} {a : host.Label} {t : host.State} (hstep : host.step s.loop a t)
      (hother : ∀ b, host.visible a = some b → caller? b = none) :
      Step host s (.other (host.visible a)) { s with loop := t }
  | begin {s : System host} {a : host.Label} {t : host.State} {h : CURL} {op : Operation}
      (hstep : host.step s.loop a t) (hlabel : host.visible a = some (.build h))
      (hphase : s.phase h = .ready) (hop : op.kind.queued = true) :
      Step host s (.begin h op) { s with loop := t, phase := Function.update s.phase h (.constructed op) }
  | setUrl {s : System host} {a : host.Label} {t : host.State} {h : CURL} {op : Operation}
      (hstep : host.step s.loop a t) (hlabel : host.visible a = some (.setUrl h op.url))
      (hphase : s.phase h = .constructed op) :
      Step host s (.setUrl h op.url) { s with loop := t, phase := Function.update s.phase h (.located op) }
  | setHeaders {s : System host} {a : host.Label} {t : host.State} {h : CURL} {op : Operation} {r : RequestId}
      (hstep : host.step s.loop a t) (hlabel : host.visible a = some (.configure h))
      (hphase : s.phase h = .located op) (hbuilt : s.exchange.client h = .built r)
      (heasy : (host.exchange t).easy h =
        CurlRequest.setHeaders (SList.ofLines r op.headerLines) (s.exchange.easy h)) :
      Step host s (.setHeaders h) { s with loop := t, phase := Function.update s.phase h (.headed op) }
  | setAttrs {s : System host} {a : host.Label} {t : host.State} {h : CURL} {op : Operation}
      (hstep : host.step s.loop a t) (hlabel : host.visible a = some (.configure h))
      (hphase : s.phase h = .headed op)
      (heasy : (host.exchange t).easy h = attrs op.kind (s.exchange.easy h)) :
      Step host s (.setAttrs h) { s with loop := t, phase := Function.update s.phase h (.prepared op) }
  | enqueue {s : System host} {a : host.Label} {t : host.State} {h : CURL} {op : Operation} {r : RequestId}
      (hstep : host.step s.loop a t) (hlabel : host.visible a = some (.enqueue h r))
      (hphase : s.phase h = .prepared op) :
      Step host s (.enqueue h r) { s with loop := t, phase := Function.update s.phase h (.handed op) }
  | receive {s : System host} {a : host.Label} {t : host.State} {h : CURL} {op : Operation} {r : RequestId}
      {response : HTTPResponse} (hstep : host.step s.loop a t) (hlabel : host.visible a = some (.receive h r))
      (hphase : s.phase h = .handed op) (hresponse : (s.exchange.request r).response = some response) :
      Step host s (.receive h r op)
        { s with
          loop := t
          phase := Function.update s.phase h .ready
          answers := Function.update s.answers h
            (s.answers h ++ [.ok (endQueued (s.client h) op response)]) }
  | perform {s : System host} {a : host.Label} {t : host.State} {h : CURL} {op : Operation} {outcome : Outcome}
      {done : MultiCurlClient × Answer} (hstep : host.step s.loop a t)
      (hlabel : host.visible a = some (.configure h)) (hphase : s.phase h = .ready)
      (hop : op.kind.queued = false)
      (heasy : (host.exchange t).easy h = (start (s.client h) op).client.curl)
      (hdone : complete lib (start (s.client h) op) op outcome = .ok done) :
      Step host s (.perform h op outcome)
        { s with
          loop := t
          requestInfo := Function.update s.requestInfo h done.1.requestInfo
          answers := Function.update s.answers h (s.answers h ++ [.ok done.2]) }
  | performFails {s : System host} {a : host.Label} {t : host.State} {h : CURL} {op : Operation}
      {outcome : Outcome} {fault : Fault} (hstep : host.step s.loop a t)
      (hlabel : host.visible a = some (.configure h)) (hphase : s.phase h = .ready)
      (hop : op.kind.queued = false)
      (heasy : (host.exchange t).easy h = (start (s.client h) op).client.curl)
      (hfault : complete lib (start (s.client h) op) op outcome = .error fault) :
      Step host s (.perform h op outcome)
        { s with
          loop := t
          phase := Function.update s.phase h .crashed
          answers := Function.update s.answers h (s.answers h ++ [.error fault]) }

/-! ## The calls of a client -/

/-- A client's dialogue and the calls it has made. -/
structure Ledger where
  /-- What happened to the latest request. -/
  dialogue : Dialogue
  /-- The calls that have ended, with the outcomes of their transfers. -/
  calls : List Call

/-- The calls that end with a step. -/
def ended (h : CURL) (d : Dialogue) : Action → List Call
  | .receive h' _ op => if h' = h then [⟨op, d.outcome⟩] else []
  | .perform h' op outcome => if h' = h then [⟨op, outcome⟩] else []
  | _ => []

/-- A step is noted. -/
def Ledger.note (h : CURL) (l : Ledger) (a : Action) : Ledger where
  dialogue := (visible a).elim l.dialogue (l.dialogue.note h)
  calls := l.calls ++ ended h l.dialogue a

/-- The ledger of a client in a sequence of steps. -/
def ledger (h : CURL) (actions : List Action) : Ledger := actions.foldl (Ledger.note h) ⟨.empty, []⟩

/-- The calls a client has made in a sequence of steps. -/
def callsOf (h : CURL) (actions : List Action) : List Call := (ledger h actions).calls

/-! ## Steps of others -/

/-- The client is not in `HandleRequest`. -/
def Outside (e : Exchange) (h : CURL) : Prop := e.client h = .idle ∨ ∃ r, e.client h = .built r

/-- What the steps of others leave a client. -/
structure Untouched (e e' : Exchange) (h : CURL) : Prop where
  /-- Its options, up to names. -/
  easy : Alike (e'.easy h) (e.easy h)
  /-- Its place outside of `HandleRequest`. -/
  outside : Outside e h → Outside e' h

theorem untouched_refl (e : Exchange) (h : CURL) : Untouched e e h := ⟨rfl, id⟩

/-- Whatever is not kept in the options or the clients may change. -/
theorem Untouched.of_eq {e e' : Exchange} {h : CURL} (heasy : e'.easy h = e.easy h)
    (hclient : e'.client h = e.client h) : Untouched e e' h := by
  refine ⟨congrArg anonymous heasy, ?_⟩
  rw [Outside, Outside, hclient]
  exact id

/-- A step that the client's own code does not take leaves it untouched. -/
theorem step_untouched {e e' : Exchange} {b : Exchange.Action} (hstep : Exchange.Step lib e b e') {h : CURL}
    (hb : caller? b ≠ some h) : Untouched e e' h := by
  have hne {h' : CURL} (hcaller : caller? b = some h') : h ≠ h' := by
    rintro rfl
    exact hb hcaller
  cases hstep with
  | build hidle => exact .of_eq (Function.update_of_ne (hne rfl) _ _) (Function.update_of_ne (hne rfl) _ _)
  | setUrl url hbuilt => exact .of_eq (Function.update_of_ne (hne rfl) _ _) rfl
  | configure hpc hroute => exact .of_eq (Function.update_of_ne (hne rfl) _ _) rfl
  | enqueue hbuilt => exact .of_eq rfl (Function.update_of_ne (hne rfl) _ _)
  | @signal h' r ok henqueued =>
    by_cases he : h = h'
    · subst he
      refine ⟨rfl, fun houtside => ?_⟩
      rcases houtside with hidle | ⟨r', hbuilt⟩
      · rw [henqueued] at hidle
        cases hidle
      · rw [henqueued] at hbuilt
        cases hbuilt
    · exact .of_eq rfl (Function.update_of_ne he _ _)
  | receive hwaiting hset => exact .of_eq rfl (Function.update_of_ne (hne rfl) _ _)
  | callback hrunning htarget hreceive => exact .of_eq rfl rfl
  | finish res hrunning => exact .of_eq rfl rfl
  | notice => exact .of_eq rfl rfl
  | infoSkip hfocus hmsgs => exact .of_eq rfl rfl
  | infoRead code hfocus hmsgs hprivate => exact .of_eq rfl rfl
  | setValue hfocus hunset => exact .of_eq rfl rfl
  | removeHandle hfocus => exact .of_eq rfl rfl
  | erase hfocus hfound => exact .of_eq rfl rfl
  | pop hfocus hpending => exact .of_eq rfl rfl
  | @insert h' r hfocus hhandle habsent =>
    by_cases he : h = h'
    · subst he
      refine ⟨?_, id⟩
      change anonymous (Function.update e.easy h _ h) = _
      rw [Function.update_self]
      rfl
    · exact .of_eq (Function.update_of_ne he _ _) rfl
  | attach hfocus hdetached => exact .of_eq rfl rfl
  | attachFailed hfocus hcode => exact .of_eq rfl rfl

/-- So does a step of the loop. -/
theorem host_untouched {u t : host.State} {a : host.Label} (hstep : host.step u a t) {h : CURL}
    (ha : ∀ b, host.visible a = some b → caller? b ≠ some h) :
    Untouched (host.exchange u) (host.exchange t) h := by
  cases hlabel : host.visible a with
  | none =>
    rw [host.hidden u a t hstep hlabel]
    exact untouched_refl _ h
  | some b => exact step_untouched (host.shown u a b t hstep hlabel) (ha b hlabel)

/-- Nor does it change the URL in the client's dialogue. -/
theorem note_url {h : CURL} (l : Ledger) {a : Action} (ha : ∀ b, visible a = some b → caller? b ≠ some h) :
    (l.note h a).dialogue.url = l.dialogue.url := by
  unfold Ledger.note
  cases hlabel : visible a with
  | none => rfl
  | some b =>
    have hb := ha b hlabel
    change (l.dialogue.note h b).url = _
    cases b with
    | build h' =>
      have hne : h' ≠ h := fun he => hb (congrArg some he)
      rw [Dialogue.note, if_neg hne]
    | setUrl h' url =>
      have hne : h' ≠ h := fun he => hb (congrArg some he)
      rw [Dialogue.note, if_neg hne]
    | callback h' event =>
      rw [Dialogue.note]
      split <;> rfl
    | finish h' res =>
      rw [Dialogue.note]
      split <;> rfl
    | infoRead h' code =>
      rw [Dialogue.note]
      split <;> rfl
    | configure _ | enqueue _ _ | signal _ _ | receive _ _ | notice | infoSkip | setValue _ | removeHandle _
      | erase _ | pop _ | insert _ _ | addHandle _ _ _ => rfl

/-! ## The sequential client behind a client -/

/-- The options a call has written on a handle so far. -/
def Phase.options (easy : Easy) : Phase → Easy
  | .ready | .crashed => easy
  | .constructed _ => CurlRequest.install 0 easy
  | .located op => CurlRequest.setUrlOption op.url (CurlRequest.install 0 easy)
  | .headed op =>
    CurlRequest.setHeaders (SList.ofLines 0 op.headerLines)
      (CurlRequest.setUrlOption op.url (CurlRequest.install 0 easy))
  | .prepared op | .handed op =>
    attrs op.kind (CurlRequest.setHeaders (SList.ofLines 0 op.headerLines)
      (CurlRequest.setUrlOption op.url (CurlRequest.install 0 easy)))

/-- The call that is going on. -/
def Phase.op? : Phase → Option Operation
  | .ready | .crashed => none
  | .constructed op | .located op | .headed op | .prepared op | .handed op => some op

/-- The URL the call has set. -/
def Phase.url? : Phase → Option Str
  | .ready | .crashed | .constructed _ => none
  | .located op | .headed op | .prepared op | .handed op => some op.url

/-- No fault has ended the calls. -/
def Phase.alive : Phase → Bool
  | .crashed => false
  | .ready | .constructed _ | .located _ | .headed _ | .prepared _ | .handed _ => true

/-- The client is where a sequential client is in the same call. -/
structure Behind (s : System host) (h : CURL) (l : Ledger) (client : MultiCurlClient) : Prop where
  /-- The handles are alike. -/
  options : Alike (s.exchange.easy h) ((s.phase h).options client.curl)
  /-- So are the objects the blocking calls write. -/
  info : s.requestInfo h = client.requestInfo
  /-- A call that takes steps is a queued one. -/
  queued : ∀ op, (s.phase h).op? = some op → op.kind.queued = true
  /-- Its URL is in the dialogue. -/
  url : ∀ url, (s.phase h).url? = some url → l.dialogue.url = url
  /-- `HandleRequest` is not entered before the call is handed over. -/
  outside : (∀ op, s.phase h ≠ .handed op) → Outside s.exchange h

/-- The client has had the answers of a sequential client: of one that is where
it is now, or of one that met the same fault. -/
def Matches (client : MultiCurlClient) (s : System host) (h : CURL) (l : Ledger) : Prop :=
  ((s.phase h).alive = true ∧ ∃ next records, Reaches lib client l.calls next records ∧
      s.answers h = records.map Record.result ∧ Behind s h l next) ∨
    (s.phase h = .crashed ∧ Outside s.exchange h ∧
      s.answers h = (run lib client l.calls).map Record.result)

/-- Steps of others leave it so. -/
theorem Matches.frame {client : MultiCurlClient} {s t : System host} {h : CURL} {l l' : Ledger}
    (hm : Matches client s h l) (hphase : t.phase h = s.phase h) (hinfo : t.requestInfo h = s.requestInfo h)
    (hanswers : t.answers h = s.answers h) (huntouched : Untouched s.exchange t.exchange h)
    (hcalls : l'.calls = l.calls) (hurl : l'.dialogue.url = l.dialogue.url) : Matches client t h l' := by
  unfold Matches at hm ⊢
  rw [hphase, hanswers, hcalls]
  refine hm.imp ?_ ?_
  · rintro ⟨halive, next, records, hreaches, hrecords, hb⟩
    refine ⟨halive, next, records, hreaches, hrecords, ?_, ?_, ?_, ?_, ?_⟩
    · rw [hphase]
      exact huntouched.easy.trans hb.options
    · rw [hinfo]
      exact hb.info
    · rw [hphase]
      exact hb.queued
    · rw [hphase, hurl]
      exact hb.url
    · rw [hphase]
      exact fun hhanded => huntouched.outside (hb.outside hhanded)
  · rintro ⟨hcrashed, houtside, hrecords⟩
    exact ⟨hcrashed, huntouched.outside houtside, hrecords⟩

/-! ## A client's own steps -/

/-- A step inside a call keeps the answers when it keeps the client behind its sequential one. -/
theorem Matches.advance {client : MultiCurlClient} {s t : System host} {h : CURL} {l l' : Ledger}
    (hm : Matches client s h l) {phase phase' : Phase} (hphase : s.phase h = phase) (halive : phase.alive = true)
    (hphase' : t.phase h = phase') (halive' : phase'.alive = true) (hanswers : t.answers h = s.answers h)
    (hcalls : l'.calls = l.calls) (hbehind : ∀ next, Behind s h l next → Behind t h l' next) :
    Matches client t h l' := by
  rcases hm with ⟨-, next, records, hreaches, hrecords, hb⟩ | ⟨hcrashed, -, -⟩
  · refine Or.inl ⟨hphase' ▸ halive', next, records, ?_, hanswers.trans hrecords, hbehind next hb⟩
    rw [hcalls]
    exact hreaches
  · rw [← hphase, hcrashed] at halive
    cases halive

/-- A call that returns what the sequential client's call returns keeps the answers. -/
theorem Matches.answer {client : MultiCurlClient} {s t : System host} {h : CURL} {l l' : Ledger}
    (hm : Matches client s h l) {phase : Phase} (hphase : s.phase h = phase) (halive : phase.alive = true)
    (halive' : (t.phase h).alive = true) {call : Call} {answer : Answer}
    (hanswers : t.answers h = s.answers h ++ [.ok answer]) (hcalls : l'.calls = l.calls ++ [call])
    (hbehind : ∀ next, Behind s h l next → ∃ after,
      complete lib (start next call.op) call.op call.outcome = .ok (after, answer) ∧ Behind t h l' after) :
    Matches client t h l' := by
  rcases hm with ⟨-, next, records, hreaches, hrecords, hb⟩ | ⟨hcrashed, -, -⟩
  · obtain ⟨after, hdone, hafter⟩ := hbehind next hb
    refine Or.inl ⟨halive', after, records ++ [⟨call, start next call.op, .ok answer⟩], ?_, ?_, hafter⟩
    · rw [hcalls]
      exact hreaches.snoc call hdone
    · rw [hanswers, hrecords, List.map_append]
      rfl
  · rw [← hphase, hcrashed] at halive
    cases halive

/-- A call that goes wrong as the sequential client's call does keeps the answers. -/
theorem Matches.fault {client : MultiCurlClient} {s t : System host} {h : CURL} {l l' : Ledger}
    (hm : Matches client s h l) {phase : Phase} (hphase : s.phase h = phase) (halive : phase.alive = true)
    (hcrashed' : t.phase h = .crashed) {call : Call} {fault : Fault}
    (hanswers : t.answers h = s.answers h ++ [.error fault]) (hcalls : l'.calls = l.calls ++ [call])
    (hfault : ∀ next, Behind s h l next →
      complete lib (start next call.op) call.op call.outcome = .error fault ∧ Outside t.exchange h) :
    Matches client t h l' := by
  rcases hm with ⟨-, next, records, hreaches, hrecords, hb⟩ | ⟨hcrashed, -, -⟩
  · obtain ⟨hnext, houtside⟩ := hfault next hb
    refine Or.inr ⟨hcrashed', houtside, ?_⟩
    rw [hanswers, hrecords, hcalls, hreaches.fault call hnext, List.map_append]
    rfl
  · rw [← hphase, hcrashed] at halive
    cases halive

/-- The options of a call that is handed over are those of the sequential call. -/
theorem handed_options (client : MultiCurlClient) {op : Operation} (hop : op.kind.queued = true) :
    Alike ((Phase.handed op).options client.curl) (start client op).client.curl := by
  have hsame : Alike client.curl client.curl := rfl
  rw [start_queued_curl client hop]
  exact (((hsame.install _ _).setUrl _).setHeaders _ _ _).attrs _

section

variable {s : System host} {t : host.State} {a : host.Label} {h : CURL} {op : Operation} {l : Ledger}
  {next : MultiCurlClient}

/-- A client is behind its sequential one when it is so in its phase. -/
theorem behind_of {s : System host} (phase : Phase) (hphase : s.phase h = phase)
    (hoptions : Alike (s.exchange.easy h) (phase.options next.curl)) (hinfo : s.requestInfo h = next.requestInfo)
    (hqueued : ∀ op, phase.op? = some op → op.kind.queued = true)
    (hurl : ∀ url, phase.url? = some url → l.dialogue.url = url)
    (houtside : (∀ op, phase ≠ .handed op) → Outside s.exchange h) : Behind s h l next := by
  subst hphase
  exact ⟨hoptions, hinfo, hqueued, hurl, houtside⟩

/-- Writing options leaves the client where it is. -/
theorem configure_outside {e e' : Exchange} (hstep : Exchange.Step lib e (.configure h) e') (h' : CURL) :
    e'.client h' = e.client h' := by
  cases hstep with
  | configure hpc hroute => rfl

/-- The constructor of a request. -/
theorem Behind.begin (hb : Behind s h l next) (hstep : host.step s.loop a t)
    (hlabel : host.visible a = some (.build h)) (hphase : s.phase h = .ready) (hop : op.kind.queued = true)
    (d : Dialogue) (calls : List Call) :
    Behind { s with loop := t, phase := Function.update s.phase h (.constructed op) } h ⟨d, calls⟩ next := by
  have hoptions := hb.options
  rw [hphase] at hoptions
  have hexchange : host.exchange t = s.exchange.build h := by
    have hshown := host.shown _ _ _ _ hstep hlabel
    generalize host.exchange t = e at hshown
    cases hshown with
    | build hidle => rfl
  refine behind_of (.constructed op) (Function.update_self _ _ _) ?_ hb.info ?_ ?_ ?_
  · have heasy : (host.exchange t).easy h =
        CurlRequest.install s.exchange.nextRequest (s.exchange.easy h) := by
      rw [hexchange]
      exact Function.update_self _ _ _
    change Alike ((host.exchange t).easy h) _
    rw [heasy]
    exact hoptions.install _ _
  · intro op' he
    cases he
    exact hop
  · intro url he
    cases he
  · intro _
    refine Or.inr ⟨s.exchange.nextRequest, ?_⟩
    change (host.exchange t).client h = _
    rw [hexchange]
    exact Function.update_self _ _ _

/-- `SetUrl`. -/
theorem Behind.setUrl (hb : Behind s h l next) (hstep : host.step s.loop a t)
    (hlabel : host.visible a = some (.setUrl h op.url)) (hphase : s.phase h = .constructed op)
    {d : Dialogue} (hd : d.url = op.url) (calls : List Call) :
    Behind { s with loop := t, phase := Function.update s.phase h (.located op) } h ⟨d, calls⟩ next := by
  have hoptions := hb.options
  have hqueued := hb.queued op
  rw [hphase] at hoptions hqueued
  have hexchange : ∃ r, s.exchange.client h = .built r ∧ host.exchange t = s.exchange.setUrl h r op.url := by
    have hshown := host.shown _ _ _ _ hstep hlabel
    generalize host.exchange t = e at hshown
    cases hshown with
    | setUrl url hbuilt => exact ⟨_, hbuilt, rfl⟩
  obtain ⟨r, hbuilt, hexchange⟩ := hexchange
  refine behind_of (.located op) (Function.update_self _ _ _) ?_ hb.info ?_ ?_ ?_
  · have heasy : (host.exchange t).easy h = CurlRequest.setUrlOption op.url (s.exchange.easy h) := by
      rw [hexchange]
      exact Function.update_self _ _ _
    change Alike ((host.exchange t).easy h) _
    rw [heasy]
    exact hoptions.setUrl _
  · intro op' he
    cases he
    exact hqueued rfl
  · intro url he
    cases he
    exact hd
  · intro _
    refine Or.inr ⟨r, ?_⟩
    change (host.exchange t).client h = _
    rw [hexchange]
    exact hbuilt

/-- `SetHeaders`, and the setters of the method attributes behind it. -/
theorem Behind.configure (hb : Behind s h l next) (hstep : host.step s.loop a t)
    (hlabel : host.visible a = some (.configure h)) {phase : Phase} (phase' : Phase) (hphase : s.phase h = phase)
    (hcall : phase'.op? = phase.op?) (hurl : phase'.url? = phase.url?) (hbefore : ∀ op, phase ≠ .handed op)
    (hoptions : Alike (s.exchange.easy h) (phase.options next.curl) →
      Alike ((host.exchange t).easy h) (phase'.options next.curl))
    {d : Dialogue} (hd : d.url = l.dialogue.url) (calls : List Call) :
    Behind { s with loop := t, phase := Function.update s.phase h phase' } h ⟨d, calls⟩ next := by
  subst hphase
  have hclient := configure_outside (host.shown _ _ _ _ hstep hlabel) h
  refine behind_of phase' (Function.update_self _ _ _) (hoptions hb.options) hb.info ?_ ?_ ?_
  · rw [hcall]
    exact hb.queued
  · rw [hurl]
    exact fun url he => hd.trans (hb.url url he)
  · intro _
    unfold Outside System.exchange
    rw [hclient]
    exact hb.outside hbefore

/-- `HandleRequest` up to its wake-up call. -/
theorem Behind.enqueue (hb : Behind s h l next) {r : RequestId} (hstep : host.step s.loop a t)
    (hlabel : host.visible a = some (.enqueue h r)) (hphase : s.phase h = .prepared op)
    {d : Dialogue} (hd : d.url = l.dialogue.url) (calls : List Call) :
    Behind { s with loop := t, phase := Function.update s.phase h (.handed op) } h ⟨d, calls⟩ next := by
  have hoptions := hb.options
  have hqueued := hb.queued op
  have hurl := hb.url op.url
  rw [hphase] at hoptions hqueued hurl
  have hexchange : host.exchange t = s.exchange.enqueue h r := by
    have hshown := host.shown _ _ _ _ hstep hlabel
    generalize host.exchange t = e at hshown
    cases hshown with
    | enqueue hbuilt => rfl
  refine behind_of (.handed op) (Function.update_self _ _ _) ?_ hb.info ?_ ?_ ?_
  · change Alike ((host.exchange t).easy h) _
    rw [hexchange]
    exact hoptions
  · intro op' he
    cases he
    exact hqueued rfl
  · intro url he
    cases he
    exact hd.trans (hurl rfl)
  · intro hnever
    exact absurd rfl (hnever op)

/-- The end of `HandleRequest`. -/
theorem Behind.receive (hb : Behind s h l next) {r : RequestId} {response : HTTPResponse}
    (hstep : host.step s.loop a t) (hlabel : host.visible a = some (.receive h r))
    (hphase : s.phase h = .handed op) (hresponse : l.dialogue.response lib = .ok response)
    (answers : CURL → List (Except Fault Answer)) (d : Dialogue) (calls : List Call) :
    ∃ done, complete lib (start next op) op l.dialogue.outcome = .ok done ∧
      done.2 = endQueued (s.client h) op response ∧
      Behind { s with loop := t, phase := Function.update s.phase h .ready, answers := answers } h ⟨d, calls⟩
        done.1 := by
  have hoptions := hb.options
  have hqueued := hb.queued op
  have hurl := hb.url op.url
  rw [hphase] at hoptions hqueued hurl
  obtain ⟨after, answer, hdone, hanswer⟩ :=
    complete_dialogue hresponse next (hqueued rfl) (hurl rfl).symm
  obtain ⟨hinfo, hcontents⟩ := complete_queued_info (hqueued rfl) hdone
  have hexchange : (host.exchange t).easy = s.exchange.easy ∧ (host.exchange t).client h = .idle := by
    have hshown := host.shown _ _ _ _ hstep hlabel
    generalize host.exchange t = e at hshown
    cases hshown with
    | receive hwaiting hset => exact ⟨rfl, Function.update_self _ _ _⟩
  refine ⟨(after, answer), hdone, ?_, ?_⟩
  · rw [hcontents, hanswer]
    exact endQueued_eq _ _ op response
  · refine behind_of .ready (Function.update_self _ _ _) ?_ (hb.info.trans hinfo.symm) ?_ ?_ ?_
    · change Alike ((host.exchange t).easy h) after.curl
      rw [hexchange.1, (complete_options hdone).1]
      exact hoptions.trans (handed_options next (hqueued rfl))
    · intro op' he
      cases he
    · intro url he
      cases he
    · exact fun _ => Or.inl hexchange.2

/-- A client between two calls is alike its sequential one, in its handle and in its own object. -/
theorem Behind.between (hb : Behind s h l next) (hphase : s.phase h = .ready) :
    Alike (s.client h).curl next.curl ∧ (s.client h).requestInfo = next.requestInfo ∧ Outside s.exchange h := by
  have hoptions := hb.options
  have houtside := hb.outside
  rw [hphase] at hoptions houtside
  exact ⟨hoptions, hb.info, houtside fun op he => by cases he⟩

/-- A blocking call that returns. -/
theorem Behind.perform (hb : Behind s h l next) {outcome : Outcome} {done : MultiCurlClient × Answer}
    (hstep : host.step s.loop a t) (hlabel : host.visible a = some (.configure h)) (hphase : s.phase h = .ready)
    (hop : op.kind.queued = false) (heasy : (host.exchange t).easy h = (start (s.client h) op).client.curl)
    (hdone : complete lib (start (s.client h) op) op outcome = .ok done)
    (answers : CURL → List (Except Fault Answer)) (d : Dialogue) (calls : List Call) :
    ∃ after, complete lib (start next op) op outcome = .ok (after, done.2) ∧
      Behind
        { s with
          loop := t
          requestInfo := Function.update s.requestInfo h done.1.requestInfo
          answers := answers } h ⟨d, calls⟩ after := by
  obtain ⟨halike, hinfo, houtside⟩ := hb.between hphase
  have hclient := configure_outside (host.shown _ _ _ _ hstep hlabel) h
  have hsame := halike.complete_blocking hinfo hop lib outcome
  rw [hdone] at hsame
  cases hnext : complete lib (start next op) op outcome with
  | error fault =>
    rw [hnext] at hsame
    cases hsame
  | ok done' =>
    rw [hnext] at hsame
    obtain ⟨hafter, hanswer⟩ := Prod.mk.inj (Except.ok.inj hsame)
    refine ⟨done'.1, ?_, ?_⟩
    · rw [show done.2 = done'.2 from hanswer]
    · refine behind_of .ready hphase ?_ ?_ ?_ ?_ ?_
      · change Alike ((host.exchange t).easy h) done'.1.curl
        rw [heasy, (complete_options hnext).1]
        exact halike.start_blocking hop
      · change Function.update s.requestInfo h done.1.requestInfo h = _
        rw [Function.update_self]
        exact hafter
      · intro op' he
        cases he
      · intro url he
        cases he
      · intro _
        unfold Outside System.exchange
        rw [hclient]
        exact houtside

/-- A blocking call that goes wrong does so for the sequential client. -/
theorem Behind.performFails (hb : Behind s h l next) {outcome : Outcome} {fault : Fault}
    (hstep : host.step s.loop a t) (hlabel : host.visible a = some (.configure h)) (hphase : s.phase h = .ready)
    (hop : op.kind.queued = false)
    (hfault : complete lib (start (s.client h) op) op outcome = .error fault) :
    complete lib (start next op) op outcome = .error fault ∧ Outside (host.exchange t) h := by
  obtain ⟨halike, hinfo, houtside⟩ := hb.between hphase
  have hclient := configure_outside (host.shown _ _ _ _ hstep hlabel) h
  have hsame := halike.complete_blocking hinfo hop lib outcome
  rw [hfault] at hsame
  constructor
  · cases hnext : complete lib (start next op) op outcome with
    | error fault' =>
      rw [hnext] at hsame
      rw [Except.error.inj hsame]
    | ok done =>
      rw [hnext] at hsame
      cases hsame
  · unfold Outside
    rw [hclient]
    exact houtside

end

/-! ## Runs -/

/-- Each step of the system is one of the loop. -/
theorem step_host {s t : System host} {a : Action} (hstep : Step host s a t) :
    ∃ label, host.step s.loop label t.loop ∧ host.visible label = visible a := by
  cases hstep with
  | other hstep hother => exact ⟨_, hstep, rfl⟩
  | begin hstep hlabel hphase hop => exact ⟨_, hstep, hlabel⟩
  | setUrl hstep hlabel hphase => exact ⟨_, hstep, hlabel⟩
  | setHeaders hstep hlabel hphase hbuilt heasy => exact ⟨_, hstep, hlabel⟩
  | setAttrs hstep hlabel hphase heasy => exact ⟨_, hstep, hlabel⟩
  | enqueue hstep hlabel hphase => exact ⟨_, hstep, hlabel⟩
  | receive hstep hlabel hphase hresponse => exact ⟨_, hstep, hlabel⟩
  | perform hstep hlabel hphase hop heasy hdone => exact ⟨_, hstep, hlabel⟩
  | performFails hstep hlabel hphase hop heasy hfault => exact ⟨_, hstep, hlabel⟩

/-- A step of others leaves a client where it is in its calls. -/
theorem step_frame {s t : System host} {a : Action} (hstep : Step host s a t) {h : CURL}
    (ha : ∀ b, visible a = some b → caller? b ≠ some h) (d : Dialogue) :
    t.phase h = s.phase h ∧ t.requestInfo h = s.requestInfo h ∧ t.answers h = s.answers h ∧
      ended h d a = [] := by
  have hne {h' : CURL} {b : Exchange.Action} (hb : visible a = some b) (hcaller : caller? b = some h') :
      h' ≠ h := by
    rintro rfl
    exact ha b hb hcaller
  cases hstep with
  | other hstep hother => exact ⟨rfl, rfl, rfl, rfl⟩
  | begin hstep hlabel hphase hop =>
    exact ⟨Function.update_of_ne (hne rfl rfl).symm _ _, rfl, rfl, rfl⟩
  | setUrl hstep hlabel hphase => exact ⟨Function.update_of_ne (hne rfl rfl).symm _ _, rfl, rfl, rfl⟩
  | setHeaders hstep hlabel hphase hbuilt heasy =>
    exact ⟨Function.update_of_ne (hne rfl rfl).symm _ _, rfl, rfl, rfl⟩
  | setAttrs hstep hlabel hphase heasy => exact ⟨Function.update_of_ne (hne rfl rfl).symm _ _, rfl, rfl, rfl⟩
  | enqueue hstep hlabel hphase => exact ⟨Function.update_of_ne (hne rfl rfl).symm _ _, rfl, rfl, rfl⟩
  | receive hstep hlabel hphase hresponse =>
    exact ⟨Function.update_of_ne (hne rfl rfl).symm _ _, rfl, Function.update_of_ne (hne rfl rfl).symm _ _,
      if_neg (hne rfl rfl)⟩
  | perform hstep hlabel hphase hop heasy hdone =>
    exact ⟨rfl, Function.update_of_ne (hne rfl rfl).symm _ _, Function.update_of_ne (hne rfl rfl).symm _ _,
      if_neg (hne rfl rfl)⟩
  | performFails hstep hlabel hphase hop heasy hfault =>
    exact ⟨Function.update_of_ne (hne rfl rfl).symm _ _, rfl, Function.update_of_ne (hne rfl rfl).symm _ _,
      if_neg (hne rfl rfl)⟩

/-- Steps of others keep the answers those of the sequential client. -/
theorem matches_others {client : MultiCurlClient} {s t : System host} {a : Action} (hstep : Step host s a t)
    {h : CURL} {l : Ledger} (hm : Matches client s h l)
    (ha : ∀ b, visible a = some b → caller? b ≠ some h) : Matches client t h (l.note h a) := by
  obtain ⟨hphase, hinfo, hanswers, hended⟩ := step_frame hstep ha l.dialogue
  obtain ⟨label, hloop, hvisible⟩ := step_host hstep
  have huntouched := host_untouched hloop (h := h) fun b hb => ha b (hvisible ▸ hb)
  refine hm.frame hphase hinfo hanswers huntouched ?_ (note_url l ha)
  rw [Ledger.note, hended, List.append_nil]

/-- So do a client's own steps, given that it is answered from its dialogue. -/
theorem matches_own {client : MultiCurlClient} {s t : System host} {a : Action} (hstep : Step host s a t)
    {h : CURL} {l : Ledger} (hm : Matches client s h l) {b : Exchange.Action} (hb : visible a = some b)
    (hcaller : caller? b = some h)
    (htold : ∀ r op response, a = .receive h r op → (s.exchange.request r).response = some response →
      l.dialogue.response lib = .ok response) : Matches client t h (l.note h a) := by
  cases hstep with
  | other hstep hother =>
    have hnone := hother b hb
    rw [hcaller] at hnone
    cases hnone
  | @begin a t h' op hstep hlabel hphase hop =>
    cases hb
    obtain rfl : h' = h := Option.some.inj hcaller
    exact hm.advance hphase rfl (Function.update_self _ _ _) rfl rfl (List.append_nil _) fun next hbehind =>
      hbehind.begin hstep hlabel hphase hop _ _
  | @setUrl a t h' op hstep hlabel hphase =>
    cases hb
    obtain rfl : h' = h := Option.some.inj hcaller
    have hurl : (l.dialogue.note h' (.setUrl h' op.url)).url = op.url := by rw [Dialogue.note, if_pos rfl]
    exact hm.advance hphase rfl (Function.update_self _ _ _) rfl rfl (List.append_nil _) fun next hbehind =>
      hbehind.setUrl hstep hlabel hphase hurl _
  | @setHeaders a t h' op r hstep hlabel hphase hbuilt heasy =>
    cases hb
    obtain rfl : h' = h := Option.some.inj hcaller
    exact hm.advance hphase rfl (Function.update_self _ _ _) rfl rfl (List.append_nil _) fun next hbehind =>
      hbehind.configure hstep hlabel (.headed op) hphase rfl rfl (by intro op' he; cases he)
        (fun hoptions => heasy ▸ hoptions.setHeaders _ _ _) rfl _
  | @setAttrs a t h' op hstep hlabel hphase heasy =>
    cases hb
    obtain rfl : h' = h := Option.some.inj hcaller
    exact hm.advance hphase rfl (Function.update_self _ _ _) rfl rfl (List.append_nil _) fun next hbehind =>
      hbehind.configure hstep hlabel (.prepared op) hphase rfl rfl (by intro op' he; cases he)
        (fun hoptions => heasy ▸ hoptions.attrs _) rfl _
  | @enqueue a t h' op r hstep hlabel hphase =>
    cases hb
    obtain rfl : h' = h := Option.some.inj hcaller
    exact hm.advance hphase rfl (Function.update_self _ _ _) rfl rfl (List.append_nil _) fun next hbehind =>
      hbehind.enqueue hstep hlabel hphase rfl _
  | @receive a t h' op r response hstep hlabel hphase hresponse =>
    cases hb
    obtain rfl : h' = h := Option.some.inj hcaller
    have hcalls : (l.note h' (.receive h' r op)).calls = l.calls ++ [⟨op, l.dialogue.outcome⟩] := by
      rw [Ledger.note, ended, if_pos rfl]
    refine hm.answer hphase rfl ?_ (Function.update_self _ _ _) hcalls ?_
    · change (Function.update s.phase h' .ready h').alive = true
      rw [Function.update_self]
      rfl
    · intro next hbehind
      obtain ⟨done, hdone, hanswer, hafter⟩ := hbehind.receive hstep hlabel hphase
        (htold r op response rfl hresponse) _ _ _
      exact ⟨done.1, hdone.trans (congrArg Except.ok (Prod.ext rfl hanswer)), hafter⟩
  | @perform a t h' op outcome done hstep hlabel hphase hop heasy hdone =>
    cases hb
    obtain rfl : h' = h := Option.some.inj hcaller
    have hcalls : (l.note h' (.perform h' op outcome)).calls = l.calls ++ [⟨op, outcome⟩] := by
      rw [Ledger.note, ended, if_pos rfl]
    refine hm.answer hphase rfl ?_ (Function.update_self _ _ _) hcalls ?_
    · rw [hphase]
      rfl
    · exact fun next hbehind => hbehind.perform hstep hlabel hphase hop heasy hdone _ _ _
  | @performFails a t h' op outcome fault hstep hlabel hphase hop heasy hfault =>
    cases hb
    obtain rfl : h' = h := Option.some.inj hcaller
    have hcalls : (l.note h' (.perform h' op outcome)).calls = l.calls ++ [⟨op, outcome⟩] := by
      rw [Ledger.note, ended, if_pos rfl]
    exact hm.fault hphase rfl (Function.update_self _ _ _) (Function.update_self _ _ _) hcalls
      fun next hbehind => hbehind.performFails hstep hlabel hphase hop hfault

section

variable {clients : CURL → MultiCurlClient} {history : List (Move (System host) Action)} {s : System host}

/-- A run of the system is a run of the exchange. -/
theorem run_exchange (hrun : Run (Step host) (System.init host clients) history s) :
    ∃ exchangeHistory, Run (Exchange.Step lib) (Exchange.init fun h => (clients h).curl) exchangeHistory s.exchange ∧
      labels exchangeHistory = (labels history).filterMap visible := by
  have hinit : (System.init host clients).exchange = Exchange.init fun h => (clients h).curl :=
    host.exchange_init _
  rw [← hinit]
  refine hrun.project System.exchange visible ?_ ?_
  · intro s a t hstep hvisible
    obtain ⟨label, hloop, hlabel⟩ := step_host hstep
    exact host.hidden _ _ _ hloop (hlabel.trans hvisible)
  · intro s a b t hstep hvisible
    obtain ⟨label, hloop, hlabel⟩ := step_host hstep
    exact host.shown _ _ _ _ hloop (hlabel.trans hvisible)

theorem ledger_snoc (h : CURL) (actions : List Action) (a : Action) :
    ledger h (actions ++ [a]) = (ledger h actions).note h a :=
  List.foldl_concat _ _ _ _

/-- A ledger has the client's dialogue. -/
theorem ledger_dialogue (h : CURL) (actions : List Action) :
    (ledger h actions).dialogue = dialogue h (actions.filterMap visible) := by
  induction actions using List.reverseRecOn with
  | nil => rfl
  | append_singleton actions a ih =>
    rw [ledger_snoc, Ledger.note, ih, List.filterMap_append, dialogue, dialogue, List.foldl_append]
    cases hlabel : visible a with
    | none =>
      simp only [List.filterMap_cons, List.filterMap_nil, hlabel]
      rfl
    | some b =>
      simp only [List.filterMap_cons, List.filterMap_nil, hlabel]
      rfl

/-- A response that a client receives is the one to its dialogue. -/
theorem receive_told (hrun : Run (Step host) (System.init host clients) history s) {t : System host} {h : CURL}
    {r : RequestId} {op : Operation} (hstep : Step host s (.receive h r op) t) {response : HTTPResponse}
    (hresponse : (s.exchange.request r).response = some response) :
    (ledger h (labels history)).dialogue.response lib = .ok response := by
  obtain ⟨exchangeHistory, hexchange, hlabels⟩ := run_exchange hrun
  have htold := Exchange.run_told hexchange h
  rw [hlabels, ← ledger_dialogue] at htold
  obtain ⟨label, hloop, hlabel⟩ := step_host hstep
  have hshown := host.shown _ _ _ _ hloop hlabel
  have hr : (s.exchange.client h).request? = some r := by
    generalize host.exchange t.loop = e at hshown
    cases hshown with
    | receive hwaiting hset =>
      change (s.exchange.client h) = _ at hwaiting
      rw [hwaiting]
      rfl
  have hclosed : ¬s.exchange.Open r := fun hopen => by
    rw [Exchange.Open, hresponse] at hopen
    cases hopen
  obtain ⟨resp, hresp, hrequest⟩ := htold.answered r hr hclosed
  rw [hresponse] at hrequest
  rw [hresp, Option.some.inj hrequest]

/-- In every run every client has had the answers of its sequential client. -/
theorem run_matches (hrun : Run (Step host) (System.init host clients) history s) (h : CURL) :
    Matches (clients h) s h (ledger h (labels history)) := by
  refine hrun.induct (I := fun history s => Matches (clients h) s h (ledger h (labels history))) ?_ ?_
  · refine Or.inl ⟨rfl, clients h, [], reaches_nil lib (clients h), rfl, ?_⟩
    refine behind_of .ready rfl ?_ rfl ?_ ?_ ?_
    · change Alike ((host.exchange (host.init _)).easy h) _
      rw [host.exchange_init]
      rfl
    · intro op he
      cases he
    · intro url he
      cases he
    · intro _
      refine Or.inl ?_
      change (host.exchange (host.init _)).client h = _
      rw [host.exchange_init]
      rfl
  · intro history s a t hpast hm hstep
    rw [labels_snoc, ledger_snoc]
    by_cases hown : ∃ b, visible a = some b ∧ caller? b = some h
    · obtain ⟨b, hb, hcaller⟩ := hown
      refine matches_own hstep hm hb hcaller ?_
      rintro r op response rfl hresponse
      exact receive_told hpast hstep hresponse
    · exact matches_others hstep hm fun b hb hcaller => hown ⟨b, hb, hcaller⟩

/-- A handle whose transfer runs belongs to a client in `HandleRequest`. -/
theorem running_inside {e : Exchange} (hs : e.Inv) {h : CURL} (hrunning : h ∈ e.running) : ¬Outside e h := by
  obtain ⟨r, hentry, hopen, -⟩ := hs.callback_target hrunning
  obtain ⟨hlt, howner⟩ := hs.custody.keyed h r hentry
  have hawaited := hs.custody.awaited r hlt hopen
  rw [howner] at hawaited
  rintro (hidle | ⟨r', hbuilt⟩)
  · rw [hidle] at hawaited
    cases hawaited
  · rw [hbuilt] at hawaited
    obtain rfl : r' = r := Option.some.inj hawaited
    have hplaces := hs.custody.conserved r'
    have hplace : e.ongoingRequests h = some r' ∧ e.Open r' := ⟨hentry, hopen⟩
    rw [if_neg (hs.custody.built_unsent hbuilt), Exchange.places, howner, if_pos hplace] at hplaces
    omega

/-- A blocking call sends what the sequential client's call sends. -/
theorem perform_sends (hrun : Run (Step host) (System.init host clients) history s) {t : System host} {h : CURL}
    {op : Operation} {outcome : Outcome} (hstep : Step host s (.perform h op outcome) t) :
    SendsAs lib (clients h) (callsOf h (labels history)) op (t.exchange.easy h) := by
  obtain ⟨hphase, hop, heasy⟩ : s.phase h = .ready ∧ op.kind.queued = false ∧
      t.exchange.easy h = (start (s.client h) op).client.curl := by
    cases hstep with
    | perform hstep hlabel hphase hop heasy hdone => exact ⟨hphase, hop, heasy⟩
    | performFails hstep hlabel hphase hop heasy hfault => exact ⟨hphase, hop, heasy⟩
  rcases run_matches hrun h with ⟨-, next, records, hreaches, -, hb⟩ | ⟨hcrashed, -, -⟩
  · refine hreaches.sendsAs ?_
    rw [heasy]
    exact (hb.between hphase).1.start_blocking hop
  · rw [hphase] at hcrashed
    cases hcrashed

/-- In every run, with any number of clients and in any interleaving, every
client has had the answers of the sequential client that makes its calls
alone. A transfer that libcurl runs for it sends what the sequential client's
call sends, and so does the transfer of each of its blocking calls. -/
theorem run_calls (hrun : Run (Step host) (System.init host clients) history s) (h : CURL) :
    s.answers h = (run lib (clients h) (callsOf h (labels history))).map Record.result ∧
      (h ∈ s.exchange.running → ∃ op, s.phase h = .handed op ∧
        SendsAs lib (clients h) (callsOf h (labels history)) op (s.exchange.easy h)) ∧
      ∀ earlier m, earlier ++ [m] <+: history → ∀ op outcome, m.label = .perform h op outcome →
        SendsAs lib (clients h) (callsOf h (labels earlier)) op (m.post.exchange.easy h) := by
  obtain ⟨exchangeHistory, hexchange, -⟩ := run_exchange hrun
  have hinv := Exchange.run_inv hexchange
  have hblocking (earlier : List (Move (System host) Action)) (m : Move (System host) Action)
      (hle : earlier ++ [m] <+: history) (op : Operation) (outcome : Outcome)
      (hlabel : m.label = .perform h op outcome) :
      SendsAs lib (clients h) (callsOf h (labels earlier)) op (m.post.exchange.easy h) := by
    obtain ⟨hpast, hstep⟩ := hrun.of_prefix hle
    rw [hlabel] at hstep
    exact perform_sends hpast hstep
  rcases run_matches hrun h with ⟨-, next, records, hreaches, hrecords, hb⟩ | ⟨-, houtside, hrecords⟩
  · refine ⟨?_, fun hrunning => ?_, hblocking⟩
    · have hall := hreaches []
      rw [List.append_nil] at hall
      rw [hrecords, callsOf, hall]
      exact congrArg (List.map Record.result) (List.append_nil _).symm
    · have hinside := running_inside hinv hrunning
      have hhanded : ∃ op, s.phase h = .handed op := by
        by_contra hnever
        exact hinside (hb.outside fun op he => hnever ⟨op, he⟩)
      obtain ⟨op, hop⟩ := hhanded
      have hoptions := hb.options
      have hqueued := hb.queued op
      rw [hop] at hoptions hqueued
      exact ⟨op, hop, hreaches.sendsAs (hoptions.trans (handed_options next (hqueued rfl)))⟩
  · exact ⟨hrecords, fun hrunning => absurd houtside (running_inside hinv hrunning), hblocking⟩

end

/-- Steps of the loop that no client's own code takes continue a run of the system. -/
theorem run_others (hrun : Run (Step host) (System.init host clients) history s) {t : host.State}
    {later : List (Move host.State host.Label)} (hlater : Run host.step s.loop later t)
    (hother : (later.all fun m => ((host.visible m.label).bind caller?).isNone) = true) :
    ∃ more, Run (Step host) (System.init host clients) (history ++ more) { s with loop := t } := by
  induction hlater with
  | nil => exact ⟨[], hrun.append .nil⟩
  | @snoc later u t a hlater hstep ih =>
    rw [List.all_append, Bool.and_eq_true] at hother
    obtain ⟨more, hbefore⟩ := ih hother.1
    have hnone := List.all_eq_true.mp hother.2 _ (List.mem_singleton_self _)
    have hstep : Step host { s with loop := u } (.other (host.visible a)) { s with loop := t } := by
      refine .other hstep fun b hb => ?_
      rw [hb] at hnone
      exact Option.isNone_iff_eq_none.mp hnone
    have hafter := hbefore.snoc hstep
    rw [List.append_assoc] at hafter
    exact ⟨_, hafter⟩

end

/-- A client on Linux deletes and then gets a file. While the second transfer
runs, the handle still has the verb of the first one, like the sequential client's. -/
theorem run_calls_get :
    ∃ (history : List (Move (System (linux .common)) Action)) (s : System (linux .common)),
      Run (Step (linux .common)) (System.init (linux .common) fun _ => plainClient) history s ∧
      (s.answers 0).length = 1 ∧ (sent (s.exchange.easy 0)).wire.verb = "DELETE".toList ∧
      s.answers 0 = (run .common plainClient (callsOf 0 (labels history))).map Record.result ∧
      (∃ op, s.phase 0 = .handed op ∧
        SendsAs .common plainClient (callsOf 0 (labels history)) op (s.exchange.easy 0)) ∧
      ∀ earlier m, earlier ++ [m] <+: history → ∀ op outcome, m.label = .perform 0 op outcome →
        SendsAs .common plainClient (callsOf 0 (labels earlier)) op (m.post.exchange.easy 0) := by
  have hclient {s : Manager.State} {b : Exchange.Action} {e : Exchange} (hstep : Exchange.Step .common s.exchange b e)
      (hruns : s.bg.Runs b.actor) (hsilent : b.isSignal = false) :
      (linux .common).step s (EventLoop.Action.exchange b) { s with exchange := e } :=
    EventLoop.Step.exchange hruns hsilent hstep
  have start : Run (Step (linux .common)) (System.init (linux .common) fun _ => plainClient) [] _ := .nil
  have run := start.snoc (a := .perform 0 (.delete { url := "a".toList }) (succeeds "gone".toList))
    (.perform (hclient (.configure (.inl rfl) (by exact ⟨rfl, rfl, rfl, rfl, rfl⟩)) (by exact trivial) rfl)
      rfl rfl rfl (Function.update_self _ _ _) rfl)
  have run := run.snoc (a := .begin 0 (.get { url := "b".toList }))
    (.begin (hclient (.build rfl) (by exact trivial) rfl) rfl rfl rfl)
  have run := run.snoc (a := .setUrl 0 (Operation.url (.get { url := "b".toList })))
    (.setUrl (hclient (.setUrl _ rfl) (by exact trivial) rfl) rfl rfl)
  have run := run.snoc (a := .setHeaders 0)
    (.setHeaders (r := 0) (hclient (.configure (.inr ⟨0, rfl⟩) (by exact ⟨rfl, rfl, rfl, rfl, rfl⟩))
      (by exact trivial) rfl) rfl rfl rfl (Function.update_self _ _ _))
  have run := run.snoc (a := .setAttrs 0)
    (.setAttrs (hclient (.configure (.inr ⟨0, rfl⟩) (by exact ⟨rfl, rfl, rfl, rfl, rfl⟩)) (by exact trivial) rfl)
      rfl rfl (Function.update_self _ _ _))
  have run := run.snoc (a := .enqueue 0 0) (.enqueue (hclient (.enqueue rfl) (by exact trivial) rfl) rfl rfl)
  have loop {history : List (Move (System (linux .common)) Action)} {s : System (linux .common)}
      (_ : Run (Step (linux .common)) (System.init (linux .common) fun _ => plainClient) history s) :
      Run (EventLoop.Step .common) s.loop [] s.loop := .nil
  have signalled := (loop run).snoc (.signal (h := 0) trivial (.signal true rfl) rfl)
  have drains := signalled.append (EventLoop.wake_run rfl (by decide))
  have stored := drains.append (EventLoop.store_run (h := 0) (r := 0) rfl rfl rfl rfl rfl)
  have added := stored.snoc (.exchange (a := .addHandle 0 0 0) trivial rfl (.attach rfl (by decide)))
  obtain ⟨more, run⟩ := run_others run added rfl
  obtain ⟨hanswers, hqueued, hblocking⟩ := run_calls run 0
  exact ⟨_, _, run, rfl, rfl, hanswers, hqueued (by decide), hblocking⟩

end CurlHttpfs.Manager.Calls
