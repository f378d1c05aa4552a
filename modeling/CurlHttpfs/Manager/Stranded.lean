import CurlHttpfs.Manager.LoopInvariant

/-!
# Requests whose attach fails

`ProcessPendingRequests` stores a request under its handle and then adds the
handle to libcurl without looking at the result. When the result is an error
nothing ever removes the entry, for only a message of libcurl does, and the
client waits for good. When every attach succeeds, each entry belongs to a
handle libcurl has whenever the background thread waits.
-/

namespace CurlHttpfs.Manager

open Http Curl Kernel Transition

namespace Exchange

section

variable [HeaderMap]

/-! ## What a failed attach leaves behind -/

/-- An entry that libcurl does not know and the background thread has passed. -/
structure Stuck (s : Exchange) (h : CURL) (r : RequestId) : Prop where
  /-- The request is stored under the handle. -/
  entry : s.ongoingRequests h = some r
  /-- Its promise is not set. -/
  pending : s.Open r
  /-- The handle is not attached. -/
  detached : h ∉ s.attached
  /-- It is not about to be attached. -/
  passed : ∀ r', s.focus ≠ .adding h r'

/-- A failed attach leaves its request stuck. -/
theorem stuck_attachFailed {s : Exchange} {h : CURL} {r : RequestId} (hs : Inv s)
    (hfocus : s.focus = .adding h r) : Stuck { s with focus := .idle } h r := by
  have hentry := hs.custody.adding h r hfocus
  have hopen := hs.custody.entry_open (not_closing hfocus nofun nofun h) hentry
  exact ⟨hentry, hopen, hs.attachment.adding h r hfocus, fun _ he => by cases he⟩

/-- A step that leaves the map and the requests alone leaves a request stuck. -/
theorem Stuck.frame {s t : Exchange} {h : CURL} {r : RequestId} (hs : Stuck s h r) (hu : Unmoved s t)
    (hattached : t.attached ⊆ s.attached) (hfocus : ∀ r', t.focus ≠ .adding h r') : Stuck t h r :=
  ⟨hu.ongoingRequests ▸ hs.entry, (hu.isOpen r).mpr hs.pending, fun hm => hs.detached (hattached hm),
    hfocus⟩

/-- No step of any party frees a stuck request. -/
theorem stuck_step {lib : Library} {s t : Exchange} {a : Action} {h : CURL} {r : RequestId} (hs : Inv s)
    (hstuck : Stuck s h r) (hstep : Step lib s a t) : Stuck t h r := by
  cases hstep with
  | @build h' hidle =>
    have hold : r ≠ s.nextRequest := Nat.ne_of_lt (hs.custody.keyed h r hstuck.entry).1
    have hopen : (s.build h').Open r := (build_old h' hold).2.mpr hstuck.pending
    exact ⟨hstuck.entry, hopen, hstuck.detached, hstuck.passed⟩
  | setUrl url hbuilt => exact hstuck.frame (setUrl_unmoved _ _ _ _) (fun _ => id) hstuck.passed
  | configure hpc hroute => exact hstuck.frame (configure_unmoved hroute) (fun _ => id) hstuck.passed
  | callback hrunning htarget hreceive =>
    exact hstuck.frame (setInfo_unmoved _ _ _) (fun _ => id) hstuck.passed
  | @infoRead h' r' res rest code hfocus hmsgs hprivate =>
    have hinfo := hstuck.frame
      (setInfo_unmoved s r' { (s.request r').info with responseCode := UInt16.ofNat code })
      (fun _ => id) hstuck.passed
    exact ⟨hinfo.entry, hinfo.pending, hinfo.detached, fun _ he => by cases he⟩
  | @setValue h' r' res hfocus hunset =>
    -- the handle being answered is attached, so the entry is another one
    have hattached := (hs.attachment.fulfilling h' r' res hfocus).1
    have hentry := (hs.custody.fulfilling h' r' res hfocus).1
    have hother : r ≠ r' := by
      intro he
      have howner := (hs.custody.keyed h r hstuck.entry).2
      rw [he, (hs.custody.keyed h' r' hentry).2] at howner
      exact hstuck.detached (howner ▸ hattached)
    exact ⟨hstuck.entry, (setValue_open lib s h' r' res r).mpr ⟨hstuck.pending, hother⟩,
      hstuck.detached, fun _ he => by cases he⟩
  | @removeHandle h' hfocus =>
    exact ⟨hstuck.entry, hstuck.pending, fun hm => hstuck.detached (Finset.mem_of_mem_erase hm),
      fun _ he => by cases he⟩
  | @erase h' r' hfocus hfound =>
    -- the entry being erased is completed, so it is another one
    have hother : h ≠ h' := by
      intro he
      obtain ⟨done, hdone, hset⟩ := hs.custody.closing h' (.inr hfocus)
      rw [← he, hstuck.entry] at hdone
      exact hset (Option.some.inj hdone ▸ hstuck.pending)
    refine ⟨?_, hstuck.pending, hstuck.detached, fun _ he => by cases he⟩
    exact (Function.update_of_ne hother _ _).trans hstuck.entry
  | @insert h' r' hfocus hhandle habsent =>
    have hother : h ≠ h' := by
      intro he
      rw [← he, hstuck.entry] at habsent
      cases habsent
    refine ⟨?_, hstuck.pending, hstuck.detached, ?_⟩
    · exact (Function.update_of_ne hother _ _).trans hstuck.entry
    · intro _ he
      exact hother (Focus.adding.inj he).1.symm
  | @attach h' r' hfocus hdetached =>
    refine ⟨hstuck.entry, hstuck.pending, ?_, fun _ he => by cases he⟩
    intro hm
    rcases Finset.mem_insert.mp hm with he | hm
    · exact hstuck.passed r' (he ▸ hfocus)
    · exact hstuck.detached hm
  | attachFailed hfocus hcode => exact ⟨hstuck.entry, hstuck.pending, hstuck.detached, fun _ he => by cases he⟩
  | pop hfocus hpending => exact ⟨hstuck.entry, hstuck.pending, hstuck.detached, fun _ he => by cases he⟩
  | _ => exact ⟨hstuck.entry, hstuck.pending, hstuck.detached, hstuck.passed⟩

/-! ## What successful attaches leave behind -/

/-- Every entry is attached, about to be attached or about to be erased. -/
def Handled (s : Exchange) : Prop :=
  ∀ h, s.ongoingRequests h ≠ none → h ∈ s.attached ∨ (∃ r, s.focus = .adding h r) ∨ s.focus = .erasing h

/-- With nothing in hand every entry is attached. -/
theorem Handled.attached {s : Exchange} (hs : Handled s) {h : CURL} (hentry : s.ongoingRequests h ≠ none)
    (hadding : ∀ r, s.focus ≠ .adding h r) (herasing : s.focus ≠ .erasing h) : h ∈ s.attached := by
  rcases hs h hentry with hm | ⟨r, hfocus⟩ | hfocus
  · exact hm
  · exact absurd hfocus (hadding r)
  · exact absurd hfocus herasing

/-- A step that is not a failed attach keeps every entry in hand. -/
theorem handled_step {lib : Library} {s t : Exchange} {a : Action} (hs : Handled s) (hstep : Step lib s a t)
    (hok : ∀ h r code, a = .addHandle h r code → code = 0) : Handled t := by
  -- while the locals are of another kind, every entry is attached
  have hall {focus : Focus} (hfocus : s.focus = focus) (hadding : ∀ h r, focus ≠ .adding h r)
      (herasing : ∀ h, focus ≠ .erasing h) (h : CURL) (hentry : s.ongoingRequests h ≠ none) :
      h ∈ s.attached :=
    hs.attached hentry (fun r => hfocus ▸ hadding h r) (hfocus ▸ herasing h)
  cases hstep with
  | infoRead code hfocus hmsgs hprivate =>
    exact fun h hentry => .inl (hall hfocus nofun nofun h hentry)
  | setValue hfocus hunset => exact fun h hentry => .inl (hall hfocus nofun nofun h hentry)
  | @removeHandle h' hfocus =>
    intro h hentry
    by_cases he : h = h'
    · exact .inr (.inr (congrArg Focus.erasing he.symm))
    · exact .inl (Finset.mem_erase.mpr ⟨he, hall hfocus nofun nofun h hentry⟩)
  | @erase h' r hfocus hfound =>
    intro h hentry
    have hother : h ≠ h' := by
      intro he
      exact hentry (he ▸ Function.update_self _ _ _)
    have hbefore : s.ongoingRequests h ≠ none := by
      rw [← Function.update_of_ne hother none s.ongoingRequests]
      exact hentry
    refine .inl (hs.attached hbefore (fun r => ?_) ?_)
    · rw [hfocus]
      exact nofun
    · rw [hfocus]
      exact fun he => hother (Focus.erasing.inj he).symm
  | pop hfocus hpending => exact fun h hentry => .inl (hall hfocus nofun nofun h hentry)
  | @insert h' r hfocus hhandle habsent =>
    intro h hentry
    by_cases he : h = h'
    · exact .inr (.inl ⟨r, congrArg (Focus.adding · r) he.symm⟩)
    · have hbefore : s.ongoingRequests h ≠ none := by
        rw [← Function.update_of_ne he (some r) s.ongoingRequests]
        exact hentry
      exact .inl (hall hfocus nofun nofun h hbefore)
  | @attach h' r hfocus hdetached =>
    intro h hentry
    by_cases he : h = h'
    · exact .inl (Finset.mem_insert.mpr (.inl he))
    · refine .inl (Finset.mem_insert_of_mem (hs.attached hentry (fun r' => ?_) ?_))
      · rw [hfocus]
        exact fun hadding => he (Focus.adding.inj hadding).1.symm
      · rw [hfocus]
        exact nofun
  | attachFailed hfocus hcode => exact absurd (hok _ _ _ rfl) hcode
  | _ => exact hs

/-! ## No request is stranded -/

/-- Every request somebody waits for is on its way. -/
structure NoneStranded (s : Exchange) : Prop where
  /-- The requests of the map are attached. -/
  attached : ∀ h r, s.ongoingRequests h = some r → h ∈ s.attached
  /-- A caller waits for a response that is there, a queued request or a transfer libcurl has. -/
  served : ∀ h r, s.client h = .waiting r → ¬s.Open r ∨ r ∈ s.pendingRequests ∨ h ∈ s.attached

/-- With nothing in hand, attached entries leave nobody waiting in vain. -/
theorem noneStranded_of_attached {s : Exchange} (hs : Inv s) (hfocus : s.focus = .idle)
    (hattached : ∀ h r, s.ongoingRequests h = some r → h ∈ s.attached) : NoneStranded s := by
  refine ⟨hattached, fun h r hwaiting => ?_⟩
  obtain ⟨hlt, howner⟩ := hs.custody.concern h r (by rw [hwaiting]; rfl)
  have hsent : s.Sent r := by
    refine ⟨hlt, ?_⟩
    rw [howner, hwaiting]
    exact nofun
  obtain ⟨place, hplace, -⟩ := hs.located hsent
  cases place with
  | pending => exact .inr (.inl hplace)
  | held => cases hfocus.symm.trans hplace
  | ongoing =>
    have hentry := ((hs.ongoing_iff r).mp hplace).1
    exact .inr (.inr (hattached h r (howner ▸ hentry)))
  | completed => exact .inl hplace

end

end Exchange

namespace EventLoop

section

variable [HeaderMap] {lib : Library} {easy : CURL → Easy} {history : List (Move State Action)} {s : State}

/-- A failed attach is in the history and left its request stuck for good. -/
theorem run_stuck (hrun : Run (Step lib) (State.init easy) history s) {h : CURL} {r : RequestId}
    {code : CURLMcode} (hm : .addHandle h r code ∈ exchangeLabels history) (hcode : code ≠ 0) :
    s.exchange.Stuck h r := by
  obtain ⟨exchangeHistory, hexchange, hlabels⟩ := run_exchange hrun
  rw [← hlabels] at hm
  refine hexchange.induct (I := fun history s => .addHandle h r code ∈ labels history → s.Stuck h r)
    (fun hnil => absurd hnil List.not_mem_nil) ?_ hm
  intro history s a t hpast hI hstep hm
  rw [labels_snoc] at hm
  rcases List.mem_append.mp hm with hbefore | hnow
  · exact Exchange.stuck_step (Exchange.run_inv hpast) (hI hbefore) hstep
  · obtain rfl := (List.mem_singleton.mp hnow).symm
    cases hstep with
    | attach hfocus hdetached => exact absurd rfl hcode
    | attachFailed hfocus hcode => exact Exchange.stuck_attachFailed (Exchange.run_inv hpast) hfocus

/-- Without a failed attach every entry stays in hand. -/
theorem run_handled (hrun : Run (Step lib) (State.init easy) history s)
    (hok : ∀ h r code, .addHandle h r code ∈ exchangeLabels history → code = 0) :
    s.exchange.Handled := by
  obtain ⟨exchangeHistory, hexchange, hlabels⟩ := run_exchange hrun
  rw [← hlabels] at hok
  refine hexchange.induct (I := fun history s =>
    (∀ h r code, .addHandle h r code ∈ labels history → code = 0) → s.Handled)
    (fun _ h hentry => absurd rfl hentry) ?_ hok
  intro history s a t hpast hI hstep hok
  rw [labels_snoc] at hok
  refine Exchange.handled_step (hI fun h r code hm => ?_) hstep fun h r code ha => ?_
  · exact hok h r code (List.mem_append_left _ hm)
  · exact hok h r code (List.mem_append_right _ (List.mem_singleton.mpr ha.symm))

/-- Whenever the background thread waits, no request is stranded if and only
if every attach so far has succeeded. -/
theorem run_noneStranded_iff (hrun : Run (Step lib) (State.init easy) history s)
    (hwaits : s.bg = .epollWait) :
    s.exchange.NoneStranded ↔
      ∀ h r code, .addHandle h r code ∈ exchangeLabels history → code = 0 := by
  constructor
  · intro hnone h r code hm
    by_contra hcode
    have hstuck := run_stuck hrun hm hcode
    exact hstuck.detached (hnone.attached h r hstuck.entry)
  · intro hok
    have hhandled := run_handled hrun hok
    have hfocus : s.exchange.focus = .idle := run_focus hrun (hwaits ▸ id)
    refine Exchange.noneStranded_of_attached (run_inv hrun) hfocus fun h r hentry => ?_
    refine hhandled.attached (fun hnone => ?_) (fun r' => ?_) ?_
    · cases hentry.symm.trans hnone
    · rw [hfocus]
      exact nofun
    · rw [hfocus]
      exact nofun

end

/-- One client sends a request and libcurl is out of memory when it is attached. -/
theorem attachFails_run :
    ∃ history s, Run (Step .common) (State.init fun _ => {}) history s ∧ s.bg = .epollWait ∧
      s.exchange.client 0 = .waiting 0 ∧ .addHandle 0 0 3 ∈ exchangeLabels history := by
  have start : Run (Step .common) (State.init fun _ => {}) [] _ := .nil
  have sent := start.append (send_run (h := 0) trivial rfl rfl)
  have drains := sent.append (wake_run rfl (by decide))
  have stored := drains.append (store_run (h := 0) (r := 0) rfl rfl rfl rfl rfl)
  have failed := stored.snoc
    (.exchange (a := .addHandle 0 0 3) trivial rfl (.attachFailed rfl (by decide)))
  have drained := failed.snoc (.pendingEmpty rfl rfl rfl)
  have waits := drained.snoc (.batchDone rfl rfl)
  refine ⟨_, _, waits, rfl, rfl, ?_⟩
  simp [exchangeLabels, labels, visible]

/-- The equivalence for a run with a failed attach. -/
theorem run_noneStranded_failed :
    ∃ (history : List (Move State Action)) (s : State),
      Run (Step .common) (State.init fun _ => {}) history s ∧ s.bg = .epollWait ∧
      s.exchange.client 0 = .waiting 0 ∧ .addHandle 0 0 3 ∈ exchangeLabels history ∧
      (s.exchange.NoneStranded ↔
        ∀ h r code, .addHandle h r code ∈ exchangeLabels history → code = 0) := by
  obtain ⟨history, s, hrun, hwaits, hclient, hfailed⟩ := attachFails_run
  exact ⟨history, s, hrun, hwaits, hclient, hfailed, run_noneStranded_iff hrun hwaits⟩

/-- The background thread waits again, the client waits for its response, and
the request is stored under a handle that libcurl does not have. -/
theorem run_strands :
    ∃ history s, Run (Step .common) (State.init fun _ => {}) history s ∧ s.bg = .epollWait ∧
      s.exchange.client 0 = .waiting 0 ∧ s.exchange.Open 0 ∧ 0 ∉ s.exchange.attached ∧
      ¬s.exchange.NoneStranded := by
  obtain ⟨history, s, hrun, hwaits, hclient, hfailed⟩ := attachFails_run
  have hstuck := run_stuck hrun hfailed (by decide)
  refine ⟨history, s, hrun, hwaits, hclient, hstuck.pending, hstuck.detached, ?_⟩
  exact fun hnone => hstuck.detached (hnone.attached 0 0 hstuck.entry)

end EventLoop

end CurlHttpfs.Manager
