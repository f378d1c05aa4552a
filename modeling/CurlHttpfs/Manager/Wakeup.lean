import CurlHttpfs.Manager.LoopInvariant

/-!
# No lost wakeup

A client first emplaces its request and then writes the event descriptor; the
background thread first reads the event descriptor and then drains the queue.
So whenever a request is pending, either its announcement is still to come,
or it is in the counter, or the background thread is draining. The counter
cannot be cleared by an earlier event of the batch, because only the read of
the event descriptor clears it and a batch has one entry for it.
-/

namespace CurlHttpfs.Manager.EventLoop

open Http Curl Kernel Transition

section

variable [HeaderMap]

/-- What keeps requests from being forgotten. -/
structure Wakeful (s : State) : Prop where
  /-- A pending request is announced, will be announced, or is being collected. -/
  announced : s.exchange.pendingRequests ≠ [] →
    (∃ h r, s.exchange.client h = .enqueued r) ∨ 0 < s.eventFd.counter ∨ s.bg = .drain
  /-- An event entry of the batch is still readable. -/
  readable : .event ∈ s.events → 0 < s.eventFd.counter
  /-- A batch has one entry for each descriptor. -/
  distinct : (s.events.map EpollEvent.fd).Nodup

/-- Only `enqueue` makes the queue longer. -/
theorem pending_step {lib : Library} {s t : Exchange} {a : Exchange.Action}
    (hstep : Exchange.Step lib s a t) (hpending : t.pendingRequests ≠ []) :
    s.pendingRequests ≠ [] ∨ ∃ h r, t.client h = .enqueued r := by
  cases hstep with
  | @enqueue h r hbuilt => exact .inr ⟨h, r, Function.update_self _ _ _⟩
  | pop hfocus hqueue =>
    refine .inl fun hempty => ?_
    cases hempty.symm.trans hqueue
  | _ => exact .inl hpending

/-- A client that has emplaced its request writes the event descriptor next. -/
theorem enqueued_step {lib : Library} {s t : Exchange} {a : Exchange.Action}
    (hstep : Exchange.Step lib s a t) (hsilent : a.isSignal = false) {h : CURL} {r : RequestId}
    (henqueued : s.client h = .enqueued r) : t.client h = .enqueued r := by
  have hother (h' : CURL) (pc : ClientPc) (hne : s.client h' ≠ .enqueued r) :
      Function.update s.client h' pc h = .enqueued r := by
    have hdiff : h ≠ h' := fun he => hne (he ▸ henqueued)
    rw [Function.update_of_ne hdiff]
    exact henqueued
  cases hstep with
  | build hidle => exact hother _ _ (by rw [hidle]; nofun)
  | enqueue hbuilt => exact hother _ _ (by rw [hbuilt]; nofun)
  | signal ok hready => cases hsilent
  | receive hwaiting hset => exact hother _ _ (by rw [hwaiting]; nofun)
  | _ => exact henqueued

/-- Steps that touch neither queue nor counter keep what is announced. -/
theorem Wakeful.frame {s t : State} (hs : Wakeful s) (hexchange : t.exchange = s.exchange)
    (heventFd : t.eventFd = s.eventFd) (hevents : t.events.Sublist s.events)
    (hbg : s.bg ≠ .drain) : Wakeful t where
  announced hpending := by
    rw [hexchange] at hpending ⊢
    rw [heventFd]
    rcases hs.announced hpending with henqueued | hcounter | hdrain
    · exact .inl henqueued
    · exact .inr (.inl hcounter)
    · exact absurd hdrain hbg
  readable hm := by
    rw [heventFd]
    exact hs.readable (hevents.subset hm)
  distinct := hs.distinct.sublist (hevents.map EpollEvent.fd)

/-- The read of the event descriptor succeeds and starts the drain. -/
theorem eventRead_eq {s : State} {rest : List EpollEvent} (hs : Wakeful s) (hevents : s.events = .event :: rest) :
    s.eventRead rest = { s with eventFd := .zero, events := rest, bg := .drain } := by
  have hcounter := hs.readable (hevents ▸ List.mem_cons_self)
  simp only [State.eventRead, EventFd.read_positive hcounter]

/-- Steps of the exchange other than signals keep what is announced. -/
theorem Wakeful.exchange {lib : Library} {s : State} {a : Exchange.Action} {e : Exchange} (hs : Wakeful s)
    (hstep : Exchange.Step lib s.exchange a e) (hsilent : a.isSignal = false) :
    Wakeful { s with exchange := e } where
  announced hpending := by
    rcases pending_step hstep hpending with hbefore | henqueued
    · rcases hs.announced hbefore with ⟨h, r, henqueued⟩ | hcounter | hdrain
      · exact .inl ⟨h, r, enqueued_step hstep hsilent henqueued⟩
      · exact .inr (.inl hcounter)
      · exact .inr (.inr hdrain)
    · exact .inl henqueued
  readable := hs.readable
  distinct := hs.distinct

/-- A death during the drain would strand requests, but the drain has no way to die. -/
theorem not_aborts_drain {s : State} (hs : s.exchange.Inv) {why : Death} (haborts : s.Aborts why) :
    s.bg ≠ .drain := by
  intro hdrain
  cases why with
  | entryExists =>
    have hwhy : Handover .entryExists := trivial
    exact not_aborts hs hwhy haborts
  | entryMissing | promiseSet | privateNull =>
    obtain ⟨⟨caller, hbg⟩, -⟩ := haborts
    cases hdrain.symm.trans hbg
  | callback fault =>
    obtain ⟨⟨caller, hbg⟩, -⟩ := haborts
    cases hdrain.symm.trans hbg
  | timerRead | eventRead | settime => exact haborts

/-- Every step keeps requests announced. -/
theorem wakeful_step {lib : Library} {s t : State} {a : Action} (hinv : s.exchange.Inv) (hs : Wakeful s)
    (hstep : Step lib s a t) : Wakeful t := by
  have hleave {pos : Background} (hbg : s.bg = pos) (hne : pos ≠ .drain) : s.bg ≠ .drain := hbg ▸ hne
  cases hstep with
  | exchange hruns hsilent hstep => exact hs.exchange hstep hsilent
  | signal hruns hstep hwrite =>
    have hcounter := s.eventFd.write_one_positive
    rw [hwrite] at hcounter
    exact ⟨fun _ => .inr (.inl hcounter), fun _ => hcounter, hs.distinct⟩
  | signalFails hruns hstep hwrite =>
    have hcounter := s.eventFd.write_one_positive
    rw [hwrite] at hcounter
    exact ⟨fun _ => .inr (.inl hcounter), fun _ => hcounter, hs.distinct⟩
  | elapse d => exact ⟨hs.announced, hs.readable, hs.distinct⟩
  | interrupted hbg => exact hs
  | wake batch hbg hsome hmax hdistinct hready =>
    have hidle : Wakeful { s with bg := .dispatch } :=
      hs.frame rfl rfl (List.Sublist.refl _) (hleave hbg nofun)
    exact ⟨hidle.announced, fun hm => hready .event hm, hdistinct⟩
  | batchDone hbg hevents => exact hs.frame rfl rfl (List.Sublist.refl _) (hleave hbg nofun)
  | @timer rest hbg hevents =>
    have hrest : rest.Sublist s.events := hevents ▸ List.sublist_cons_self _ _
    by_cases hexpired : s.timer.Expired s.now
    · rw [timerCallback_expired rest hexpired]
      exact hs.frame rfl rfl hrest (hleave hbg nofun)
    · rw [timerCallback_blocked rest hexpired]
      exact hs.frame rfl rfl (List.Sublist.refl _) (hleave hbg nofun)
  | @event rest hbg hevents =>
    rw [eventRead_eq hs hevents]
    have hdistinct := hs.distinct
    rw [hevents, List.map_cons, List.nodup_cons] at hdistinct
    refine ⟨fun _ => .inr (.inr rfl), fun hm => ?_, hdistinct.2⟩
    exact absurd (List.mem_map_of_mem hm) hdistinct.1
  | @socket fd epollIn epollOut rest hbg hevents =>
    have hrest : rest.Sublist s.events := hevents ▸ List.sublist_cons_self _ _
    exact hs.frame rfl rfl hrest (hleave hbg nofun)
  | multiTimer timeoutMs hinside =>
    rw [settime_multiTimer]
    exact ⟨hs.announced, hs.readable, hs.distinct⟩
  | actionReturns hbg => exact hs.frame rfl rfl (List.Sublist.refl _) (hleave hbg nofun)
  | @checkDone caller hbg hfocus hmsgs =>
    cases caller <;> exact hs.frame rfl rfl (List.Sublist.refl _) (hleave hbg nofun)
  | endEventCallback hbg =>
    rw [endEventCallback_eq]
    exact hs.frame rfl rfl (List.Sublist.refl _) (hleave hbg nofun)
  | pendingEmpty hbg hfocus hpending =>
    exact ⟨fun hsome => absurd hpending hsome, hs.readable, hs.distinct⟩
  | abort haborts => exact hs.frame rfl rfl (List.Sublist.refl _) (not_aborts_drain hinv haborts)

/-- Requests are announced in every reachable state. -/
theorem run_wakeful {lib : Library} {easy : CURL → Easy} {history : List (Move State Action)} {s : State}
    (hrun : Run (Step lib) (State.init easy) history s) : Wakeful s := by
  have hstart : Wakeful (State.init easy) :=
    ⟨fun hsome => absurd rfl hsome, fun hm => absurd hm List.not_mem_nil, List.nodup_nil⟩
  refine hrun.induct (I := fun _ s => Wakeful s) hstart ?_
  intro history s a t hpast hs hstep
  exact wakeful_step (run_inv hpast) hs hstep

/-- In every run of the event loop, with any number of callers and in any
interleaving: a pending request is about to be announced, is announced in the
counter, or is being collected; a background thread in `epoll_wait` has the
event descriptor ready when a request is pending and all callers wait; and
every dispatched read of the event descriptor succeeds. -/
theorem run_noLostWakeup {lib : Library} {easy : CURL → Easy} {history : List (Move State Action)} {s : State}
    (hrun : Run (Step lib) (State.init easy) history s) :
    (s.exchange.pendingRequests ≠ [] →
      (∃ h r, s.exchange.client h = .enqueued r) ∨ 0 < s.eventFd.counter ∨ s.bg = .drain) ∧
    (s.bg = .epollWait → s.exchange.pendingRequests ≠ [] →
      (∀ h r, s.exchange.client h ≠ .enqueued r) → s.Ready .event) ∧
    (∀ rest, s.bg = .dispatch → s.events = .event :: rest → s.eventFd.read.isSome = true) ∧
    s.bg ≠ .dead .eventRead := by
  have hs := run_wakeful hrun
  refine ⟨hs.announced, ?_, ?_, ?_⟩
  · intro hbg hpending hwaiting
    rcases hs.announced hpending with ⟨h, r, henqueued⟩ | hcounter | hdrain
    · exact absurd henqueued (hwaiting h r)
    · exact hcounter
    · cases hbg.symm.trans hdrain
  · intro rest hbg hevents
    have hcounter := hs.readable (hevents ▸ List.mem_cons_self)
    rw [EventFd.read_positive hcounter]
    rfl
  · refine hrun.induct (I := fun _ s => s.bg ≠ .dead .eventRead) (fun hdead => by cases hdead) ?_
    intro history s a t hpast halive hstep hdead
    rcases step_dead hstep hdead with hbefore | haborts | ⟨hwhy, -⟩ | ⟨-, hm, hzero⟩
    · exact halive hbefore
    · exact haborts
    · cases hwhy
    · have hcounter := (run_wakeful hpast).readable hm
      omega

end

/-- A request announced while a socket event was handled is ready at the next `epoll_wait`. -/
theorem run_noLostWakeup_pending :
    ∃ (history : List (Move State Action)) (s : State),
      Run (Step .common) (State.init fun _ => {}) history s ∧ s.exchange.pendingRequests = [0] ∧
      s.bg = .epollWait ∧ s.Ready .event := by
  have start : Run (Step .common) (State.init fun _ => {}) [] _ := .nil
  have woken := start.snoc
    (.wake [.socket 9 true false] rfl (by decide) (by decide) (by decide) (by decide))
  have sent := woken.append (send_run (h := 0) trivial rfl rfl)
  have acts := sent.snoc (.socket rfl rfl)
  have returned := acts.snoc (.actionReturns rfl)
  have checked := returned.snoc (.checkDone rfl rfl rfl)
  have ended := checked.snoc (.endEventCallback rfl)
  have waits := ended.snoc (.batchDone rfl rfl)
  refine ⟨_, _, waits, rfl, rfl, (run_noLostWakeup waits).2.1 rfl (List.cons_ne_nil _ _) ?_⟩
  intro h r henqueued
  cases h with
  | zero => cases henqueued
  | succ h => cases henqueued

end CurlHttpfs.Manager.EventLoop
