import CurlHttpfs.Manager.KqueueLoop
import CurlHttpfs.Manager.Wakeup

/-!
# Wake-ups and timeouts on a kernel queue

Two things must not get lost between clients, libcurl and the loop. A trigger
of the user event survives until the queue is drained behind it, although
`kevent` clears the event before the batch is handled. A timeout libcurl asks
for survives until libcurl asks for another one: the timer is periodic,
nothing but `MultiTimerCallback` touches it, and each retrieval arms it again.
-/

namespace CurlHttpfs.Manager.Apple

open Http Curl Kernel Transition

section

variable [HeaderMap]

/-! ## The user event -/

/-- What keeps requests from being forgotten. -/
structure Wakeful (s : State) : Prop where
  /-- A pending request will be announced, is announced, is in the batch, or is being collected. -/
  announced : s.exchange.pendingRequests ≠ [] →
    (∃ h r, s.exchange.client h = .enqueued r) ∨ s.user = true ∨ .user ∈ s.events ∨ s.bg = .drain
  /-- A thread in `kevent` has handled its batch. -/
  handled : s.bg = .kevent → s.events = []

/-- Steps that touch neither queue nor user event keep what is announced. -/
theorem Wakeful.frame {s t : State} (hs : Wakeful s) (hexchange : t.exchange = s.exchange) (huser : t.user = s.user)
    (hevents : t.events = s.events) (hdrain : s.bg ≠ .drain) (hhandled : t.bg = .kevent → s.events = []) :
    Wakeful t where
  announced hpending := by
    rw [hexchange] at hpending ⊢
    rw [huser, hevents]
    rcases hs.announced hpending with henqueued | htriggered | hbatch | hbg
    · exact .inl henqueued
    · exact .inr (.inl htriggered)
    · exact .inr (.inr (.inl hbatch))
    · exact absurd hbg hdrain
  handled hbg := hevents.trans (hhandled hbg)

/-- The drain has no way to die. -/
theorem not_aborts_drain {s : State} (hs : s.exchange.Inv) {why : Death} (haborts : s.shared.Aborts why) :
    s.bg ≠ .drain := by
  intro hdrain
  have hshared : s.shared.bg = .drain := congrArg Background.shared hdrain
  exact EventLoop.not_aborts_drain (s := s.shared) hs haborts hshared

/-- Every step keeps requests announced. -/
theorem wakeful_step {lib : Library} {s t : State} {a : Action} (hinv : s.exchange.Inv) (hs : Wakeful s)
    (hstep : Step lib s a t) : Wakeful t := by
  have hleave {pos : Background} (hbg : s.bg = pos) (hne : pos ≠ .drain) : s.bg ≠ .drain := hbg ▸ hne
  cases hstep with
  | @exchange a e hruns hsilent hstep =>
    refine ⟨fun hpending => ?_, hs.handled⟩
    rcases EventLoop.pending_step hstep hpending with hbefore | henqueued
    · rcases hs.announced hbefore with ⟨h, r, henqueued⟩ | hrest
      · exact .inl ⟨h, r, EventLoop.enqueued_step hstep hsilent henqueued⟩
      · exact .inr hrest
    · exact .inl henqueued
  | signal hruns hstep => exact ⟨fun _ => .inr (.inl rfl), hs.handled⟩
  | elapse d => exact ⟨hs.announced, hs.handled⟩
  | interrupted hbg => exact hs
  | wake batch hbg hsome hmax hdistinct hready =>
    refine ⟨fun hpending => ?_, fun hback => by cases hback⟩
    rcases hs.announced hpending with henqueued | htriggered | hbatch | hdrain
    · exact .inl henqueued
    · -- the trigger moves into the batch or stays
      by_cases hm : .user ∈ batch
      · exact .inr (.inr (.inl hm))
      · refine .inr (.inl ?_)
        change (if .user ∈ batch then false else s.user) = true
        rw [if_neg hm]
        exact htriggered
    · rw [hs.handled hbg] at hbatch
      exact absurd hbatch List.not_mem_nil
    · cases hbg.symm.trans hdrain
  | batchDone hbg hevents =>
    exact hs.frame rfl rfl rfl (hleave hbg Background.noConfusion) fun _ => hevents
  | @dispatch entry rest hbg hevents =>
    have hback : (s.handle entry rest).bg ≠ .kevent := by
      intro hback
      cases entry <;> cases hback
    refine ⟨fun hpending => ?_, fun h => absurd h hback⟩
    rcases hs.announced hpending with henqueued | htriggered | hbatch | hdrain
    · exact .inl henqueued
    · exact .inr (.inl htriggered)
    · rw [hevents] at hbatch
      rcases List.mem_cons.mp hbatch with hentry | hrest
      · exact .inr (.inr (.inr (hentry ▸ rfl)))
      · exact .inr (.inr (.inl hrest))
    · cases hbg.symm.trans hdrain
  | multiTimer timeoutMs hinside => exact ⟨hs.announced, hs.handled⟩
  | actionReturns hbg =>
    exact hs.frame rfl rfl rfl (hleave hbg Background.noConfusion) Background.noConfusion
  | checkDone hbg hfocus hmsgs =>
    exact hs.frame rfl rfl rfl (hleave hbg Background.noConfusion) Background.noConfusion
  | pendingEmpty hbg hfocus hpending =>
    exact ⟨fun hsome => absurd hpending hsome, Background.noConfusion⟩
  | abort haborts =>
    exact hs.frame rfl rfl rfl (not_aborts_drain hinv haborts) Background.noConfusion

/-- Requests are announced in every reachable state. -/
theorem run_wakeful {lib : Library} {easy : CURL → Easy} {history : List (Move State Action)} {s : State}
    (hrun : Run (Step lib) (State.init easy) history s) : Wakeful s := by
  refine hrun.induct (I := fun _ s => Wakeful s) ⟨fun hsome => absurd rfl hsome, fun _ => rfl⟩ ?_
  intro history s a t hpast hs hstep
  exact wakeful_step (run_inv hpast) hs hstep

/-- In every run of the macOS loop, with any number of callers and in any
interleaving: a pending request is about to be announced, is announced by the
user event, has its event in the batch, or is being collected; and a thread
in `kevent` has the user event ready when a request is pending and all
callers wait. -/
theorem run_triggered {lib : Library} {easy : CURL → Easy} {history : List (Move State Action)} {s : State}
    (hrun : Run (Step lib) (State.init easy) history s) :
    (s.exchange.pendingRequests ≠ [] →
      (∃ h r, s.exchange.client h = .enqueued r) ∨ s.user = true ∨ .user ∈ s.events ∨ s.bg = .drain) ∧
    (s.bg = .kevent → s.exchange.pendingRequests ≠ [] →
      (∀ h r, s.exchange.client h ≠ .enqueued r) → s.Ready .user) := by
  have hs := run_wakeful hrun
  refine ⟨hs.announced, fun hbg hpending hwaiting => ?_⟩
  rcases hs.announced hpending with ⟨h, r, henqueued⟩ | htriggered | hbatch | hdrain
  · exact absurd henqueued (hwaiting h r)
  · exact htriggered
  · rw [hs.handled hbg] at hbatch
    exact absurd hbatch List.not_mem_nil
  · cases hbg.symm.trans hdrain

/-! ## The timer -/

/-- A timeout libcurl asked for. -/
structure Request where
  /-- The timeout in milliseconds, negative to delete the timer. -/
  timeoutMs : Int
  /-- When it was asked for. -/
  since : Nat
  /-- How many batches have reported it since. -/
  reports : Nat

/-- Only another request replaces a request, and batches with the timer report it. -/
def Request.note (request : Option Request) (m : Move State Action) : Option Request :=
  match m.label with
  | .multiTimer timeoutMs => some ⟨timeoutMs, m.pre.now, 0⟩
  | .wake batch =>
    if .timer ∈ batch then request.map fun r => { r with reports := r.reports + 1 } else request
  | _ => request

/-- The request in force behind a history. -/
def inForce (history : List (Move State Action)) : Option Request := history.foldl Request.note none

/-- The timer is what the request asks for: none, or one of the request's
period, or of a millisecond instead of zero, whose next expiration lies a
whole number of periods behind the request, beyond those reported, and at
most one period ahead. -/
def Honours (request : Option Request) (s : State) : Prop :=
  match request with
  | none => s.timer = none
  | some r =>
    if r.timeoutMs < 0 then s.timer = none
    else ∃ timer, s.timer = some timer ∧ timer.period = max r.timeoutMs.toNat 1 ∧
      (∃ k, r.reports < k ∧ timer.due = r.since + k * timer.period) ∧ timer.due ≤ s.now + timer.period

/-- Steps that leave the timer alone keep the request honoured as time goes on. -/
theorem Honours.frame {request : Option Request} {s t : State} (hs : Honours request s)
    (htimer : t.timer = s.timer) (hnow : s.now ≤ t.now) : Honours request t := by
  cases request with
  | none => exact htimer.trans hs
  | some r =>
    simp only [Honours] at hs ⊢
    rw [htimer]
    by_cases hneg : r.timeoutMs < 0
    · rw [if_pos hneg] at hs ⊢
      exact hs
    · rw [if_neg hneg] at hs ⊢
      obtain ⟨timer, hsome, hperiod, hk, hdue⟩ := hs
      have hlater : timer.due ≤ t.now + timer.period := by omega
      exact ⟨timer, hsome, hperiod, hk, hlater⟩

/-- `MultiTimerCallback` installs what it is asked for. -/
theorem honours_multiTimer (s : State) (timeoutMs : Int) :
    Honours (some ⟨timeoutMs, s.now, 0⟩) (s.multiTimer timeoutMs) := by
  have htimer : (s.multiTimer timeoutMs).timer = (multiTimerChange timeoutMs).map (KTimer.add s.now) := rfl
  simp only [Honours]
  rw [htimer]
  by_cases hpos : 0 < timeoutMs
  · have hneg : ¬timeoutMs < 0 := by omega
    have hmax : timeoutMs.toNat = max timeoutMs.toNat 1 := by omega
    rw [multiTimerChange, dif_pos hpos, if_neg hneg]
    refine ⟨_, rfl, hmax, ⟨1, Nat.one_pos, ?_⟩, Nat.le_refl _⟩
    rw [Nat.one_mul]
    rfl
  · by_cases hzero : timeoutMs = 0
    · subst hzero
      exact ⟨_, rfl, rfl, ⟨1, Nat.one_pos, rfl⟩, Nat.le_refl _⟩
    · have hneg : timeoutMs < 0 := by omega
      rw [multiTimerChange, dif_neg hpos, if_neg hzero, if_pos hneg]
      rfl

/-- A batch that reports the timer arms it again. -/
theorem honours_retrieve {request : Option Request} {s : State} (hs : Honours request s) {batch : List Kevent}
    (hready : s.Ready .timer) (hm : .timer ∈ batch) :
    Honours (request.map fun r => { r with reports := r.reports + 1 }) (s.retrieve batch) := by
  obtain ⟨fired, hfired, hdue⟩ := hready
  have htimer : (s.retrieve batch).timer = s.timer.map (KTimer.retrieve s.now) := if_pos hm
  cases request with
  | none =>
    have hnone : s.timer = none := hs
    rw [hnone] at hfired
    cases hfired
  | some r =>
    simp only [Honours, Option.map_some] at hs ⊢
    rw [htimer]
    by_cases hneg : r.timeoutMs < 0
    · rw [if_pos hneg] at hs
      rw [hs] at hfired
      cases hfired
    · rw [if_neg hneg] at hs ⊢
      obtain ⟨timer, hsome, hperiod, ⟨k, hk, hnext⟩, -⟩ := hs
      rw [hsome] at hfired ⊢
      obtain rfl := Option.some.inj hfired
      have hahead := KTimer.retrieve_due hdue
      refine ⟨timer.retrieve s.now, rfl, hperiod, ⟨k + timer.expirations s.now, ?_, ?_⟩, hahead.2⟩
      · have hone : 1 ≤ timer.expirations s.now := Nat.le_add_left _ _
        change r.reports + 1 < _
        omega
      · change timer.due + timer.expirations s.now * timer.period = _ + _ * timer.period
        rw [hnext, Nat.add_mul, Nat.add_assoc]

/-- In every run of the macOS loop libcurl's last request is honoured:
nothing cancels its timer, no expiration is reported early or twice, and the
next one is never more than a period away. -/
theorem run_timer {lib : Library} {easy : CURL → Easy} {history : List (Move State Action)} {s : State}
    (hrun : Run (Step lib) (State.init easy) history s) : Honours (inForce history) s := by
  refine hrun.induct (I := fun history s => Honours (inForce history) s) ?_ ?_
  · exact (rfl : (State.init easy).timer = none)
  intro history s a t hpast hs hstep
  rw [inForce, List.foldl_append]
  change Honours (Request.note (inForce history) ⟨s, a, t⟩) t
  cases hstep with
  | multiTimer timeoutMs hinside => exact honours_multiTimer s timeoutMs
  | wake batch hbg hsome hmax hdistinct hready =>
    simp only [Request.note]
    by_cases hm : .timer ∈ batch
    · rw [if_pos hm]
      exact honours_retrieve hs (hready .timer hm) hm
    · rw [if_neg hm]
      exact hs.frame (if_neg hm) (Nat.le_refl _)
  | elapse d => exact hs.frame rfl (Nat.le_add_right _ _)
  | _ => exact hs.frame rfl (Nat.le_refl _)

end

/-- A request announced while another event of the batch is handled has its own event ready afterwards. -/
theorem run_triggered_pending :
    ∃ (history : List (Move State Action)) (s : State),
      Run (Step .common) (State.init fun _ => {}) history s ∧ s.exchange.pendingRequests = [0] ∧
      s.bg = .kevent ∧ s.Ready .user := by
  have start : Run (Step .common) (State.init fun _ => {}) [] _ := .nil
  have woken := start.snoc (.wake [.read 9] rfl (by decide) (by decide) (by decide) (by decide))
  have sent := woken.append (send_run (h := 0) trivial rfl)
  have acts := sent.snoc (.dispatch rfl rfl)
  have returned := acts.snoc (.actionReturns rfl)
  have checked := returned.snoc (.checkDone rfl rfl rfl)
  have waits := checked.snoc (.batchDone rfl rfl)
  refine ⟨_, _, waits, rfl, rfl, (run_triggered waits).2 rfl (List.cons_ne_nil _ _) ?_⟩
  intro h r henqueued
  cases h with
  | zero => cases henqueued
  | succ h => cases henqueued

/-- A timeout of five milliseconds that is looked at late fires again on schedule. -/
theorem run_timer_late :
    ∃ (history : List (Move State Action)) (s : State),
      Run (Step .common) (State.init fun _ => {}) history s ∧ s.now = 12 ∧
      inForce history = some ⟨5, 0, 1⟩ ∧ Honours (some ⟨5, 0, 1⟩) s := by
  have start : Run (Step .common) (State.init fun _ => {}) [] _ := .nil
  have woken := start.snoc (.wake [.read 9] rfl (by decide) (by decide) (by decide) (by decide))
  have acts := woken.snoc (.dispatch rfl rfl)
  have asked := acts.snoc (.multiTimer 5 trivial)
  have returned := asked.snoc (.actionReturns rfl)
  have checked := returned.snoc (.checkDone rfl rfl rfl)
  have waits := checked.snoc (.batchDone rfl rfl)
  have later := waits.snoc (.elapse 12)
  have reported := later.snoc (.wake [.timer] rfl (by decide) (by decide) (by decide) (by decide))
  exact ⟨_, _, reported, rfl, rfl, run_timer reported⟩

end CurlHttpfs.Manager.Apple
