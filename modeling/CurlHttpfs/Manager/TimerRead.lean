import CurlHttpfs.Manager.Timeout
import CurlHttpfs.Manager.Wakeup

/-!
# The read of the timer

The loop trusts the readiness of the timer from the moment `epoll_wait`
returned, but libcurl may set the timer, and `EventCallback` may disarm it,
while earlier events of the same batch are handled. Setting a timer drops its
unread expiration, and the read behind it fails. What decides a read is the
last write of the timer since the batch began, and the time since then.
-/

namespace CurlHttpfs.Manager.EventLoop

open Http Curl Kernel Transition

/-- What has become of a timer since `epoll_wait` returned. -/
inductive Standing where
  /-- It has not been written. -/
  | untouched
  /-- The last write disarmed it. -/
  | disarmed
  /-- The last write armed it, with so many nanoseconds to go. -/
  | rearmed (left : Nat)
  deriving DecidableEq

/-- The writes of the timer and the passing of time, read off the labels. -/
def Standing.next : Standing → Action → Standing
  | _, .wake _ => .untouched
  | _, .multiTimer timeoutMs =>
    if timeoutMs < 0 then .disarmed else .rearmed (max (timeoutMs.toNat * 1000000) 1)
  | _, .endEventCallback true => .disarmed
  | .rearmed left, .elapse d => .rearmed (left - d)
  | standing, _ => standing

/-- The standing of the timer behind a sequence of steps. -/
def standing (actions : List Action) : Standing := actions.foldl Standing.next .untouched

/-- The timer was not written, or the time it was last set to has passed. -/
def Standing.Intact : Standing → Prop
  | .untouched => True
  | .disarmed => False
  | .rearmed left => left = 0

section

variable [HeaderMap]

/-- Whenever a timer event is dispatched, the timer is intact. -/
def TimerIntact (history : List (Move State Action)) : Prop :=
  ∀ earlier m, earlier ++ [m] <+: history → m.label = .dispatch .timer → (standing (labels earlier)).Intact

/-- What the standing says about the timer itself. -/
def Describes (s : State) : Standing → Prop
  | .untouched => s.timer.Expired s.now
  | .disarmed => s.timer.deadline = none
  | .rearmed left => ∃ d, s.timer.deadline = some d ∧ d - s.now = left

/-- A described timer can be read exactly when it is intact. -/
theorem Describes.expired_iff {s : State} {st : Standing} (h : Describes s st) :
    s.timer.Expired s.now ↔ st.Intact := by
  cases st with
  | untouched => exact iff_of_true h trivial
  | disarmed =>
    refine iff_of_false ?_ id
    intro ⟨d, hd, _⟩
    cases hd.symm.trans h
  | rearmed left =>
    obtain ⟨d, hd, hleft⟩ := h
    constructor
    · intro ⟨d', hd', hdue⟩
      have he : d = d' := Option.some.inj (hd.symm.trans hd')
      change left = 0
      omega
    · intro (hzero : left = 0)
      have hdue : d ≤ s.now := by omega
      exact ⟨d, hd, hdue⟩

/-- As long as a timer event is waiting in the batch, the standing describes the timer. -/
def Tracks (s : State) (st : Standing) : Prop := .timer ∈ s.events → Describes s st

/-- Steps that leave timer and clock alone and add no event keep the description. -/
theorem Tracks.frame {s t : State} {st : Standing} (hs : Tracks s st) (htimer : t.timer = s.timer)
    (hnow : t.now = s.now) (hevents : t.events.Sublist s.events) : Tracks t st := by
  intro hm
  have hd := hs (hevents.subset hm)
  cases st with
  | untouched =>
    change t.timer.Expired t.now
    rw [htimer, hnow]
    exact hd
  | disarmed =>
    change t.timer.deadline = none
    rw [htimer]
    exact hd
  | rearmed left =>
    change ∃ d, t.timer.deadline = some d ∧ d - t.now = left
    rw [htimer, hnow]
    exact hd

/-- Time passes alike for the timer and for its standing. -/
theorem tracks_elapse {s : State} {st : Standing} (d : Nat) (hs : Tracks s st) :
    Tracks { s with now := s.now + d } (st.next (.elapse d)) := by
  intro hm
  have hd := hs hm
  cases st with
  | untouched => exact TimerFd.Expired.mono hd (Nat.le_add_right _ _)
  | disarmed => exact hd
  | rearmed left =>
    obtain ⟨deadline, hdeadline, hleft⟩ := hd
    refine ⟨deadline, hdeadline, ?_⟩
    change deadline - (s.now + d) = left - d
    omega

/-- A write by `MultiTimerCallback` is described by its timeout. -/
theorem tracks_multiTimer (s : State) (st : Standing) (timeoutMs : Int) :
    Tracks (s.settime (multiTimerSpec timeoutMs)) (st.next (.multiTimer timeoutMs)) := by
  intro _
  have hnanos := (multiTimerSpec_nanos timeoutMs).2
  have hnext : st.next (.multiTimer timeoutMs) =
      if timeoutMs < 0 then .disarmed else .rearmed (max (timeoutMs.toNat * 1000000) 1) := by
    cases st <;> rfl
  rw [settime_multiTimer, hnanos, hnext]
  by_cases hneg : timeoutMs < 0
  · simp only [if_pos hneg, if_true]
    rfl
  · have hpos : max (timeoutMs.toNat * 1000000) 1 ≠ 0 := by omega
    simp only [if_neg hneg, if_neg hpos]
    refine ⟨_, rfl, ?_⟩
    change s.now + max (timeoutMs.toNat * 1000000) 1 - s.now = _
    omega

/-- Every step keeps the description. -/
theorem tracks_step {lib : Library} {s t : State} {a : Action} {st : Standing} (hw : Wakeful s)
    (hs : Tracks s st) (hstep : Step lib s a t) : Tracks t (st.next a) := by
  cases hstep with
  | exchange hruns hsilent hstep => cases st <;> exact hs.frame rfl rfl (List.Sublist.refl _)
  | signal hruns hstep hwrite => cases st <;> exact hs.frame rfl rfl (List.Sublist.refl _)
  | signalFails hruns hstep hwrite => cases st <;> exact hs.frame rfl rfl (List.Sublist.refl _)
  | elapse d => exact tracks_elapse d hs
  | interrupted hbg => cases st <;> exact hs
  | wake batch hbg hsome hmax hdistinct hready =>
    have hnext : st.next (.wake batch) = .untouched := by cases st <;> rfl
    rw [hnext]
    exact fun hm => hready .timer hm
  | batchDone hbg hevents => cases st <;> exact hs.frame rfl rfl (List.Sublist.refl _)
  | @timer rest hbg hevents =>
    have hdistinct := hw.distinct
    rw [hevents, List.map_cons, List.nodup_cons] at hdistinct
    have hgone : .timer ∉ rest := fun hm => hdistinct.1 (List.mem_map_of_mem hm)
    by_cases hexpired : s.timer.Expired s.now
    · rw [timerCallback_expired rest hexpired]
      exact fun hm => absurd hm hgone
    · rw [timerCallback_blocked rest hexpired]
      cases st <;> exact hs.frame rfl rfl (List.Sublist.refl _)
  | @event rest hbg hevents =>
    have hrest : rest.Sublist s.events := hevents ▸ List.sublist_cons_self _ _
    rw [eventRead_eq hw hevents]
    cases st <;> exact hs.frame rfl rfl hrest
  | @socket fd epollIn epollOut rest hbg hevents =>
    have hrest : rest.Sublist s.events := hevents ▸ List.sublist_cons_self _ _
    cases st <;> exact hs.frame rfl rfl hrest
  | multiTimer timeoutMs hinside => exact tracks_multiTimer s st timeoutMs
  | actionReturns hbg => cases st <;> exact hs.frame rfl rfl (List.Sublist.refl _)
  | @checkDone caller hbg hfocus hmsgs =>
    cases caller <;> cases st <;> exact hs.frame rfl rfl (List.Sublist.refl _)
  | endEventCallback hbg =>
    rw [endEventCallback_eq]
    by_cases hzero : s.stillRunning = 0
    · rw [if_pos hzero, decide_eq_true hzero]
      cases st <;> exact fun _ => rfl
    · rw [if_neg hzero, decide_eq_false hzero]
      cases st <;> exact hs.frame rfl rfl (List.Sublist.refl _)
  | pendingEmpty hbg hfocus hpending => cases st <;> exact hs.frame rfl rfl (List.Sublist.refl _)
  | abort haborts => cases st <;> exact hs.frame rfl rfl (List.Sublist.refl _)

/-- A dispatched timer event comes from the batch, and kills the background
thread when the timer has no unread expiration. -/
theorem dispatch_timer {lib : Library} {s t : State} (hstep : Step lib s (.dispatch .timer) t) :
    .timer ∈ s.events ∧ (¬s.timer.Expired s.now → t.bg = .dead .timerRead) := by
  cases hstep with
  | timer hbg hevents =>
    refine ⟨hevents ▸ List.mem_cons_self, fun hexpired => ?_⟩
    rw [timerCallback_blocked _ hexpired]

variable {lib : Library} {easy : CURL → Easy} {history : List (Move State Action)} {s : State}

/-- In every run the labels describe the timer of a waiting timer event. -/
theorem run_tracks (hrun : Run (Step lib) (State.init easy) history s) :
    Tracks s (standing (labels history)) := by
  refine hrun.induct (I := fun history s => Tracks s (standing (labels history))) ?_ ?_
  · exact fun hm => absurd hm List.not_mem_nil
  · intro history s a t hpast hs hstep
    have hnext : standing (labels (history ++ [⟨s, a, t⟩])) = (standing (labels history)).next a := by
      rw [labels_snoc, standing, List.foldl_append]
      rfl
    rw [hnext]
    exact tracks_step (run_wakeful hpast) hs hstep

/-- An intact timer never fails its read. -/
theorem run_alive (hrun : Run (Step lib) (State.init easy) history s) (hintact : TimerIntact history) :
    s.bg ≠ .dead .timerRead := by
  refine hrun.induct (I := fun history s => TimerIntact history → s.bg ≠ .dead .timerRead) ?_ ?_ hintact
  · intro _ hdead
    cases hdead
  · intro history s a t hpast halive hstep hintact hdead
    have hshorter : TimerIntact history := fun earlier m hle =>
      hintact earlier m (hle.trans (List.prefix_append _ _))
    rcases step_dead hstep hdead with hbefore | haborts | ⟨-, hlabel, hm, hexpired⟩ | ⟨hwhy, -⟩
    · exact halive hshorter hbefore
    · exact haborts
    · have hread := hintact history ⟨s, a, t⟩ List.prefix_rfl hlabel
      exact hexpired ((run_tracks hpast hm).expired_iff.mpr hread)
    · cases hwhy

/-- A run of the event loop never fails the read of the timer if and only if
at every dispatched timer event nothing has written the timer since
`epoll_wait` returned the batch, or the time of its last write has passed. -/
theorem run_timerRead_iff (hrun : Run (Step lib) (State.init easy) history s) :
    (∀ m ∈ history, m.post.bg ≠ .dead .timerRead) ↔ TimerIntact history := by
  constructor
  · intro halive earlier m hle hlabel
    obtain ⟨hpast, hstep⟩ := hrun.of_prefix hle
    have hm : m ∈ history := hle.subset (List.mem_append_right _ (List.mem_singleton_self _))
    rw [hlabel] at hstep
    obtain ⟨hwaiting, hfails⟩ := dispatch_timer hstep
    refine (run_tracks hpast hwaiting).expired_iff.mp ?_
    by_contra hexpired
    exact halive m hm (hfails hexpired)
  · intro hintact m hm
    obtain ⟨earlier, hle, hearlier⟩ := hrun.to_post hm
    exact run_alive hearlier fun earlier' m' hle' => hintact earlier' m' (hle'.trans hle)

end

/-- The timer and a socket are reported together, and libcurl handles the
socket and arms the timer anew before the loop reads it. -/
theorem rearmed_dies {lib : Library} {s : State} (hrest : AtRest s) (hexpired : s.timer.Expired s.now) :
    ∃ later t, Run (Step lib) s later t ∧ t.bg = .dead .timerRead := by
  obtain ⟨hwaits, -, hfocus, hmsgs⟩ := hrest
  have hready : ∀ entry ∈ [EpollEvent.socket 9 true false, .timer], s.Ready entry := by
    intro entry hm
    rcases List.mem_pair.mp hm with rfl | rfl
    · trivial
    · exact hexpired
  have woken : Run (Step lib) s _ _ := Run.nil.snoc
    (.wake [.socket 9 true false, .timer] hwaits (by decide) (by decide) (by decide) hready)
  have acts := woken.snoc (.socket rfl rfl)
  have armed := acts.snoc (.multiTimer 1000 trivial)
  rw [settime_multiTimer] at armed
  have hpos : 0 < (multiTimerSpec 1000).nanos := by decide
  generalize (multiTimerSpec 1000).nanos = wait at armed hpos
  rw [if_neg (Nat.ne_of_gt hpos)] at armed
  have returned := armed.snoc (.actionReturns rfl)
  have checked := returned.snoc (.checkDone rfl (by exact hfocus) (by exact hmsgs))
  have ended := checked.snoc (.endEventCallback rfl)
  rw [endEventCallback_eq] at ended
  refine ⟨_, _, ended.snoc (.timer rfl rfl), ?_⟩
  rw [timerCallback_blocked]
  rintro ⟨d, hd, hdue⟩
  dsimp only at hd
  split at hd
  · cases hd
  · obtain rfl := Option.some.inj hd
    have hlate : s.now + wait ≤ s.now := hdue
    omega

/-- One transfer runs. A socket of it and the timer become ready together;
the socket is handled first, and libcurl arms the timer anew. -/
theorem rearmed_run :
    ∃ history s, Run (Step .common) (State.init fun _ => {}) history s ∧ s.bg = .dead .timerRead := by
  obtain ⟨history, s, hrun, hrest, hdeadline, hnow, -⟩ := timeout_run
  have later := hrun.snoc (.elapse 200000000)
  obtain ⟨history', t, hlater, hdead⟩ : ∃ later t,
      Run (Step .common) { s with now := s.now + 200000000 } later t ∧ t.bg = .dead .timerRead :=
    rearmed_dies ⟨hrest.waits, hrest.events, hrest.focus, hrest.msgs⟩ ⟨200000001, hdeadline, hnow ▸ Nat.le_refl _⟩
  exact ⟨_, t, later.append hlater, hdead⟩

/-- The equivalence for a run that rearms the timer behind a socket event. -/
theorem run_timerRead_rearmed :
    ∃ (history : List (Move State Action)) (s : State),
      Run (Step .common) (State.init fun _ => {}) history s ∧ s.bg = .dead .timerRead ∧
      ((∀ m ∈ history, m.post.bg ≠ .dead .timerRead) ↔ TimerIntact history) := by
  obtain ⟨history, s, hrun, hdead⟩ := rearmed_run
  exact ⟨history, s, hrun, hdead, run_timerRead_iff hrun⟩

/-- The read of the timer can fail. -/
theorem timerRead_fails :
    ¬∀ history s, Run (Step .common) (State.init fun _ => {}) history s → s.bg ≠ .dead .timerRead := by
  intro hnever
  obtain ⟨history, s, hrun, hdead⟩ := rearmed_run
  exact hnever history s hrun hdead

end CurlHttpfs.Manager.EventLoop
