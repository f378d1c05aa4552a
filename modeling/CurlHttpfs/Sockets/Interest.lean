import CurlHttpfs.Curl.Request
import CurlHttpfs.Lib.Readiness
import CurlHttpfs.Lib.Throughout

/-!
# What libcurl asks of its sockets

libcurl tells `SocketCallback` for each of its sockets which events it wants
to hear of, and takes the request back before it closes the socket. The last
request of every socket is a function of the calls so far.
-/

namespace CurlHttpfs.Sockets

open Curl Kernel

/-- The `what` of a `SocketCallback`: the four values that libcurl passes. -/
inductive Poll where
  /-- `CURL_POLL_IN`. -/
  | pollIn
  /-- `CURL_POLL_OUT`. -/
  | pollOut
  /-- `CURL_POLL_INOUT`. -/
  | pollInOut
  /-- `CURL_POLL_REMOVE`. -/
  | pollRemove
  deriving DecidableEq

/-- `act & CURL_POLL_IN`. -/
def Poll.hasIn : Poll → Bool
  | .pollIn | .pollInOut => true
  | .pollOut | .pollRemove => false

/-- `act & CURL_POLL_OUT`. -/
def Poll.hasOut : Poll → Bool
  | .pollOut | .pollInOut => true
  | .pollIn | .pollRemove => false

/-- Whether an action includes the events of a filter. -/
def Poll.has (what : Poll) : Filter → Bool
  | .read => what.hasIn
  | .write => what.hasOut

/-- The `epoll` mask of an action. -/
def Poll.kind (what : Poll) : EpollMask := ⟨what.hasIn, what.hasOut⟩

theorem Poll.kind_has (what : Poll) (f : Filter) : what.kind.has f = what.has f := by
  cases f with
  | read => rfl
  | write => rfl

/-- Actions other than a removal ask for some event. -/
theorem Poll.exists_has {what : Poll} (h : what ≠ .pollRemove) : ∃ f, what.has f = true := by
  cases what with
  | pollIn => exact ⟨.read, rfl⟩
  | pollOut => exact ⟨.write, rfl⟩
  | pollInOut => exact ⟨.read, rfl⟩
  | pollRemove => exact absurd rfl h

/-- Actions other than a removal are told apart by their events. -/
theorem Poll.kind_inj {a b : Poll} (ha : a ≠ .pollRemove) (hb : b ≠ .pollRemove) :
    a.kind = b.kind ↔ a = b := by
  cases a <;> cases b <;> first | exact absurd rfl ha | exact absurd rfl hb | decide

/-- The request that an action leaves in force. -/
def Poll.standing (what : Poll) : Option Poll := if what = .pollRemove then none else some what

theorem Poll.standing_of_ne {what : Poll} (h : what ≠ .pollRemove) : what.standing = some what := if_neg h

/-- What the program keeps about a socket of libcurl. -/
structure SockInfo where
  /-- The descriptor, zero until it is set. -/
  sockfd : Nat := 0
  /-- The handle that uses the socket. -/
  easy : Option CURL := none
  /-- The last action. -/
  action : Option Poll := none

/-- An object that libcurl passes for a socket was left by a request. -/
theorem object_last {f : SockInfo} {last : Option Poll} {s : Nat}
    (h : (some f).map SockInfo.sockfd = last.map fun _ => s) :
    f.sockfd = s ∧ ∃ before, last = some before := by
  cases last with
  | none => cases h
  | some before => exact ⟨Option.some.inj h, before, rfl⟩

/-- What happens to sockets. -/
inductive Event where
  /-- libcurl calls `SocketCallback`. -/
  | call (easy : CURL) (s : Nat) (what : Poll)
  /-- libcurl closes a socket. -/
  | close (s : Nat)

/-- The descriptor of an event. -/
def Event.fd : Event → Nat
  | .call _ s _ => s
  | .close s => s

/-- The last request of every socket, nothing before the first and after a removal. -/
def noteEvent (last : Nat → Option Poll) : Event → Nat → Option Poll
  | .call _ s what => Function.update last s what.standing
  | .close _ => last

/-- The last request of every socket behind a sequence of events. -/
def requested (events : List Event) : Nat → Option Poll := events.foldl noteEvent fun _ => none

/-- A socket is kept open until its removal. -/
def KeptOpen (events : List Event) : Prop :=
  Throughout (fun earlier event => ∀ s, event = .close s → requested earlier s = none) events

/-- A call closes nothing. -/
theorem call_keeps (earlier : List Event) (easy : CURL) (s : Nat) (what : Poll) (fd : Nat)
    (h : Event.call easy s what = .close fd) : requested earlier fd = none := by
  cases h

theorem requested_concat (events : List Event) (event : Event) :
    requested (events ++ [event]) = noteEvent (requested events) event := by
  simp only [requested, List.foldl_append, List.foldl_cons, List.foldl_nil]

/-- An event changes the request of its own descriptor only. -/
theorem noteEvent_other (last : Nat → Option Poll) {event : Event} {fd : Nat} (h : fd ≠ event.fd) :
    noteEvent last event fd = last fd := by
  cases event with
  | call easy s what => exact Function.update_of_ne h _ _
  | close s => rfl

/-- Events about other descriptors leave a request as it is. -/
theorem requested_undisturbed (events later : List Event) {fd : Nat}
    (h : ∀ event ∈ later, event.fd ≠ fd) : requested (events ++ later) fd = requested events fd := by
  induction later using List.reverseRecOn with
  | nil => rw [List.append_nil]
  | append_singleton later event ih =>
    have hlast : fd ≠ event.fd := (h event (List.mem_append_right _ (List.mem_singleton_self _))).symm
    rw [← List.append_assoc, requested_concat, noteEvent_other _ hlast]
    exact ih fun e he => h e (List.mem_append_left _ he)

/-- A request that is in force is not a removal. -/
theorem requested_ne_remove (events : List Event) (fd : Nat) : requested events fd ≠ some .pollRemove := by
  induction events using List.reverseRecOn with
  | nil => exact (Option.some_ne_none _).symm
  | append_singleton events event ih =>
    rw [requested_concat]
    cases event with
    | call easy s what =>
      by_cases hfd : fd = s
      · subst hfd
        rw [noteEvent, Function.update_self]
        cases what <;> decide
      · rw [noteEvent, Function.update_of_ne hfd]
        exact ih
    | close s => exact ih

end CurlHttpfs.Sockets
