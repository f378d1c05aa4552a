import CurlHttpfs.Lib.Followed
import CurlHttpfs.Client.Routing

/-!
# The wire request of a call

The method and payload options outlive the call that set them. What a call
sends is decided by three facts about the calls before it, each of which is a
condition on their kinds alone. From these the calls that send what a fresh
client would send are read off.
-/

namespace CurlHttpfs.Client

open Http Curl

/-! ## What earlier calls leave behind -/

/-- No earlier call installed a custom request. -/
def NoOverride (earlier : List Kind) : Prop := ∀ kind ∈ earlier, kind ≠ .put ∧ kind ≠ .delete

/-- Every earlier `Head` is followed by a `Get` or `Post`, which read the body again. -/
def BodyRestored (earlier : List Kind) : Prop :=
  Followed (· = Kind.head) (fun kind => kind = .get ∨ kind = .post) earlier

/-- Every earlier upload is followed by a `Head`, the one call that moves the
method away from POST. -/
def MethodRestored (earlier : List Kind) : Prop :=
  Followed (fun kind => kind = Kind.put ∨ kind = .post) (· = .head) earlier

/-- The method options of a handle after calls of the given kinds. -/
structure Leftover (earlier : List Kind) (easy : Easy) : Prop where
  /-- Only two custom requests are ever installed. -/
  custom : easy.customRequest = none ∨ easy.customRequest = some "PUT".toList ∨
    easy.customRequest = some "DELETE".toList
  /-- A custom request stays for good. -/
  override : easy.customRequest = none ↔ NoOverride earlier
  /-- Only post fields select POST here. -/
  payload : easy.method = .post → easy.postFields ≠ none
  /-- The body switch follows the last call that touches it. -/
  body : easy.noBody = false ↔ BodyRestored earlier
  /-- The method follows the last call that moves it. -/
  method : easy.method ≠ .post ↔ MethodRestored earlier

theorem noOverride_concat (earlier : List Kind) (kind : Kind) :
    NoOverride (earlier ++ [kind]) ↔ NoOverride earlier ∧ kind ≠ .put ∧ kind ≠ .delete := by
  unfold NoOverride
  rw [List.forall_mem_append, List.forall_mem_singleton]

theorem bodyRestored_concat (earlier : List Kind) (kind : Kind) :
    BodyRestored (earlier ++ [kind]) ↔
      (BodyRestored earlier ∨ kind = .get ∨ kind = .post) ∧ kind ≠ .head :=
  followed_concat earlier kind

theorem methodRestored_concat (earlier : List Kind) (kind : Kind) :
    MethodRestored (earlier ++ [kind]) ↔
      (MethodRestored earlier ∨ kind = .head) ∧ ¬(kind = .put ∨ kind = .post) :=
  followed_concat earlier kind

/-- Calls of the other kinds install no custom request. -/
theorem noOverride_keep {earlier : List Kind} {kind : Kind} (hkind : kind ≠ .put ∧ kind ≠ .delete) :
    NoOverride (earlier ++ [kind]) ↔ NoOverride earlier := by
  rw [noOverride_concat]
  exact ⟨And.left, fun hn => ⟨hn, hkind⟩⟩

/-- Calls of the other kinds leave the body switch alone. -/
theorem bodyRestored_keep {earlier : List Kind} {kind : Kind} (hgives : ¬(kind = .get ∨ kind = .post))
    (hneeds : kind ≠ .head) : BodyRestored (earlier ++ [kind]) ↔ BodyRestored earlier := by
  rw [bodyRestored_concat]
  exact ⟨fun hb => hb.1.resolve_right hgives, fun hb => ⟨.inl hb, hneeds⟩⟩

/-- Calls of the other kinds neither select POST nor leave it. -/
theorem methodRestored_keep {earlier : List Kind} {kind : Kind} (hgives : kind ≠ .head)
    (hneeds : ¬(kind = .put ∨ kind = .post)) :
    MethodRestored (earlier ++ [kind]) ↔ MethodRestored earlier := by
  rw [methodRestored_concat]
  exact ⟨fun hm => hm.1.resolve_right hgives, fun hm => ⟨.inl hm, hneeds⟩⟩

/-- Header lists do not touch the method options. -/
theorem setHeaders_leftover {earlier : List Kind} {easy : Easy} (headers : Option SList)
    (h : Leftover earlier easy) : Leftover earlier (CurlRequest.setHeaders headers easy) := by
  rw [CurlRequest.setHeaders_eq]
  exact ⟨h.custom, h.override, h.payload, h.body, h.method⟩

/-- Creating a request and setting its URL does not touch the method options. -/
theorem install_leftover {earlier : List Kind} {easy : Easy} (object : ObjectId) (url : Str)
    (h : Leftover earlier easy) :
    Leftover earlier (CurlRequest.setUrlOption url (CurlRequest.install object easy)) :=
  ⟨h.custom, h.override, h.payload, h.body, h.method⟩

/-- `SetGetAttrs` restores the body and turns a HEAD back into GET. -/
theorem setGetAttrs_leftover {earlier : List Kind} {easy : Easy} (h : Leftover earlier easy) :
    Leftover (earlier ++ [.get]) (CurlRequest.setGetAttrs easy) where
  custom := h.custom
  override := h.override.trans (noOverride_keep (by decide)).symm
  payload hpost := h.payload ((setNoBody_false_post easy).mp hpost)
  body := by
    rw [bodyRestored_concat]
    exact ⟨fun _ => ⟨.inr (.inl rfl), by decide⟩, fun _ => rfl⟩
  method := by
    have hmethod := not_congr (setNoBody_false_post easy)
    exact hmethod.trans (h.method.trans (methodRestored_keep (by decide) (by decide)).symm)

/-- `SetHeadAttrs` switches the body off and selects HEAD. -/
theorem setHeadAttrs_leftover {earlier : List Kind} {easy : Easy} (h : Leftover earlier easy) :
    Leftover (earlier ++ [.head]) (CurlRequest.setHeadAttrs easy) where
  custom := h.custom
  override := h.override.trans (noOverride_keep (by decide)).symm
  payload hpost := by cases hpost
  body := by
    rw [bodyRestored_concat]
    exact ⟨nofun, fun hb => absurd rfl hb.2⟩
  method := by
    rw [methodRestored_concat]
    exact ⟨fun _ => ⟨.inr rfl, by decide⟩, fun _ => nofun⟩

/-- The options of `Put` stay behind as custom request, post fields and method. -/
theorem putOptions_leftover {earlier : List Kind} {easy : Easy} (fields : Str)
    (h : Leftover earlier easy) :
    Leftover (earlier ++ [.put])
      ({ easy with customRequest := some "PUT".toList }.setPostFields fields) where
  custom := .inr (.inl rfl)
  override := by
    rw [noOverride_concat]
    exact ⟨nofun, fun hn => absurd rfl hn.2.1⟩
  payload _ := Option.some_ne_none fields
  body := h.body.trans (bodyRestored_keep (by decide) (by decide)).symm
  method := by
    rw [methodRestored_concat]
    exact ⟨fun hm => absurd rfl hm, fun hm => absurd (.inl rfl) hm.2⟩

/-- The options of `Delete` stay behind as custom request. -/
theorem deleteOptions_leftover {earlier : List Kind} {easy : Easy} (h : Leftover earlier easy) :
    Leftover (earlier ++ [.delete])
      { easy with customRequest := some "DELETE".toList, followLocation := true } where
  custom := .inr (.inr rfl)
  override := by
    rw [noOverride_concat]
    exact ⟨nofun, fun hn => absurd rfl hn.2.2⟩
  payload := h.payload
  body := h.body.trans (bodyRestored_keep (by decide) (by decide)).symm
  method := h.method.trans (methodRestored_keep (by decide) (by decide)).symm

/-- The options of `Post` stay behind as post fields and method. -/
theorem postOptions_leftover {earlier : List Kind} {easy : Easy} (fields : Str)
    (h : Leftover earlier easy) :
    Leftover (earlier ++ [.post]) (easy.setPost.setPostFields fields) where
  custom := h.custom
  override := h.override.trans (noOverride_keep (by decide)).symm
  payload _ := Option.some_ne_none fields
  body := by
    rw [bodyRestored_concat]
    exact ⟨fun _ => ⟨.inr (.inr rfl), by decide⟩, fun _ => rfl⟩
  method := by
    rw [methodRestored_concat]
    exact ⟨fun hm => absurd rfl hm, fun hm => absurd (.inr rfl) hm.2⟩

/-! ## What a call sends -/

/-- The earlier calls after which a call of the given kind sends what it
would send on a fresh client. -/
def SendsItself (earlier : List Kind) : Kind → Prop
  | .get => NoOverride earlier ∧ MethodRestored earlier
  | .head => NoOverride earlier
  | .put => BodyRestored earlier
  | .delete => MethodRestored earlier ∧ BodyRestored earlier
  | .post => NoOverride earlier

/-- A custom request is one of two verbs or absent, so it is absent as soon as
the verb sent is a third one. -/
theorem Leftover.getD_iff {earlier : List Kind} {easy : Easy} (h : Leftover earlier easy)
    {verb other : Str} (hput : "PUT".toList ≠ verb) (hdelete : "DELETE".toList ≠ verb) :
    easy.customRequest.getD other = verb ↔ NoOverride earlier ∧ other = verb := by
  rw [← h.override]
  rcases h.custom with hc | hc | hc
  · rw [hc, Option.getD_none]
    exact ⟨fun he => ⟨rfl, he⟩, And.right⟩
  · rw [hc, Option.getD_some]
    exact ⟨fun he => absurd he hput, fun he => nomatch he.1⟩
  · rw [hc, Option.getD_some]
    exact ⟨fun he => absurd he hdelete, fun he => nomatch he.1⟩

/-- A `Get` sends itself exactly without an override and with a method other than POST. -/
theorem wire_get_iff {earlier : List Kind} {easy : Easy} (h : Leftover earlier easy) :
    (CurlRequest.setGetAttrs easy).wire = ⟨"GET".toList, none, true⟩ ↔
      NoOverride earlier ∧ MethodRestored earlier := by
  have hmethod : (CurlRequest.setGetAttrs easy).method = .post ↔ easy.method = .post :=
    setNoBody_false_post easy
  simp only [Easy.wire, WireRequest.mk.injEq, hmethod]
  change easy.customRequest.getD (if easy.method = .post then "POST".toList else "GET".toList) = _ ∧
    (if easy.method = .post ∧ false = false then _ else none) = none ∧ _ ↔ _
  rw [h.getD_iff (by decide) (by decide), ← h.method]
  by_cases hp : easy.method = .post
  · rw [if_pos hp]
    exact ⟨fun he => absurd he.1.2 (by decide), fun he => absurd hp he.2⟩
  · constructor
    · intro he
      exact ⟨he.1.1, hp⟩
    · intro he
      exact ⟨⟨he.1, if_neg hp⟩, if_neg fun hboth => hp hboth.1, rfl⟩

/-- A `Head` sends itself exactly without an override. -/
theorem wire_head_iff {earlier : List Kind} {easy : Easy} (h : Leftover earlier easy) :
    (CurlRequest.setHeadAttrs easy).wire = ⟨"HEAD".toList, none, false⟩ ↔ NoOverride earlier := by
  simp only [Easy.wire, WireRequest.mk.injEq]
  change easy.customRequest.getD "HEAD".toList = _ ∧ _ ↔ _
  rw [h.getD_iff (by decide) (by decide)]
  exact ⟨fun he => he.1.1, fun he => ⟨⟨he, rfl⟩, rfl, rfl⟩⟩

/-- Whether the body is read is the only thing `Put` leaves to earlier calls. -/
theorem wire_put_iff {earlier : List Kind} {easy : Easy} (fields : Str) (h : Leftover earlier easy) :
    ({ easy with customRequest := some "PUT".toList }.setPostFields fields).wire =
      ⟨"PUT".toList, some fields, true⟩ ↔ BodyRestored earlier := by
  rw [← h.body]
  simp only [Easy.wire, WireRequest.mk.injEq, setPostFields_payload, setPostFields_method,
    setPostFields_customRequest, setPostFields_noBody, Option.getD_some, true_and, Bool.not_eq_true']
  exact ⟨And.right, fun hbody => ⟨if_pos hbody, hbody⟩⟩

/-- A `Delete` takes along earlier post fields while the method is still POST,
and an earlier body switch. -/
theorem wire_delete_iff {earlier : List Kind} {easy : Easy} (h : Leftover earlier easy) :
    Easy.wire { easy with customRequest := some "DELETE".toList, followLocation := true } =
      ⟨"DELETE".toList, none, true⟩ ↔ MethodRestored earlier ∧ BodyRestored earlier := by
  rw [← h.method, ← h.body]
  simp only [Easy.wire, Easy.payload, WireRequest.mk.injEq, Option.getD_some, true_and, Bool.not_eq_true']
  refine and_congr_left fun hbody => ?_
  simp only [hbody, and_true]
  by_cases hp : easy.method = .post
  · rw [if_pos hp, Option.map_eq_none_iff]
    exact iff_of_false (h.payload hp) (not_not_intro hp)
  · rw [if_neg hp]
    exact iff_of_true rfl hp

/-- A `Post` sends itself exactly without an override. -/
theorem wire_post_iff {earlier : List Kind} {easy : Easy} (fields : Str) (h : Leftover earlier easy) :
    (easy.setPost.setPostFields fields).wire = ⟨"POST".toList, some fields, true⟩ ↔
      NoOverride earlier := by
  simp only [Easy.wire, WireRequest.mk.injEq, setPostFields_payload, setPostFields_method,
    setPostFields_customRequest, setPostFields_noBody, setPost_customRequest, setPost_noBody, and_self,
    if_true, Bool.not_false, and_true, Bool.false_eq_true, if_false]
  rw [h.getD_iff (by decide) (by decide)]
  exact ⟨And.left, fun hn => ⟨hn, rfl⟩⟩

/-! ## Sequences of calls -/

section

variable [HeaderMap]

/-- A new client has nothing left over. -/
theorem leftover_init (fileExists : Str → Bool) (params : HTTPFSParams) :
    Leftover [] (initClient fileExists params).curl where
  custom := .inl rfl
  override := ⟨fun _ _ hk => absurd hk List.not_mem_nil, fun _ => rfl⟩
  payload hpost := by cases hpost
  body := ⟨fun _ => followed_nil, fun _ => rfl⟩
  method := ⟨fun _ => followed_nil, fun _ => nofun⟩

/-- The URL and the header list are not method options. -/
theorem startBlocking_leftover {earlier : List Kind} {client : MultiCurlClient} (url : Str)
    (lines : List Str) (options : Easy → Easy)
    (h : Leftover earlier (options { client.curl with url := url })) :
    Leftover earlier (startBlocking client url lines options).client.curl :=
  ⟨h.custom, h.override, h.payload, h.body, h.method⟩

/-- Each call moves the facts as its kind says. -/
theorem start_leftover {earlier : List Kind} {client : MultiCurlClient} (op : Operation)
    (h : Leftover earlier client.curl) :
    Leftover (earlier ++ [op.kind]) (start client op).client.curl := by
  have hurl (url : Str) : Leftover earlier { client.curl with url := url } :=
    ⟨h.custom, h.override, h.payload, h.body, h.method⟩
  cases op with
  | get info => exact setGetAttrs_leftover (setHeaders_leftover _ (install_leftover _ _ h))
  | head info => exact setHeadAttrs_leftover (setHeaders_leftover _ (install_leftover _ _ h))
  | put info => exact startBlocking_leftover _ _ _ (putOptions_leftover info.bufferIn (hurl info.url))
  | delete info => exact startBlocking_leftover _ _ _ (deleteOptions_leftover (hurl info.url))
  | post info => exact startBlocking_leftover _ _ _ (postOptions_leftover info.bufferIn (hurl info.url))

/-- What a call sends when only its own options count. -/
def Operation.ownWire : Operation → WireRequest
  | .get _ => ⟨"GET".toList, none, true⟩
  | .head _ => ⟨"HEAD".toList, none, false⟩
  | .put info => ⟨"PUT".toList, some info.bufferIn, true⟩
  | .delete _ => ⟨"DELETE".toList, none, true⟩
  | .post info => ⟨"POST".toList, some info.bufferIn, true⟩

/-- The URL and the header list do not reach the wire request. -/
theorem startBlocking_wire (client : MultiCurlClient) (url : Str) (lines : List Str)
    (options : Easy → Easy) :
    (startBlocking client url lines options).client.curl.wire =
      (options { client.curl with url := url }).wire := rfl

/-- A call sends itself exactly after the earlier calls its kind allows. -/
theorem start_wire_iff {earlier : List Kind} {client : MultiCurlClient} (op : Operation)
    (h : Leftover earlier client.curl) :
    (start client op).client.curl.wire = op.ownWire ↔ SendsItself earlier op.kind := by
  have hurl (url : Str) : Leftover earlier { client.curl with url := url } :=
    ⟨h.custom, h.override, h.payload, h.body, h.method⟩
  cases op with
  | get info => exact wire_get_iff (setHeaders_leftover _ (install_leftover _ _ h))
  | head info => exact wire_head_iff (setHeaders_leftover _ (install_leftover _ _ h))
  | put info =>
    rw [start, startPut, startBlocking_wire]
    exact wire_put_iff info.bufferIn (hurl info.url)
  | delete info =>
    rw [start, startDelete, startBlocking_wire]
    exact wire_delete_iff (hurl info.url)
  | post info =>
    rw [start, startPost, startBlocking_wire]
    exact wire_post_iff info.bufferIn (hurl info.url)

/-- On a fresh client every call sends itself. -/
theorem start_init_wire (fileExists : Str → Bool) (params : HTTPFSParams) (op : Operation) :
    (start (initClient fileExists params) op).client.curl.wire = op.ownWire := by
  rw [start_wire_iff op (leftover_init fileExists params)]
  have hnone {P : Kind → Prop} : ∀ kind ∈ ([] : List Kind), P kind :=
    fun _ hk => absurd hk List.not_mem_nil
  cases op with
  | get _ => exact ⟨hnone, followed_nil⟩
  | head _ | post _ => exact hnone
  | put _ => exact followed_nil
  | delete _ => exact ⟨followed_nil, followed_nil⟩

/-- The kinds of calls, in order. -/
def kinds (calls : List Call) : List Kind := calls.map fun call => call.op.kind

/-- In every sequence of calls on one initialized client, a started call
sends the wire request a freshly initialized client would send for it, its
own verb with exactly its own payload, if and only if the kinds of the calls
before it allow it. -/
theorem run_wire_iff (lib : Library) (fileExists : Str → Bool) (params : HTTPFSParams)
    (calls : List Call) (i : Nat) (record : Record)
    (h : (run lib (initClient fileExists params) calls)[i]? = some record) :
    (start (initClient fileExists params) record.call.op).client.curl.wire = record.call.op.ownWire ∧
    (record.started.client.curl.wire =
        (start (initClient fileExists params) record.call.op).client.curl.wire ↔
      SendsItself (kinds (calls.take i)) record.call.op.kind) := by
  have hkeep (earlier : List Call) (client : MultiCurlClient) (call : Call) (next : MultiCurlClient)
      (answer : Answer) (hI : Leftover (kinds earlier) client.curl)
      (hc : complete lib (start client call.op) call.op call.outcome = .ok (next, answer)) :
      Leftover (kinds (earlier ++ [call])) next.curl := by
    rw [(complete_options hc).1, kinds, List.map_append]
    exact start_leftover call.op hI
  obtain ⟨before, hleft, hstarted, -⟩ := run_history
    (I := fun earlier client => Leftover (kinds earlier) client.curl) hkeep []
    (leftover_init fileExists params) h
  have hfresh := start_init_wire fileExists params record.call.op
  refine ⟨hfresh, ?_⟩
  rw [hfresh, hstarted]
  exact start_wire_iff record.call.op hleft

end

/-- An upload that is looked at and read before it is deleted. -/
def uploadThenDelete : List Call :=
  [⟨.post { url := "http://h/a".toList, bufferIn := "new".toList }, succeeds "ok".toList⟩,
    ⟨.head { url := "http://h/a".toList }, succeeds []⟩,
    ⟨.get { url := "http://h/a".toList }, succeeds "data".toList⟩,
    ⟨.delete { url := "http://h/a".toList }, succeeds "gone".toList⟩]

/-- Its `Delete` has no body, since `Head` and `Get` have moved the method away from POST. -/
theorem run_wire_restored :
    ∃ record, (run .common plainClient uploadThenDelete)[3]? = some record ∧
      SendsItself [.post, .head, .get] .delete ∧
      record.started.client.curl.wire = ⟨"DELETE".toList, none, true⟩ := by
  have hwire := run_wire_iff .common (fun _ => false) {} uploadThenDelete 3 _ rfl
  have hmethod : MethodRestored ([] ++ [.post] ++ [.head] ++ [.get]) := by
    rw [methodRestored_concat, methodRestored_concat]
    exact ⟨.inl ⟨.inr rfl, by decide⟩, by decide⟩
  have hbody : BodyRestored ([] ++ [.post] ++ [.head] ++ [.get]) := by
    rw [bodyRestored_concat]
    exact ⟨.inr (.inl rfl), by decide⟩
  exact ⟨_, rfl, ⟨hmethod, hbody⟩, (hwire.2.mpr ⟨hmethod, hbody⟩).trans hwire.1⟩

/-- A `Get` behind a `Put` uploads the old payload once more. -/
theorem run_get_after_put :
    ∃ record, (run .common plainClient
        [⟨.put { url := "http://h/a".toList, bufferIn := "new".toList, contentType := "text/plain".toList },
            succeeds "ok".toList⟩,
          ⟨.get { url := "http://h/b".toList }, succeeds "data".toList⟩])[1]? = some record ∧
      record.started.client.curl.wire = ⟨"PUT".toList, some "new".toList, true⟩ ∧
      record.started.client.curl.wire ≠ (start plainClient record.call.op).client.curl.wire := by
  refine ⟨_, rfl, rfl, ?_⟩
  decide

end CurlHttpfs.Client
