import AnyServer.HttpServer

/-!
# Request Bodies of Interleaved Connections

A request arrives as `LWS_CALLBACK_HTTP`, then any number of `LWS_CALLBACK_HTTP_BODY`
fragments, then `LWS_CALLBACK_HTTP_BODY_COMPLETION`, at which `__callback_http__` reports
the body. The fragments are collected in `req_body`, one `static string` for all
connections, so what is reported depends on how the callbacks of different connections
interleave.

`requestFragments p` collects the fragments of the callbacks selected by `p` since the
last selected `LWS_CALLBACK_HTTP`. With everything selected it is what `req_body` holds
(`req_body_eq`); with one connection selected it is what that connection sent for its
current request (`ownBody`).

The exact condition under which the two agree is a condition on the order of callbacks.
Inside a connection's request (`IsRequest`) nothing may disturb it (`Undisturbed`): a
fragment of another connection must be wiped again by a later `LWS_CALLBACK_HTTP`, and no
`LWS_CALLBACK_HTTP` of another connection may come once the request has fragments of its
own. `order` blanks the contents of the fragments, so that conditions on `order cbs` are
conditions on the order alone.

## Main results

* `fragments_of_undisturbed` / `undisturbed_of_fragments`: inside one request the
  collected fragments are the connection's own exactly when the request is undisturbed, up
  to the contents of the fragments.
* `bodies_own_iff_separated`: an order of callbacks reports every body correctly, whatever
  the fragments contain, exactly when it leaves every request undisturbed.
-/

namespace AnyServer

open Lts

/-- Whether the callback delivers a fragment. -/
def HttpReason.isBody : HttpReason → Bool
  | .httpBody _ => true
  | _ => false

/-- The fragment that a callback delivers. -/
def HttpCallback.fragment (cb : HttpCallback) : Bytes :=
  match cb.reason with
  | .httpBody body => body
  | _ => []

/-- The fragments of the callbacks selected by `p`, since the last `LWS_CALLBACK_HTTP`
selected by `p`. -/
def requestFragments (p : HttpCallback → Bool) (cbs : List HttpCallback) :
    List HttpCallback :=
  cbs.foldl
    (fun acc cb =>
      if p cb then
        match cb.reason with
        | .http => []
        | .httpBody _ => acc ++ [cb]
        | _ => acc
      else acc) []

/-- What the connection `wsi` sent for its current request. -/
def ownBody (wsi : ℕ) (cbs : List HttpCallback) : Bytes :=
  (requestFragments (fun cb => cb.wsi == wsi) cbs).flatMap HttpCallback.fragment

/-- Every body reported along `cbs` is what its own connection sent for the request; its
length goes along as an `unsigned int`. -/
def BodiesOwn (s₀ : HttpTcpServer) (cbs : List HttpCallback) : Prop :=
  ∀ pre cb post, cbs = pre ++ cb :: post → cb.reason = .httpBodyCompletion →
    ∀ os s s' server_id client_id msg msg_len, Run HttpTcpServer.Step s₀ pre os s →
      HttpTcpServer.Step s cb s' [.onReceive server_id client_id msg msg_len] →
      msg = ownBody cb.wsi pre ∧ msg_len = msg.length % 2 ^ 32

/-! ### Conditions on the order of callbacks -/

/-- A callback with the contents of its fragment blanked. -/
def HttpCallback.shape (cb : HttpCallback) : HttpCallback :=
  match cb.reason with
  | .httpBody _ => { cb with reason := .httpBody [] }
  | _ => cb

/-- The order of callbacks, without the contents of fragments. -/
def order (cbs : List HttpCallback) : List HttpCallback :=
  cbs.map HttpCallback.shape

/-- Whether the connection `wsi` has a request that is not completed. -/
def inRequest (wsi : ℕ) (cbs : List HttpCallback) : Bool :=
  cbs.foldl
    (fun b cb =>
      if cb.wsi = wsi then
        match cb.reason with
        | .http => true
        | .httpBodyCompletion => false
        | _ => b
      else b) false

/-- The callbacks of each connection come as requests: `LWS_CALLBACK_HTTP`, fragments,
`LWS_CALLBACK_HTTP_BODY_COMPLETION`, and again. -/
def WellOrdered (cbs : List HttpCallback) : Prop :=
  ∀ pre cb post, cbs = pre ++ cb :: post →
    (cb.reason = .http → inRequest cb.wsi pre = false) ∧
    (cb.reason.isBody = true ∨ cb.reason = .httpBodyCompletion →
      inRequest cb.wsi pre = true)

/-- `mid` is what arrives between the `LWS_CALLBACK_HTTP` `start` of a connection and the
completion `fin` of that request. -/
def IsRequest (cbs : List HttpCallback) (start : HttpCallback) (mid : List HttpCallback)
    (fin : HttpCallback) : Prop :=
  (∃ pre post, cbs = pre ++ start :: mid ++ fin :: post) ∧
    start.reason = .http ∧ fin.reason = .httpBodyCompletion ∧ fin.wsi = start.wsi ∧
    ∀ cb ∈ mid, cb.wsi = start.wsi → cb.reason ≠ .http

/-- What may arrive from other connections inside a request of `wsi`: a fragment only if a
later `LWS_CALLBACK_HTTP` of some connection comes within the request, and an
`LWS_CALLBACK_HTTP` only before the first fragment of `wsi` itself. -/
def Undisturbed (wsi : ℕ) (mid : List HttpCallback) : Prop :=
  ∀ m₁ e m₂, mid = m₁ ++ e :: m₂ → e.wsi ≠ wsi →
    (e.reason.isBody = true → ∃ h ∈ m₂, h.reason = .http) ∧
    (e.reason = .http → ∀ b ∈ m₁, b.wsi = wsi → b.reason.isBody = false)

/-- Every completed request is undisturbed. -/
def Separated (cbs : List HttpCallback) : Prop :=
  ∀ start mid fin, IsRequest cbs start mid fin → Undisturbed start.wsi mid

/-! ### What `req_body` holds -/

section Fragments

variable {p : HttpCallback → Bool} {cbs pre mid : List HttpCallback} {cb start : HttpCallback}

/-- The next callback starts the body anew, adds to it, or leaves it. -/
theorem requestFragments_concat :
    requestFragments p (cbs ++ [cb]) =
      if p cb then
        match cb.reason with
        | .http => []
        | .httpBody _ => requestFragments p cbs ++ [cb]
        | _ => requestFragments p cbs
      else requestFragments p cbs := by
  simp [requestFragments]

/-- A callback that carries no fragment and starts no request leaves the fragments. -/
theorem requestFragments_concat_other (hh : cb.reason ≠ .http)
    (hb : cb.reason.isBody = false) :
    requestFragments p (cbs ++ [cb]) = requestFragments p cbs := by
  rw [requestFragments_concat]
  cases hr : cb.reason with
  | http => exact absurd hr hh
  | httpBody b => simp [hr, HttpReason.isBody] at hb
  | _ => simp

/-- From a selected `LWS_CALLBACK_HTTP` on, as long as no other is selected, exactly the
selected fragments are collected. -/
theorem requestFragments_window (hstart : start.reason = .http) (hp : p start = true)
    (hmid : ∀ cb ∈ mid, p cb = true → cb.reason ≠ .http) :
    requestFragments p (pre ++ start :: mid) =
      mid.filter fun cb => p cb && cb.reason.isBody := by
  induction mid using List.reverseRecOn with
  | nil => simp [requestFragments_concat, hstart, hp]
  | append_singleton mid cb ih =>
      have ih := ih fun c hc => hmid c (by simp [hc])
      have hcb := hmid cb (by simp)
      rw [← List.cons_append, ← List.append_assoc, requestFragments_concat, ih,
        List.filter_append]
      by_cases hpc : p cb = true
      · cases hr : cb.reason with
        | http => exact absurd hr (hcb hpc)
        | _ => simp [hpc, hr, HttpReason.isBody]
      · simp [hpc]

/-- `req_body` is what all connections together have sent since the last
`LWS_CALLBACK_HTTP` of any of them. -/
theorem req_body_eq {s₀ s : HttpTcpServer} {os : List Notification}
    (hg : s₀.handles = true) (hb : s₀.req_body = [])
    (h : Run HttpTcpServer.Step s₀ cbs os s) :
    s.req_body = (requestFragments (fun _ => true) cbs).flatMap HttpCallback.fragment := by
  induction h with
  | start => simp [hb, requestFragments]
  | @step cbs os s cb s' o hrun ht ih =>
      have hgs : s.handles = true := (HttpTcpServer.handles_run hrun).trans hg
      cases callbackHttp_effect hgs ht.2 with
      | connected id hr =>
          rw [requestFragments_concat_other (by simp [hr]) (by simp [hr, HttpReason.isBody])]
          exact ih
      | closed hr =>
          rw [requestFragments_concat_other]
          · exact ih
          · intro hh; simp [hh, HttpReason.isClose] at hr
          · cases hc : cb.reason <;> simp_all [HttpReason.isClose, HttpReason.isBody]
      | request hr => simp [requestFragments_concat, hr]
      | body b hr => simp [requestFragments_concat, hr, ih, HttpCallback.fragment]
      | completion client hr hc =>
          rw [requestFragments_concat_other (by simp [hr]) (by simp [hr, HttpReason.isBody])]
          exact ih
      | silent hr =>
          rw [requestFragments_concat_other]
          · exact ih
          · rcases hr with hr | hr | hr | ⟨n, hr⟩ <;> simp [hr]
          · rcases hr with hr | hr | hr | ⟨n, hr⟩ <;> simp [hr, HttpReason.isBody]

end Fragments

/-! ### Inside one request -/

section Request

variable {wsi : ℕ} {pre mid : List HttpCallback} {start : HttpCallback}

/-- The last `LWS_CALLBACK_HTTP` from `start` on. -/
theorem exists_last_http (hstart : start.reason = .http) (mid : List HttpCallback) :
    ∃ a h b, start :: mid = a ++ h :: b ∧ h.reason = .http ∧
      ∀ cb ∈ b, cb.reason ≠ .http := by
  induction mid using List.reverseRecOn with
  | nil => exact ⟨[], start, [], rfl, hstart, by simp⟩
  | append_singleton mid cb ih =>
      by_cases hcb : cb.reason = .http
      · exact ⟨start :: mid, cb, [], rfl, hcb, by simp⟩
      · obtain ⟨a, h, b, heq, hh, hb⟩ := ih
        refine ⟨a, h, b ++ [cb], ?_, hh, ?_⟩
        · rw [← List.cons_append, heq]
          simp
        · intro c hc
          rcases List.mem_append.mp hc with hc | hc
          · exact hb c hc
          · rw [List.mem_singleton.mp hc]
            exact hcb

/-- A request of `wsi` with the last `LWS_CALLBACK_HTTP` in it: either that is its own
start, or it belongs to another connection and splits the request. What all connections
sent since is what follows it. -/
theorem request_cases (hstart : start.reason = .http)
    (hmid : ∀ cb ∈ mid, cb.wsi = wsi → cb.reason ≠ .http) :
    ∃ b, requestFragments (fun _ => true) (pre ++ start :: mid) =
        b.filter (fun cb => cb.reason.isBody) ∧ (∀ cb ∈ b, cb.reason ≠ .http) ∧
      (mid = b ∨ ∃ a h, mid = a ++ h :: b ∧ h.reason = .http ∧ h.wsi ≠ wsi) := by
  obtain ⟨a, h, b, heq, hh, hb⟩ := exists_last_http hstart mid
  refine ⟨b, ?_, hb, ?_⟩
  · rw [heq, ← List.append_assoc,
      requestFragments_window hh rfl fun cb hcb _ => hb cb hcb]
    simp
  · cases a with
    | nil =>
        obtain ⟨-, rfl⟩ := List.cons.inj heq
        exact .inl rfl
    | cons x a =>
        obtain ⟨-, rfl⟩ := List.cons.inj heq
        exact .inr ⟨a, h, rfl, hh, fun hw => hmid h (by simp) hw hh⟩

/-- The fragments of the connection itself in its current request. -/
theorem own_fragments (hstart : start.reason = .http) (hwsi : start.wsi = wsi)
    (hmid : ∀ cb ∈ mid, cb.wsi = wsi → cb.reason ≠ .http) :
    requestFragments (fun cb => cb.wsi == wsi) (pre ++ start :: mid) =
      mid.filter fun cb => cb.wsi == wsi && cb.reason.isBody :=
  requestFragments_window hstart (by simp [hwsi]) fun cb hcb hp => hmid cb hcb (by simpa using hp)

/-- **An undisturbed request is collected correctly**: everything collected since the last
`LWS_CALLBACK_HTTP` of anybody is what the connection itself sent for this request. -/
theorem fragments_of_undisturbed (hstart : start.reason = .http) (hwsi : start.wsi = wsi)
    (hmid : ∀ cb ∈ mid, cb.wsi = wsi → cb.reason ≠ .http) (hu : Undisturbed wsi mid) :
    requestFragments (fun _ => true) (pre ++ start :: mid) =
      requestFragments (fun cb => cb.wsi == wsi) (pre ++ start :: mid) := by
  obtain ⟨b, hall, hb, hcase⟩ := request_cases hstart hmid
  rw [hall, own_fragments hstart hwsi hmid]
  -- after the last `LWS_CALLBACK_HTTP` nothing can wipe a foreign fragment any more
  have hown : ∀ m₁, mid = m₁ ++ b →
      b.filter (fun cb => cb.reason.isBody) =
        b.filter fun cb => cb.wsi == wsi && cb.reason.isBody := by
    intro m₁ hm
    refine List.filter_congr fun cb hcb => ?_
    by_cases hw : cb.wsi = wsi
    · simp [hw]
    · have hbody : cb.reason.isBody = false := by
        by_contra hbody
        obtain ⟨b₁, b₂, rfl⟩ := List.append_of_mem hcb
        obtain ⟨h, hh, hhttp⟩ := (hu (m₁ ++ b₁) cb b₂ (by simp [hm]) hw).1
          (by simpa using hbody)
        exact hb h (by simp [hh]) hhttp
      simp [hbody]
  rcases hcase with rfl | ⟨a, h, rfl, hh, hw⟩
  · exact hown [] rfl
  · have ha : a.filter (fun cb => cb.wsi == wsi && cb.reason.isBody) = [] := by
      refine List.filter_eq_nil_iff.mpr fun cb hcb => ?_
      simp only [Bool.and_eq_true, beq_iff_eq, not_and, Bool.not_eq_true]
      exact (hu a h b rfl hw).2 hh cb hcb
    rw [hown (a ++ [h]) (by simp), List.filter_append, ha, List.filter_cons]
    simp [hh, HttpReason.isBody]

/-- Fragments that tell the connection `wsi` from all others: `0` for its own, `1` for
those of the others. -/
def Marked (wsi : ℕ) (cbs : List HttpCallback) : Prop :=
  ∀ cb ∈ cbs, cb.reason.isBody = true → cb.fragment = if cb.wsi = wsi then [0] else [1]

/-- The bytes of this connection are marked with zero. -/
theorem Marked.own_zero {cbs : List HttpCallback} (h : Marked wsi cbs) :
    ∀ x ∈ (cbs.filter fun cb => cb.wsi == wsi && cb.reason.isBody).flatMap
      HttpCallback.fragment, x = 0 := by
  intro x hx
  obtain ⟨cb, hcb, hx⟩ := List.mem_flatMap.mp hx
  obtain ⟨hmem, hp⟩ := List.mem_filter.mp hcb
  simp only [Bool.and_eq_true, beq_iff_eq] at hp
  rw [h cb hmem hp.2, if_pos hp.1] at hx
  simpa using hx

/-- Each marked callback brings one byte. -/
theorem Marked.length {cbs l : List HttpCallback} (h : Marked wsi cbs)
    (hl : ∀ cb ∈ l, cb ∈ cbs ∧ cb.reason.isBody = true) :
    (l.flatMap HttpCallback.fragment).length = l.length := by
  induction l with
  | nil => rfl
  | cons cb l ih =>
      obtain ⟨hmem, hbody⟩ := hl cb (by simp)
      have hlen : cb.fragment.length = 1 := by
        rw [h cb hmem hbody]
        split <;> rfl
      rw [List.flatMap_cons, List.length_append, ih fun c hc => hl c (by simp [hc]), hlen,
        List.length_cons, Nat.add_comm]

/-- After the last `LWS_CALLBACK_HTTP` only fragments of others disturb. -/
theorem undisturbed_of_own {b : List HttpCallback} (hb : ∀ cb ∈ b, cb.reason ≠ .http)
    (hown : ∀ cb ∈ b, cb.reason.isBody = true → cb.wsi = wsi) : Undisturbed wsi b := by
  intro m₁ e m₂ hm hew
  have he : e ∈ b := by simp [hm]
  exact ⟨fun hbody => absurd (hown e he hbody) hew, fun hhttp => absurd hhttp (hb e he)⟩

/-- The same with an `LWS_CALLBACK_HTTP` before which the connection has sent nothing. -/
theorem undisturbed_append {a b : List HttpCallback} {h : HttpCallback} (hh : h.reason = .http)
    (hb : ∀ cb ∈ b, cb.reason ≠ .http)
    (hown : ∀ cb ∈ b, cb.reason.isBody = true → cb.wsi = wsi)
    (hnone : ∀ cb ∈ a, cb.wsi = wsi → cb.reason.isBody = false) :
    Undisturbed wsi (a ++ h :: b) := by
  intro m₁ e m₂ hm hew
  rcases List.append_eq_append_iff.mp hm with ⟨as, rfl, has⟩ | ⟨bs, rfl, hbs⟩
  · cases as with
    | nil =>
        obtain ⟨rfl, rfl⟩ := List.cons.inj has
        exact ⟨fun hbody => by simp [hh, HttpReason.isBody] at hbody,
          fun _ c hc => hnone c (by simpa using hc)⟩
    | cons x as =>
        obtain ⟨-, hb₂⟩ := List.cons.inj has
        have he : e ∈ b := by simp [hb₂]
        exact ⟨fun hbody => absurd (hown e he hbody) hew, fun hhttp => absurd hhttp (hb e he)⟩
  · cases bs with
    | nil =>
        obtain ⟨rfl, rfl⟩ := List.cons.inj hbs
        exact ⟨fun hbody => by simp [hh, HttpReason.isBody] at hbody,
          fun _ c hc => hnone c (by simpa using hc)⟩
    | cons x bs =>
        obtain ⟨rfl, rfl⟩ := List.cons.inj hbs
        exact ⟨fun _ => ⟨h, by simp, hh⟩, fun _ c hc => hnone c (by simp [hc])⟩

/-- Counting: what the connection sent before the `LWS_CALLBACK_HTTP` is lost. -/
theorem Marked.nothing_before {a b : List HttpCallback} {h : HttpCallback}
    (hmark : Marked wsi (a ++ h :: b)) (hh : h.reason = .http)
    (hown : ∀ cb ∈ b, cb.reason.isBody = true → cb.wsi = wsi)
    (heq : (b.filter fun cb => cb.reason.isBody).flatMap HttpCallback.fragment =
      ((a ++ h :: b).filter fun cb => cb.wsi == wsi && cb.reason.isBody).flatMap
        HttpCallback.fragment) :
    ∀ cb ∈ a, cb.wsi = wsi → cb.reason.isBody = false := by
  have hlen := congrArg List.length heq
  rw [hmark.length (fun cb hcb => ?_), hmark.length (fun cb hcb => ?_)] at hlen
  · have hb' : b.filter (fun cb => cb.reason.isBody) =
        b.filter fun cb => cb.wsi == wsi && cb.reason.isBody := by
      refine List.filter_congr fun cb hcb => ?_
      by_cases hbody : cb.reason.isBody = true
      · simp [hown cb hcb hbody]
      · simp [hbody]
    rw [hb', List.filter_append, List.filter_cons] at hlen
    have hh' : (h.wsi == wsi && h.reason.isBody) = false := by simp [hh, HttpReason.isBody]
    simp only [hh', Bool.false_eq_true, if_false, List.length_append] at hlen
    have ha : a.filter (fun cb => cb.wsi == wsi && cb.reason.isBody) = [] :=
      List.length_eq_zero_iff.mp (by omega)
    intro cb hcb hcw
    have := List.filter_eq_nil_iff.mp ha cb hcb
    simpa [hcw] using this
  · simp only [List.mem_filter, Bool.and_eq_true] at hcb
    exact ⟨hcb.1, hcb.2.2⟩
  · simp only [List.mem_filter] at hcb
    exact ⟨by simp [hcb.1], hcb.2⟩

/-- **Only an undisturbed request is collected correctly**: if marked fragments come out
right, nothing disturbed the request. -/
theorem undisturbed_of_fragments (hstart : start.reason = .http) (hwsi : start.wsi = wsi)
    (hmid : ∀ cb ∈ mid, cb.wsi = wsi → cb.reason ≠ .http) (hmark : Marked wsi mid)
    (heq : (requestFragments (fun _ => true) (pre ++ start :: mid)).flatMap
        HttpCallback.fragment = ownBody wsi (pre ++ start :: mid)) :
    Undisturbed wsi mid := by
  obtain ⟨b, hall, hb, hcase⟩ := request_cases hstart hmid
  rw [hall, ownBody, own_fragments hstart hwsi hmid] at heq
  have hbmid : ∀ cb ∈ b, cb ∈ mid := by
    rcases hcase with rfl | ⟨a, h, rfl, -, -⟩
    · exact fun cb hcb => hcb
    · exact fun cb hcb => by simp [hcb]
  -- a foreign fragment after the last `LWS_CALLBACK_HTTP` would show up as a `1`
  have hown : ∀ cb ∈ b, cb.reason.isBody = true → cb.wsi = wsi := by
    intro cb hcb hbody
    by_contra hw
    have hone : (1 : UInt8) ∈ (b.filter fun cb => cb.reason.isBody).flatMap
        HttpCallback.fragment := by
      refine List.mem_flatMap.mpr ⟨cb, List.mem_filter.mpr ⟨hcb, hbody⟩, ?_⟩
      rw [hmark cb (hbmid cb hcb) hbody, if_neg hw]
      simp
    rw [heq] at hone
    exact absurd (hmark.own_zero 1 hone) (by decide)
  rcases hcase with rfl | ⟨a, h, rfl, hh, hw⟩
  · exact undisturbed_of_own hb hown
  · exact undisturbed_append hh hb hown (hmark.nothing_before hh hown heq)

end Request

/-! ### Whole runs -/

section Runs

variable {wsi : ℕ} {cbs cbs' pre : List HttpCallback} {os : List Notification}
  {s₀ s s' : HttpTcpServer}

/-- One more callback begins or completes a request, or leaves it. -/
theorem inRequest_concat (cb : HttpCallback) : inRequest wsi (cbs ++ [cb]) =
    if cb.wsi ≠ wsi then inRequest wsi cbs
    else if cb.reason = .http then true
    else if cb.reason = .httpBodyCompletion then false
    else inRequest wsi cbs := by
  rw [inRequest, List.foldl_concat, inRequest]
  by_cases hw : cb.wsi = wsi
  · rw [if_pos hw, if_neg (not_not.mpr hw)]
    cases cb.reason <;> rfl
  · rw [if_neg hw, if_pos hw]

/-- A connection inside a request has an `LWS_CALLBACK_HTTP` behind it and none since. -/
theorem exists_start_of_inRequest (h : inRequest wsi pre = true) :
    ∃ p start mid, pre = p ++ start :: mid ∧ start.wsi = wsi ∧ start.reason = .http ∧
      ∀ cb ∈ mid, cb.wsi = wsi → cb.reason ≠ .http := by
  induction pre using List.reverseRecOn with
  | nil => simp [inRequest] at h
  | append_singleton pre cb ih =>
      by_cases hhttp : cb.wsi = wsi ∧ cb.reason = .http
      · exact ⟨pre, cb, [], rfl, hhttp.1, hhttp.2, by simp⟩
      · have hin : inRequest wsi pre = true := by
          rw [inRequest_concat] at h
          split at h
          · exact h
          · next hw =>
            rw [if_neg fun hr => hhttp ⟨not_not.mp hw, hr⟩] at h
            split at h
            · cases h
            · exact h
        obtain ⟨p, start, mid, rfl, hsw, hs, hmid⟩ := ih hin
        refine ⟨p, start, mid ++ [cb], by simp, hsw, hs, ?_⟩
        intro c hc hcw hch
        rcases List.mem_append.mp hc with hc | hc
        · exact hmid c hc hcw hch
        · rw [List.mem_singleton.mp hc] at hcw hch
          exact hhttp ⟨hcw, hch⟩

/-- A rewriting of callbacks that keeps the connection and the kind of each. -/
structure KeepsKind (f : HttpCallback → HttpCallback) : Prop where
  wsi : ∀ cb, (f cb).wsi = cb.wsi
  http : ∀ cb, (f cb).reason = .http ↔ cb.reason = .http
  completion : ∀ cb, (f cb).reason = .httpBodyCompletion ↔ cb.reason = .httpBodyCompletion
  isBody : ∀ cb, (f cb).reason.isBody = cb.reason.isBody

/-- Emptying a body keeps what kind of callback it is. -/
theorem keepsKind_shape : KeepsKind HttpCallback.shape := by
  constructor <;> intro cb <;> cases hr : cb.reason <;>
    simp [HttpCallback.shape, hr, HttpReason.isBody]

/-- A callback whose fragment is replaced by the mark of its connection. -/
def HttpCallback.mark (wsi : ℕ) (cb : HttpCallback) : HttpCallback :=
  match cb.reason with
  | .httpBody _ => { cb with reason := .httpBody (if cb.wsi = wsi then [0] else [1]) }
  | _ => cb

/-- So does marking it. -/
theorem keepsKind_mark : KeepsKind (HttpCallback.mark wsi) := by
  constructor <;> intro cb <;> cases hr : cb.reason <;>
    simp [HttpCallback.mark, hr, HttpReason.isBody]

variable {f : HttpCallback → HttpCallback}

/-- Whether a connection is within a request depends only on the kinds of its callbacks. -/
theorem KeepsKind.inRequest (hf : KeepsKind f) :
    inRequest wsi (cbs.map f) = inRequest wsi cbs := by
  induction cbs using List.reverseRecOn with
  | nil => rfl
  | append_singleton cbs cb ih =>
      rw [List.map_append, List.map_singleton, inRequest_concat, inRequest_concat, ih]
      simp only [hf.wsi, hf.http, hf.completion]

/-- A request stays a request when its callbacks are rewritten. -/
theorem KeepsKind.isRequest (hf : KeepsKind f) {start fin : HttpCallback}
    {mid : List HttpCallback} (h : IsRequest cbs start mid fin) :
    IsRequest (cbs.map f) (f start) (mid.map f) (f fin) := by
  obtain ⟨⟨pre, post, rfl⟩, hs, hfin, hw, hmid⟩ := h
  refine ⟨⟨pre.map f, post.map f, by simp⟩, (hf.http _).mpr hs, (hf.completion _).mpr hfin,
    by rw [hf.wsi, hf.wsi, hw], ?_⟩
  intro cb hcb
  obtain ⟨c, hc, rfl⟩ := List.mem_map.mp hcb
  rw [hf.wsi, hf.wsi, ne_eq, hf.http]
  exact hmid c hc

/-- Whether a request is disturbed does not depend on what the fragments contain. -/
theorem KeepsKind.undisturbed (hf : KeepsKind f) {mid : List HttpCallback}
    (h : Undisturbed wsi (mid.map f)) : Undisturbed wsi mid := by
  rintro m₁ e m₂ rfl hew
  obtain ⟨hbody, hhttp⟩ := h (m₁.map f) (f e) (m₂.map f) (by simp) (by rwa [hf.wsi])
  refine ⟨fun he => ?_, fun he b hb hbw => ?_⟩
  · obtain ⟨h', hh', hr⟩ := hbody (by rwa [hf.isBody])
    obtain ⟨c, hc, rfl⟩ := List.mem_map.mp hh'
    exact ⟨c, hc, (hf.http c).mp hr⟩
  · rw [← hf.isBody]
    exact hhttp ((hf.http e).mpr he) (f b) (List.mem_map_of_mem hb) (by rwa [hf.wsi])

/-- **Undisturbed requests are reported with their own bodies.** -/
theorem bodiesOwn_of_separated (hg : s₀.handles = true) (hb : s₀.req_body = [])
    (hord : WellOrdered (order cbs)) (hsep : Separated (order cbs)) : BodiesOwn s₀ cbs := by
  rintro pre cb post rfl hcb os s s' server_id client_id msg msg_len hrun ht
  have hgs : s.handles = true := (HttpTcpServer.handles_run hrun).trans hg
  obtain ⟨hmsg, hlen⟩ : msg = s.req_body ∧ msg_len = msg.length % 2 ^ 32 := by
    have heff := callbackHttp_effect hgs ht.2
    cases heff with
    | completion client _ _ => exact ⟨rfl, rfl⟩
  have hin : inRequest cb.wsi pre = true := by
    have := (hord (order pre) cb.shape (order post) (by simp [order])).2
      (.inr ((keepsKind_shape.completion cb).mpr hcb))
    rwa [keepsKind_shape.wsi, order, keepsKind_shape.inRequest] at this
  obtain ⟨p, start, mid, rfl, hsw, hs, hmid⟩ := exists_start_of_inRequest hin
  have hreq : IsRequest (p ++ start :: mid ++ cb :: post) start mid cb :=
    ⟨⟨p, post, rfl⟩, hs, hcb, hsw.symm, by rwa [hsw]⟩
  have hu : Undisturbed cb.wsi mid := by
    have := hsep _ _ _ (keepsKind_shape.isRequest hreq)
    rw [keepsKind_shape.wsi, hsw] at this
    exact keepsKind_shape.undisturbed this
  refine ⟨?_, hlen⟩
  rw [hmsg, req_body_eq hg hb hrun, ownBody, fragments_of_undisturbed hs hsw hmid hu]

/-- Marking a callback does not change its shape. -/
theorem shape_mark (cb : HttpCallback) : (cb.mark wsi).shape = cb.shape := by
  cases hr : cb.reason <;> simp [HttpCallback.mark, HttpCallback.shape, hr]

/-- Marked callbacks come in the same order. -/
theorem order_map_mark : order (cbs.map (HttpCallback.mark wsi)) = order cbs := by
  simp only [order, List.map_map]
  exact List.map_congr_left fun cb _ => shape_mark cb

/-- After marking, every callback is marked. -/
theorem marked_map_mark : Marked wsi (cbs.map (HttpCallback.mark wsi)) := by
  intro cb hcb hbody
  obtain ⟨c, -, rfl⟩ := List.mem_map.mp hcb
  cases hr : c.reason <;>
    simp_all [HttpCallback.mark, HttpCallback.fragment, HttpReason.isBody]

/-- Two servers that differ in `req_body` only. -/
structure SameButBody (s s' : HttpTcpServer) : Prop where
  server_id : s'.m_server_id = s.m_server_id
  handles : s'.handles = s.handles
  client_list : s'.m_client_list = s.m_client_list

/-- A server is the same as itself, whatever the body is. -/
theorem SameButBody.refl (s : HttpTcpServer) : SameButBody s s := ⟨rfl, rfl, rfl⟩

/-- Callbacks of one shape are the same, or both deliver a fragment of one connection. -/
theorem shape_cases {cb cb' : HttpCallback} (h : cb.shape = cb'.shape) :
    cb' = cb ∨ ∃ b b', cb.reason = .httpBody b ∧ cb'.reason = .httpBody b' := by
  obtain ⟨wsi, fd, reason⟩ := cb
  obtain ⟨wsi', fd', reason'⟩ := cb'
  by_cases hr : reason.isBody = true
  · obtain ⟨b, rfl⟩ : ∃ b, reason = .httpBody b := by
      cases reason <;> simp_all [HttpReason.isBody]
    have hr' : reason'.isBody = true := by
      have := congrArg (fun c => c.reason.isBody) h
      simp only [keepsKind_shape.isBody] at this
      exact this.symm
    obtain ⟨b', rfl⟩ : ∃ b', reason' = .httpBody b' := by
      cases reason' <;> simp_all [HttpReason.isBody]
    exact .inr ⟨b, b', rfl, rfl⟩
  · have hr' : reason'.isBody = false := by
      have := congrArg (fun c => c.reason.isBody) h
      simp only [keepsKind_shape.isBody] at this
      rw [← this]
      simpa using hr
    left
    cases reason <;> simp [HttpReason.isBody] at hr <;>
      cases reason' <;> simp [HttpReason.isBody] at hr' <;> exact h.symm

/-- What the fragments contain decides nothing but `req_body` and the bodies reported. -/
theorem step_of_shape {t : HttpTcpServer} {cb cb' : HttpCallback} {o : List Notification}
    (hs : SameButBody s s') (hcb : cb.shape = cb'.shape)
    (ht : HttpTcpServer.Step s cb t o) :
    ∃ t' o', HttpTcpServer.Step s' cb' t' o' ∧ SameButBody t t' := by
  obtain ⟨hfresh, ht⟩ := ht
  obtain ⟨hid, hh, hl⟩ := hs
  by_cases hg : s.handles = true
  · have hg' : s'.handles = true := hh.trans hg
    rcases shape_cases hcb with rfl | ⟨b, b', hb, hb'⟩
    · have hfresh' : cb'.Fresh s'.m_client_list := by rwa [hl]
      cases callbackHttp_effect hg ht with
      | connected id hr =>
          exact ⟨_, _, ⟨hfresh', callbackHttp_of_effect hg' (.connected id hr)⟩,
            ⟨hid, hh, by simp [hl]⟩⟩
      | closed hr =>
          exact ⟨_, _, ⟨hfresh', callbackHttp_of_effect hg' (.closed hr)⟩,
            ⟨hid, hh, by simp [hl]⟩⟩
      | request hr =>
          exact ⟨_, _, ⟨hfresh', callbackHttp_of_effect hg' (.request hr)⟩, ⟨hid, hh, hl⟩⟩
      | body b hr =>
          exact ⟨_, _, ⟨hfresh', callbackHttp_of_effect hg' (.body b hr)⟩, ⟨hid, hh, hl⟩⟩
      | completion client hr hc =>
          exact ⟨_, _, ⟨hfresh', callbackHttp_of_effect hg'
            (.completion client hr (by rwa [hl]))⟩, ⟨hid, hh, hl⟩⟩
      | silent hr =>
          exact ⟨_, _, ⟨hfresh', callbackHttp_of_effect hg' (.silent hr)⟩, ⟨hid, hh, hl⟩⟩
    · cases callbackHttp_effect hg ht with
      | body _ _ =>
          exact ⟨_, _, ⟨HttpCallback.fresh_of_none (by rw [hb']; rfl),
            callbackHttp_of_effect hg' (.body b' hb')⟩, ⟨hid, hh, hl⟩⟩
      | closed hr => simp [hb, HttpReason.isClose] at hr
      | connected _ hr | request hr | completion _ hr _ => simp [hb] at hr
      | silent hr => simp [hb] at hr
  · have hg' : s'.handles = false := by rw [hh]; simpa using hg
    rw [callbackHttp_idle (by simpa using hg)] at ht
    obtain ⟨rfl, -⟩ := Prod.mk.inj (Option.some.inj ht)
    refine ⟨s', [], ⟨?_, callbackHttp_idle hg'⟩, ⟨hid, hh, hl⟩⟩
    rcases shape_cases hcb with rfl | ⟨b, b', -, hb'⟩
    · rwa [hl]
    · exact HttpCallback.fresh_of_none (by rw [hb']; rfl)

/-- Callbacks in the same order run alike. -/
theorem run_of_order (hrun : Run HttpTcpServer.Step s₀ cbs os s)
    (hord : order cbs' = order cbs) :
    ∃ os' s', Run HttpTcpServer.Step s₀ cbs' os' s' ∧ SameButBody s s' := by
  induction hrun generalizing cbs' with
  | start =>
      obtain rfl : cbs' = [] := by simpa [order] using hord
      exact ⟨[], s₀, .start, .refl s₀⟩
  | @step cbs os s cb t o _ ht ih =>
      rcases List.eq_nil_or_concat cbs' with rfl | ⟨cbs₁, cb', rfl⟩
      · simp [order] at hord
      · simp only [order, List.concat_eq_append, List.map_append, List.map_singleton] at hord ⊢
        obtain ⟨hord, hcb⟩ := List.append_inj' hord rfl
        obtain ⟨os', s', hrun', hs⟩ := ih hord
        obtain ⟨t', o', ht', hst⟩ := step_of_shape hs (List.cons.inj hcb).1.symm ht
        exact ⟨_, _, hrun'.step ht', hst⟩

/-- **Only undisturbed requests are reported with their own bodies**: if an order of
callbacks gets every body right whatever the fragments contain, it leaves every request
undisturbed. -/
theorem separated_of_bodiesOwn (hg : s₀.handles = true) (hb : s₀.req_body = [])
    (hrun : Run HttpTcpServer.Step s₀ cbs os s)
    (hown : ∀ cbs', order cbs' = order cbs → BodiesOwn s₀ cbs') : Separated (order cbs) := by
  rintro start mid fin ⟨⟨pre, post, hsplit⟩, hs, hf, hw, hmid⟩
  -- the same order with fragments that tell the disturbed connection from the others
  let M := List.map (HttpCallback.mark start.wsi)
  have hord : order (M (order cbs)) = order cbs := by
    rw [order_map_mark, order, order, List.map_map]
    refine List.map_congr_left fun cb _ => ?_
    cases hr : cb.reason <;> simp [HttpCallback.shape, hr]
  have hMsplit : M (order cbs) = M (pre ++ start :: mid) ++ fin.mark start.wsi :: M post := by
    simp [M, hsplit]
  have hk : KeepsKind (HttpCallback.mark start.wsi) := keepsKind_mark
  have hfin := (hk.completion fin).mpr hf
  obtain ⟨os', s', hrun', -⟩ := run_of_order hrun hord
  rw [hMsplit] at hrun'
  obtain ⟨s₁, s₂, os₁, o, -, hpre, ht, -, -⟩ := hrun'.split_at
  have hgs : s₁.handles = true := (HttpTcpServer.handles_run hpre).trans hg
  obtain ⟨client_id, rfl⟩ : ∃ client_id, o = [.onReceive s₁.m_server_id client_id
      s₁.req_body (s₁.req_body.length % 2 ^ 32)] := by
    cases callbackHttp_effect hgs ht.2 with
    | completion client _ _ => exact ⟨_, rfl⟩
    | closed hr => simp [hfin, HttpReason.isClose] at hr
    | connected _ hr | request hr | body _ hr => simp [hfin] at hr
    | silent hr => simp [hfin] at hr
  have hbody := (hown _ hord _ _ _ hMsplit hfin _ _ _ _ _ _ _ hpre ht).1
  have hcons : M (pre ++ start :: mid) = M pre ++ start.mark start.wsi :: M mid := by simp [M]
  rw [req_body_eq hg hb hpre, hk.wsi, hw, hcons] at hbody
  refine hk.undisturbed
    (undisturbed_of_fragments ((hk.http start).mpr hs) (hk.wsi start) ?_ marked_map_mark hbody)
  intro cb hcb hcw
  obtain ⟨c, hc, rfl⟩ := List.mem_map.mp hcb
  rw [ne_eq, hk.http]
  exact hmid c hc (by rwa [hk.wsi] at hcw)

/-- **When bodies do not mix.** An order of callbacks gets every body right, whatever the
fragments contain, exactly when nothing in it disturbs a request. -/
theorem bodies_own_iff_separated (hg : s₀.handles = true) (hb : s₀.req_body = [])
    (hrun : Run HttpTcpServer.Step s₀ cbs os s) (hord : WellOrdered (order cbs)) :
    (∀ cbs', order cbs' = order cbs → BodiesOwn s₀ cbs') ↔ Separated (order cbs) := by
  constructor
  · exact separated_of_bodiesOwn hg hb hrun
  · intro hsep cbs' h
    exact bodiesOwn_of_separated hg hb (by rwa [h]) (by rwa [h])

end Runs

/-! ### Two connections -/

/-- The order of callbacks, position by position. -/
theorem wellOrdered_iff {cbs : List HttpCallback} :
    WellOrdered cbs ↔ ∀ i (h : i < cbs.length),
      (cbs[i].reason = .http → inRequest cbs[i].wsi (cbs.take i) = false) ∧
      (cbs[i].reason.isBody = true ∨ cbs[i].reason = .httpBodyCompletion →
        inRequest cbs[i].wsi (cbs.take i) = true) := by
  constructor
  · intro hord i h
    refine hord (cbs.take i) cbs[i] (cbs.drop (i + 1)) ?_
    rw [← List.drop_eq_getElem_cons h, List.take_append_drop]
  · rintro hord pre cb post rfl
    simpa using hord pre.length (by simp)

instance {cbs : List HttpCallback} : Decidable (WellOrdered cbs) :=
  decidable_of_iff' _ wellOrdered_iff

/-- What disturbs a request, position by position. -/
theorem undisturbed_iff {wsi : ℕ} {mid : List HttpCallback} :
    Undisturbed wsi mid ↔ ∀ i (h : i < mid.length), mid[i].wsi ≠ wsi →
      (mid[i].reason.isBody = true → ∃ h ∈ mid.drop (i + 1), h.reason = .http) ∧
      (mid[i].reason = .http → ∀ b ∈ mid.take i, b.wsi = wsi → b.reason.isBody = false) := by
  constructor
  · intro hmid i h
    refine hmid (mid.take i) mid[i] (mid.drop (i + 1)) ?_
    rw [← List.drop_eq_getElem_cons h, List.take_append_drop]
  · rintro hmid m₁ e m₂ rfl
    simpa using hmid m₁.length (by simp)

instance {wsi : ℕ} {mid : List HttpCallback} : Decidable (Undisturbed wsi mid) :=
  decidable_of_iff' _ undisturbed_iff

/-- The callbacks after position `i`, in front of position `i + 1 + n`. -/
def between (cbs : List HttpCallback) (i n : ℕ) : List HttpCallback :=
  (cbs.drop (i + 1)).take n

/-- Requests by the position of their `LWS_CALLBACK_HTTP` and what is in between. -/
theorem separated_iff {cbs : List HttpCallback} :
    Separated cbs ↔ ∀ i (hi : i < cbs.length), ∀ n (hn : n < (cbs.drop (i + 1)).length),
      (cbs[i].reason = .http ∧ (cbs.drop (i + 1))[n].reason = .httpBodyCompletion ∧
        (cbs.drop (i + 1))[n].wsi = cbs[i].wsi ∧
        ∀ cb ∈ between cbs i n, cb.wsi = cbs[i].wsi → cb.reason ≠ .http) →
      Undisturbed cbs[i].wsi (between cbs i n) := by
  constructor
  · intro hsep i hi n hn hrequest
    have hcut : cbs.drop (i + 1) =
        between cbs i n ++ (cbs.drop (i + 1))[n] :: (cbs.drop (i + 1)).drop (n + 1) := by
      rw [between, ← List.drop_eq_getElem_cons hn, List.take_append_drop]
    refine hsep cbs[i] _ (cbs.drop (i + 1))[n]
      ⟨⟨cbs.take i, (cbs.drop (i + 1)).drop (n + 1), ?_⟩, hrequest⟩
    rw [List.append_assoc, List.cons_append, ← hcut, ← List.drop_eq_getElem_cons hi,
      List.take_append_drop]
  · rintro hsep start mid fin ⟨⟨pre, post, rfl⟩, hrequest⟩
    have hmid := hsep pre.length (by simp) mid.length (by simp)
    simp only [between, List.append_assoc, List.cons_append, List.drop_length_add_append,
      List.getElem_append_right, Nat.le_refl, Nat.sub_self, List.getElem_cons_zero,
      List.drop_succ_cons, List.drop_zero, List.take_left] at hmid
    exact hmid (by simpa using hrequest)

instance {cbs : List HttpCallback} : Decidable (Separated cbs) :=
  decidable_of_iff' _ separated_iff

/-- A running server without clients. -/
def httpServer : HttpTcpServer :=
  { m_server_id := 1, m_context := true, m_run_thread := true, m_client_list := [],
    req_body := [] }

/-- Two connections: the second posts while the request of the first is open, and begins another
request before the first one's fragments come. -/
def nestedPosts : List HttpCallback :=
  [⟨0, 5, .serverNewClientInstantiated 16⟩, ⟨1, 6, .serverNewClientInstantiated 32⟩,
    ⟨0, 5, .http⟩, ⟨1, 6, .http⟩, ⟨1, 6, .httpBody [2]⟩, ⟨1, 6, .httpBodyCompletion⟩,
    ⟨1, 6, .http⟩, ⟨0, 5, .httpBody [1]⟩, ⟨0, 5, .httpBody [3]⟩, ⟨0, 5, .httpBodyCompletion⟩]

/-- Whatever the two send, each gets its own body reported. -/
theorem bodies_own_iff_separated_nestedPosts : Separated (order nestedPosts) ∧
    ∀ cbs', order cbs' = order nestedPosts → BodiesOwn httpServer cbs' := by
  have hrun : Run HttpTcpServer.Step httpServer nestedPosts _ _ := run_guarded_of_exec rfl
  have hsep : Separated (order nestedPosts) := by decide
  exact ⟨hsep, (bodies_own_iff_separated rfl rfl hrun (by decide)).mpr hsep⟩

/-- Two connections that post one fragment each, at the same time. -/
def twoPosts : List HttpCallback :=
  [⟨0, 5, .serverNewClientInstantiated 16⟩, ⟨1, 6, .serverNewClientInstantiated 32⟩,
    ⟨0, 5, .http⟩, ⟨1, 6, .http⟩, ⟨0, 5, .httpBody [1]⟩, ⟨1, 6, .httpBody [2]⟩,
    ⟨0, 5, .httpBodyCompletion⟩]

/-- The first of two connections gets the fragment of the second reported as its own. -/
theorem twoPosts_mixed :
    ∃ os s, Run HttpTcpServer.Step httpServer twoPosts os s ∧ WellOrdered (order twoPosts) ∧
      ¬ BodiesOwn httpServer twoPosts := by
  refine ⟨_, _, run_guarded_of_exec (by rfl), by decide, ?_⟩
  intro h
  have hmsg := h (twoPosts.take 6) ⟨0, 5, .httpBodyCompletion⟩ [] rfl rfl _ _ _ 1 16 [1, 2] 2
    (run_guarded_of_exec (by rfl)) ⟨by decide, rfl⟩
  exact absurd hmsg.1 (by decide)

end AnyServer
