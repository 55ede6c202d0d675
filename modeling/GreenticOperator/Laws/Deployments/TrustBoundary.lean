import GreenticOperator.Laws.Deployments.Origin
import GreenticOperator.Lib.Outcome

/-!
# What a request that passes the trust boundary is known to be

The peer and the forwarding headers of an accepted request are as the boundary asks. Its
`Origin` is not: only the first value is read, a value that is not visible ASCII counts as
absent, and one that is read may name another site behind a name of this machine. The exact
condition under which every `Origin` value is a loopback origin is `guarded_iff`.
-/

namespace Deployments

open HttpUtil

variable {peerAddr : SocketAddr} {headers : HeaderMap} {state : DeploymentsState}

/-- A header value that is a loopback origin of the grammar. -/
def HeaderValue.IsLoopbackOrigin (v : HeaderValue) : Prop := ∃ origin, v.toStr = some origin ∧ Origin origin

/-- The peer is loopback and no header marks the request as forwarded, whatever the case of
the header's name; asked only of a state that is `loopbackOnly`. -/
def Local (peerAddr : SocketAddr) (headers : HeaderMap) (state : DeploymentsState) : Prop :=
  state.loopbackOnly = true → peerAddr.ip.isLoopback = true
    ∧ ∀ entry ∈ headers.entries, isForwardingMarker (Text.toAsciiLowercase entry.1) = false

/-- What the trust boundary is there for. -/
structure Guarded (peerAddr : SocketAddr) (headers : HeaderMap) (state : DeploymentsState) :
    Prop where
  fromHere : Local peerAddr headers state
  origins : ∀ entry ∈ headers.entries, Text.eqIgnoreAsciiCase entry.1 "origin" = true →
    entry.2.IsLoopbackOrigin

/-! ## The headers of a request -/

theorem HeaderMap.mem_keys {name : String} :
    name ∈ headers.keys ↔ ∃ entry ∈ headers.entries, entry.1 = name := by
  rw [HeaderMap.keys, List.mem_eraseDups, List.mem_map]

theorem HeaderMap.mem_getAll_origin {v : HeaderValue} :
    v ∈ headers.getAll "origin" ↔
      ∃ entry ∈ headers.entries, Text.eqIgnoreAsciiCase entry.1 "origin" = true ∧ entry.2 = v := by
  have hname : ∀ entry ∈ headers.entries,
      (Text.eqIgnoreAsciiCase entry.1 "origin" = true ↔ (entry.1 == "origin") = true) := by
    intro entry hentry
    have horigin : Text.toAsciiLowercase "origin" = "origin" := by decide +kernel
    rw [Text.eqIgnoreAsciiCase, headers.lower entry hentry, horigin]
  simp only [HeaderMap.getAll, List.mem_map, List.mem_filter]
  constructor
  · rintro ⟨entry, ⟨hmem, hentry⟩, rfl⟩
    exact ⟨entry, hmem, (hname entry hmem).mpr hentry, rfl⟩
  · rintro ⟨entry, hmem, hentry, rfl⟩
    exact ⟨entry, ⟨hmem, (hname entry hmem).mp hentry⟩, rfl⟩

theorem forwardingMarker_eq_none_iff :
    forwardingMarker headers = none ↔
      ∀ entry ∈ headers.entries, isForwardingMarker (Text.toAsciiLowercase entry.1) = false := by
  simp only [forwardingMarker, List.find?_eq_none, HeaderMap.mem_keys, Bool.not_eq_true]
  constructor
  · intro h entry hmem
    rw [headers.lower entry hmem]
    exact h entry.1 ⟨entry, hmem, rfl⟩
  · rintro h name ⟨entry, hmem, rfl⟩
    rw [← headers.lower entry hmem]
    exact h entry hmem

/-! ## What the check accepts -/

/-- The two checks that `loopbackOnly` turns on. -/
def localCheck (peerAddr : SocketAddr) (headers : HeaderMap) : Except HttpResponse Unit :=
  if peerAddr.ip.isLoopback then
    match forwardingMarker headers with
    | some marker => .error (markerRefused marker)
    | none => .ok ()
  else .error (peerRefused peerAddr)

/-- The check of the one `Origin` value that is read. -/
def originCheck (headers : HeaderMap) : Except HttpResponse Unit :=
  match (headers.get "origin").bind HeaderValue.toStr with
  | some origin => if isLoopbackOrigin origin then .ok () else .error (originRefused origin)
  | none => .ok ()

theorem checkTrustBoundary_eq :
    checkTrustBoundary peerAddr headers state =
      if state.loopbackOnly then localCheck peerAddr headers >>= fun _ => originCheck headers
      else originCheck headers := by
  unfold checkTrustBoundary localCheck originCheck
  simp only [Outcome.throw_eq]
  cases hread : (headers.get "origin").bind HeaderValue.toStr with
  | none =>
    cases state.loopbackOnly <;> cases peerAddr.ip.isLoopback <;>
      cases forwardingMarker headers <;> simp [bind, Except.bind, pure, Except.pure]
  | some origin =>
    cases state.loopbackOnly <;> cases peerAddr.ip.isLoopback <;>
      cases forwardingMarker headers <;> cases hloop : isLoopbackOrigin origin <;>
      simp [hloop, bind, Except.bind, pure, Except.pure]

theorem localCheck_ok_iff :
    localCheck peerAddr headers = .ok () ↔
      peerAddr.ip.isLoopback = true ∧ forwardingMarker headers = none := by
  unfold localCheck
  cases peerAddr.ip.isLoopback <;> cases forwardingMarker headers <;> simp

theorem originCheck_ok_iff :
    originCheck headers = .ok () ↔
      ∀ origin, (headers.get "origin").bind HeaderValue.toStr = some origin →
        isLoopbackOrigin origin = true := by
  unfold originCheck
  cases (headers.get "origin").bind HeaderValue.toStr with
  | none => simp
  | some origin => cases hloop : isLoopbackOrigin origin <;> simp [hloop]

/-- A request passes exactly when it is local and the `Origin` value that is read, if one
is, is a loopback origin. -/
theorem checkTrustBoundary_ok_iff :
    checkTrustBoundary peerAddr headers state = .ok () ↔
      Local peerAddr headers state ∧
        ∀ origin, (headers.get "origin").bind HeaderValue.toStr = some origin →
          isLoopbackOrigin origin = true := by
  rw [checkTrustBoundary_eq, ← originCheck_ok_iff, Local, ← forwardingMarker_eq_none_iff]
  cases state.loopbackOnly with
  | false => simp
  | true =>
    rw [← localCheck_ok_iff]
    cases localCheck peerAddr headers <;> simp [bind, Except.bind]

theorem Local.of_ok (h : checkTrustBoundary peerAddr headers state = .ok ()) :
    Local peerAddr headers state :=
  (checkTrustBoundary_ok_iff.mp h).1

theorem localCheck_error {response : HttpResponse}
    (h : localCheck peerAddr headers = .error response) :
    ∃ message, response = errorResponse 403 message := by
  unfold localCheck at h
  cases hpeer : peerAddr.ip.isLoopback with
  | false =>
    simp only [hpeer, Bool.false_eq_true, ↓reduceIte, Except.error.injEq] at h
    exact ⟨_, h.symm⟩
  | true =>
    cases hmarker : forwardingMarker headers with
    | none => simp [hpeer, hmarker] at h
    | some marker =>
      simp only [hpeer, hmarker, ↓reduceIte, Except.error.injEq] at h
      exact ⟨_, h.symm⟩

theorem originCheck_error {response : HttpResponse} (h : originCheck headers = .error response) :
    ∃ message, response = errorResponse 403 message := by
  unfold originCheck at h
  cases hread : (headers.get "origin").bind HeaderValue.toStr with
  | none => simp [hread] at h
  | some origin =>
    cases hloop : isLoopbackOrigin origin with
    | true => simp [hread, hloop] at h
    | false =>
      simp only [hread, hloop, Bool.false_eq_true, ↓reduceIte, Except.error.injEq] at h
      exact ⟨_, h.symm⟩

/-- Every refusal is a 403 with a message. -/
theorem checkTrustBoundary_error {response : HttpResponse}
    (h : checkTrustBoundary peerAddr headers state = .error response) :
    ∃ message, response = errorResponse 403 message := by
  rw [checkTrustBoundary_eq] at h
  cases hloopback : state.loopbackOnly with
  | false => exact originCheck_error (by simpa [hloopback] using h)
  | true =>
    rw [hloopback, if_pos rfl] at h
    cases hlocal : localCheck peerAddr headers with
    | error refusal =>
      rw [hlocal] at h
      simp only [bind, Except.bind, Except.error.injEq] at h
      exact h ▸ localCheck_error hlocal
    | ok _ =>
      rw [hlocal] at h
      exact originCheck_error h

/-! ## When the check guards the origin -/

/-- The one value that is read speaks for all of them: it is text, and where it reads as a host of
this machine it is an origin of the grammar and the values after it are too. -/
def FirstOriginSpeaks (headers : HeaderMap) : Prop :=
  ∀ first rest, headers.getAll "origin" = first :: rest →
    ∃ origin, first.toStr = some origin ∧
      ∀ r : Reading, r.Of origin → r.Tidy ∧ ∀ v ∈ rest, v.IsLoopbackOrigin

theorem guarded_of_speaks (hspeaks : FirstOriginSpeaks headers)
    (hok : checkTrustBoundary peerAddr headers state = .ok ()) :
    Guarded peerAddr headers state := by
  obtain ⟨hlocal, hread⟩ := checkTrustBoundary_ok_iff.mp hok
  refine ⟨hlocal, fun entry hmem hname => ?_⟩
  have hv : entry.2 ∈ headers.getAll "origin" :=
    HeaderMap.mem_getAll_origin.mpr ⟨entry, hmem, hname, rfl⟩
  rw [HeaderMap.get] at hread
  cases hall : headers.getAll "origin" with
  | nil =>
    rw [hall] at hv
    cases hv
  | cons first rest =>
    obtain ⟨origin, hfirst, hrest⟩ := hspeaks first rest hall
    rw [hall, List.head?_cons, Option.bind_some] at hread
    rw [hall] at hv
    obtain ⟨r, hr⟩ := Reading.accepted_iff.mp (hread origin hfirst)
    obtain ⟨htidy, hrest⟩ := hrest r hr
    rcases List.mem_cons.mp hv with heq | hmore
    · rw [heq]
      exact ⟨origin, hfirst, Reading.origin_of_tidy hr htidy⟩
    · exact hrest entry.2 hmore

theorem speaks_of_guarded (hlocal : Local peerAddr headers state)
    (hguards : checkTrustBoundary peerAddr headers state = .ok () →
      Guarded peerAddr headers state) : FirstOriginSpeaks headers := by
  intro first rest hall
  have horigins : (∀ origin, first.toStr = some origin → isLoopbackOrigin origin = true) →
      ∀ v ∈ first :: rest, v.IsLoopbackOrigin := by
    intro hfirst v hv
    have hok : checkTrustBoundary peerAddr headers state = .ok () := by
      refine checkTrustBoundary_ok_iff.mpr ⟨hlocal, ?_⟩
      rw [HeaderMap.get, hall, List.head?_cons, Option.bind_some]
      exact hfirst
    rw [← hall] at hv
    obtain ⟨entry, hmem, hname, rfl⟩ := HeaderMap.mem_getAll_origin.mp hv
    exact (hguards hok).origins entry hmem hname
  cases hread : first.toStr with
  | none =>
    -- a value that is not text is passed over, so the request is accepted with it
    obtain ⟨origin, horigin, -⟩ :=
      horigins (fun _ h => by rw [hread] at h; cases h) first List.mem_cons_self
    rw [hread] at horigin
    cases horigin
  | some origin =>
    refine ⟨origin, rfl, fun r hr => ?_⟩
    have hevery : ∀ v ∈ first :: rest, v.IsLoopbackOrigin := by
      refine horigins fun other hother => ?_
      rw [hread, Option.some.injEq] at hother
      rw [← hother, hr.accepted]
    obtain ⟨text, htext, horigin⟩ := hevery first List.mem_cons_self
    rw [hread, Option.some.injEq] at htext
    obtain ⟨r', hr', htidy⟩ := Reading.origin_iff_tidy.mp (htext ▸ horigin)
    exact ⟨hr.unique hr' ▸ htidy, fun v hv => hevery v (List.mem_cons_of_mem _ hv)⟩

/-- **The trust boundary guards a request** exactly when the peer or a forwarding header
already has it refused, or the first `Origin` value speaks for all of them. -/
theorem guarded_iff (peerAddr : SocketAddr) (headers : HeaderMap) (state : DeploymentsState) :
    (checkTrustBoundary peerAddr headers state = .ok () → Guarded peerAddr headers state) ↔
      (Local peerAddr headers state → FirstOriginSpeaks headers) :=
  ⟨fun hguards hlocal => speaks_of_guarded hlocal hguards,
    fun hspeaks hok => guarded_of_speaks (hspeaks (Local.of_ok hok)) hok⟩

/-- A value of visible ASCII. -/
def textValue (s : String) : HeaderValue := s.toList.map fun c => c.toNat.toUInt8

/-- A request from this machine with two origins, the second another site's. -/
def twoOrigins : HeaderMap where
  entries := [("origin", textValue "http://localhost"), ("origin", textValue "https://evil.example")]
  lower := by decide +kernel

theorem second_origin_passes :
    ¬ ∀ peerAddr headers state, checkTrustBoundary peerAddr headers state = .ok () →
      Guarded peerAddr headers state := by
  intro h
  have hok : checkTrustBoundary ⟨.v4 127 0 0 1, "127.0.0.1:50000"⟩ twoOrigins ⟨true⟩ = .ok () :=
    checkTrustBoundary_ok_iff.mpr ⟨by unfold Local; decide +kernel, by decide +kernel⟩
  obtain ⟨origin, hread, horigin⟩ :=
    (h _ _ _ hok).origins ("origin", textValue "https://evil.example") (by decide +kernel)
      (by decide +kernel)
  have hevil : (textValue "https://evil.example").toStr = some "https://evil.example" := by
    decide +kernel
  rw [hevil, Option.some.injEq] at hread
  exact absurd (Reading.accepted_of_origin (hread ▸ horigin)) (by decide +kernel)

end Deployments
