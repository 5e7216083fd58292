import MapProtocol.Sdk.WebSocketTransport

/-!
# What comes over the WebSocket transport

Each call of `dispatch` draws an id and waits for a frame with that id, and each subscription takes the
frames of its task. Sockets are lost and made anew under them, calls time out, and `close` may come at
any time. Whatever the order, a call takes the first answer to its id or fails for a reason of its own,
and a registered subscription misses no update.
-/

namespace MapProtocol.Sdk.TypeScript

variable {ρ ε υ : Type}

/-! ## The answers to a call -/

/-- What a frame answers to the request with an id. -/
def WebSocketResponse.answerTo (id : String) : WebSocketResponse ρ ε υ → Option (Except ε ρ)
  | .dispatchResult i result => if i = id then some (.ok result) else none
  | .dispatchError i error   => if i = id then some (.error error) else none
  | .taskStatus _ _          => none
  | .other                   => none

/-- The answer that a verdict passes on, where it is no failure of the call's own. -/
def passedOn : Except (DispatchFailure ε) ρ → Option (Except ε ρ)
  | .ok result               => some (.ok result)
  | .error (.server error)   => some (.error error)
  | .error (.connect _)      => none
  | .error (.send _)         => none
  | .error .timedOut         => none
  | .error .closed           => none

namespace DispatchCall

/-- The first answer to a call among the frames that came since it drew its id. -/
def firstAnswer (received : List (WebSocketResponse ρ ε υ)) (call : DispatchCall ρ ε) :
    Option (Except ε ρ) :=
  call.id.bind fun id => (received.drop call.since).findSome? (WebSocketResponse.answerTo id)

/-- The call takes the first answer there is: while it waits there is none, and what it passes on is
that one. -/
structure Took (received : List (WebSocketResponse ρ ε υ)) (call : DispatchCall ρ ε) : Prop where
  since  : call.since ≤ received.length
  waits  : call.verdict = none → call.firstAnswer received = none
  passes : ∀ verdict answer, call.verdict = some verdict → passedOn verdict = some answer →
    call.firstAnswer received = some answer

variable {received : List (WebSocketResponse ρ ε υ)} {call : DispatchCall ρ ε}

theorem firstAnswer_append (response : WebSocketResponse ρ ε υ) (hsince : call.since ≤ received.length) :
    call.firstAnswer (received ++ [response]) =
      (call.firstAnswer received).or (call.id.bind response.answerTo) := by
  unfold firstAnswer
  cases call.id with
  | none => rfl
  | some id =>
      rw [Option.bind_some, Option.bind_some, Option.bind_some, List.drop_append_of_le_length hsince,
        List.findSome?_append]
      simp

theorem Took.receive {response : WebSocketResponse ρ ε υ} (h : call.Took received)
    (hother : call.verdict = none → call.id.bind response.answerTo = none) :
    call.Took (received ++ [response]) := by
  refine ⟨?_, ?_, ?_⟩
  · rw [List.length_append]
    exact Nat.le_add_right_of_le h.since
  · intro hwaits
    rw [firstAnswer_append response h.since, h.waits hwaits, hother hwaits]
    rfl
  · intro verdict answer hverdict hpassed
    rw [firstAnswer_append response h.since, h.passes verdict answer hverdict hpassed]
    rfl

theorem verdict_settle_ne_none (call : DispatchCall ρ ε) (verdict : Except (DispatchFailure ε) ρ) :
    (call.settle verdict).verdict ≠ none := by
  unfold settle
  cases call.verdict <;> simp

/-- A call that fails for a reason of its own passes nothing on. -/
theorem Took.fail {verdict : Except (DispatchFailure ε) ρ} (h : call.Took received)
    (hown : passedOn verdict = none) : (call.settle verdict).Took received := by
  cases hverdict : call.verdict with
  | none =>
      have hsettle : (call.settle verdict).verdict = some verdict := by
        unfold settle
        rw [hverdict]
        rfl
      refine ⟨h.since, ?_, ?_⟩
      · intro hwaits
        rw [hsettle] at hwaits
        cases hwaits
      · intro v answer hv hpassed
        rw [hsettle] at hv
        cases hv
        rw [hown] at hpassed
        cases hpassed
  | some v =>
      have hsettle : call.settle verdict = call := by
        unfold settle
        rw [hverdict, Option.some_or, ← hverdict]
      rw [hsettle]
      exact h

theorem Took.take {response : WebSocketResponse ρ ε υ} {id : String}
    {verdict : Except (DispatchFailure ε) ρ} (h : call.Took received) (hid : call.id = some id)
    (hwaits : call.verdict = none) (hanswer : response.answerTo id = passedOn verdict) :
    (call.settle verdict).Took (received ++ [response]) := by
  have hfirst : call.firstAnswer (received ++ [response]) = passedOn verdict := by
    rw [firstAnswer_append response h.since, h.waits hwaits, hid, Option.bind_some, hanswer]
    rfl
  have hsettle : (call.settle verdict).verdict = some verdict := by
    unfold settle
    rw [hwaits]
    rfl
  refine ⟨?_, ?_, ?_⟩
  · rw [List.length_append]
    exact Nat.le_add_right_of_le h.since
  · intro hnone
    rw [hsettle] at hnone
    cases hnone
  · intro v answer hv hv'
    rw [hsettle] at hv
    cases hv
    exact hfirst.trans hv'

end DispatchCall

/-- What the transport keeps about its calls: no two have one id, it knows exactly those that wait, and
each takes the first answer to it. -/
structure Paired (d : Desk ρ ε) (received : List (WebSocketResponse ρ ε υ)) : Prop where
  unborn  : ∀ k, d.nextCall ≤ k → d.calls k = none
  own     : ∀ j k c call id, d.calls j = some c → d.calls k = some call → c.id = some id →
    call.id = some id → j = k
  pending : ∀ id k, d.pendingRequests.get id = some k ↔
    ∃ call, d.calls k = some call ∧ call.id = some id ∧ call.verdict = none
  took    : ∀ k call, d.calls k = some call → call.Took received

namespace Paired

variable {d e : Desk ρ ε} {received received' : List (WebSocketResponse ρ ε υ)} {k : Nat}
  {call c : DispatchCall ρ ε} {id : String}

theorem new : Paired (WebSocketTransport.new : WebSocketTransport ρ ε υ).toDesk received where
  unborn _ _ := rfl
  own     := by
    intro j k c call id hc
    cases hc
  pending := by
    intro id k
    constructor
    · intro hget
      cases hget
    · rintro ⟨call, hcall, -⟩
      cases hcall
  took    := by
    intro k call hcall
    cases hcall

theorem lt_nextCall (h : Paired d received) (hcall : d.calls k = some call) : k < d.nextCall := by
  by_contra hge
  rw [h.unborn k (Nat.le_of_not_lt hge)] at hcall
  cases hcall

/-- One call changes: an id that it then has is no other call's. -/
theorem update (h : Paired d received)
    (hapart : ∀ j b i, j ≠ k → d.calls j = some b → b.id = some i → c.id ≠ some i)
    (hcalls : e.calls = Function.update d.calls k (some c)) (hk : k < e.nextCall)
    (hnext : d.nextCall ≤ e.nextCall)
    (hpending : ∀ i j, e.pendingRequests.get i = some j ↔
      if j = k then c.id = some i ∧ c.verdict = none else d.pendingRequests.get i = some j)
    (htook : c.Took received')
    (hothers : ∀ j b, j ≠ k → d.calls j = some b → b.Took received') : Paired e received' := by
  have hcall : ∀ j, e.calls j = if j = k then some c else d.calls j := by
    intro j
    rw [hcalls]
    exact Function.update_apply d.calls k (some c) j
  refine ⟨?_, ?_, ?_, ?_⟩
  · intro j hj
    rw [hcall, if_neg (by omega), h.unborn j (by omega)]
  · intro i j b b' id hb hb' hbi hbi'
    rw [hcall] at hb hb'
    split at hb <;> split at hb'
    · rename_i hi hj
      exact hi.trans hj.symm
    · rename_i hj
      cases hb
      exact absurd hbi (hapart j b' id hj hb' hbi')
    · rename_i hi hj
      cases hb'
      exact absurd hbi' (hapart i b id hi hb hbi)
    · exact h.own i j b b' id hb hb' hbi hbi'
  · intro i j
    rw [hpending, hcall]
    split
    · constructor
      · rintro ⟨hi, hwaits⟩
        exact ⟨c, rfl, hi, hwaits⟩
      · rintro ⟨b, hb, hi, hwaits⟩
        cases hb
        exact ⟨hi, hwaits⟩
    · exact h.pending i j
  · intro j b hb
    rw [hcall] at hb
    split at hb
    · cases hb
      exact htook
    · rename_i hj
      exact hothers j b hj hb

/-- A call that is over is no longer known. -/
theorem retire (h : Paired d received) (hcall : d.calls k = some call) (hid : call.id = some id)
    (hidc : c.id = some id) (hover : c.verdict ≠ none) (htook : c.Took received')
    (hothers : ∀ j b, j ≠ k → d.calls j = some b → b.Took received') :
    Paired { d with
      calls := Function.update d.calls k (some c)
      pendingRequests := d.pendingRequests.delete id } received' := by
  refine h.update ?_ rfl (h.lt_nextCall hcall) (Nat.le_refl _) ?_ htook hothers
  · intro j b i hj hb hbi hi
    exact hj (h.own j k b call i hb hcall hbi (hid.trans (hidc.symm.trans hi)))
  · intro i j
    dsimp only
    rw [OrderedMap.get_delete]
    by_cases hj : j = k
    · rw [if_pos hj]
      refine ⟨fun hget => ?_, fun hwaits => absurd hwaits.2 hover⟩
      split at hget
      · cases hget
      · rename_i hne
        obtain ⟨b, hb, hbi, -⟩ := (h.pending i j).mp hget
        rw [hj, hcall] at hb
        cases hb
        exact absurd (Option.some.inj (hid.symm.trans hbi)) hne
    · rw [if_neg hj]
      split
      · rename_i hi
        subst hi
        refine ⟨fun hget => (by cases hget), fun hget => ?_⟩
        obtain ⟨b, hb, hbi, -⟩ := (h.pending id j).mp hget
        exact absurd (h.own j k b call id hb hcall hbi hid) hj
      · exact Iff.rfl

theorem idle {n : Nat} (h : Paired d received)
    (hnone : ∀ call, d.calls k = some call → call.id = none) (hc : c.id = none)
    (htook : c.Took received) (hk : k < n) (hn : d.nextCall ≤ n) :
    Paired { d with calls := Function.update d.calls k (some c), nextCall := n } received := by
  refine h.update ?_ rfl hk hn ?_ htook fun j b _ hb => h.took j b hb
  · intro j b i _ _ _ hi
    rw [hc] at hi
    cases hi
  · intro i j
    split
    · rename_i hj
      rw [hc]
      refine ⟨fun hget => ?_, fun hwaits => by cases hwaits.1⟩
      obtain ⟨b, hb, hbi, -⟩ := (h.pending i j).mp hget
      rw [hnone b (hj ▸ hb)] at hbi
      cases hbi
    · exact Iff.rfl

/-- A call that draws a new id waits for it. -/
theorem draw (h : Paired d received) (hcall : d.calls k = some call) (hnone : call.id = none)
    (hfresh : ∀ j b, d.calls j = some b → b.id ≠ some id) (hidc : c.id = some id)
    (hsince : c.since = received.length) (hwaits : c.verdict = none) :
    Paired { d with
      calls := Function.update d.calls k (some c)
      pendingRequests := d.pendingRequests.set id k } received := by
  refine h.update ?_ rfl (h.lt_nextCall hcall) (Nat.le_refl _) ?_ ⟨Nat.le_of_eq hsince, ?_, ?_⟩
    fun j b _ hb => h.took j b hb
  · intro j b i _ hb hbi hi
    cases hidc.symm.trans hi
    exact hfresh j b hb hbi
  · intro i j
    dsimp only
    rw [OrderedMap.get_set, hidc]
    by_cases hi : id = i
    · subst hi
      have hold : d.pendingRequests.get id ≠ some j := by
        intro hget
        obtain ⟨b, hb, hbi, -⟩ := (h.pending id j).mp hget
        exact hfresh j b hb hbi
      by_cases hj : j = k
      · simp [hj, hwaits]
      · simp [hj, Ne.symm hj, hold]
    · rw [if_neg hi]
      split
      · rename_i hj
        refine ⟨fun hget => ?_, fun hw => absurd (Option.some.inj hw.1) hi⟩
        obtain ⟨b, hb, hbi, -⟩ := (h.pending i j).mp hget
        rw [hj, hcall] at hb
        cases hb
        rw [hnone] at hbi
        cases hbi
      · exact Iff.rfl
  · intro _
    unfold DispatchCall.firstAnswer
    rw [hidc, hsince, List.drop_length]
    rfl
  · intro verdict answer hverdict
    rw [hwaits] at hverdict
    cases hverdict

/-- A call that fails after it drew its id is forgotten. -/
theorem fail {verdict : Except (DispatchFailure ε) ρ} (h : Paired d received)
    (hcall : d.calls k = some call) (hid : call.id = some id) (timer : Bool)
    (failure : Option SendFailure) (hown : passedOn verdict = none) :
    Paired { d with
      calls := Function.update d.calls k
        (some (DispatchCall.settle verdict { call with timer := timer, failure := failure }))
      pendingRequests := d.pendingRequests.delete id } received := by
  have htook : DispatchCall.Took received { call with timer := timer, failure := failure } :=
    ⟨(h.took k call hcall).since, (h.took k call hcall).waits, (h.took k call hcall).passes⟩
  refine h.retire hcall hid hid ?_ (htook.fail hown) fun j b _ hb => h.took j b hb
  exact DispatchCall.verdict_settle_ne_none _ verdict

theorem receive (h : Paired d received) (response : WebSocketResponse ρ ε υ)
    (hother : ∀ id k, d.pendingRequests.get id = some k → response.answerTo id = none) :
    Paired d (received ++ [response]) := by
  refine ⟨h.unborn, h.own, h.pending, ?_⟩
  intro k call hcall
  refine (h.took k call hcall).receive fun hwaits => ?_
  cases hid : call.id with
  | none => rfl
  | some id => exact hother id k ((h.pending id k).mpr ⟨call, hcall, hid, hwaits⟩)

/-- Whoever waits when the transport is closed is told so. -/
theorem close (h : Paired d received) :
    Paired { d with
      pendingRequests := .empty
      calls := fun k =>
        if k ∈ d.pendingRequests.values then
          (d.calls k).map (DispatchCall.settle (.error .closed))
        else d.calls k } received := by
  generalize he : ({ d with
    pendingRequests := .empty
    calls := _ } : Desk ρ ε) = e
  have hcall : ∀ k, e.calls k =
      if k ∈ d.pendingRequests.values then (d.calls k).map (DispatchCall.settle (.error .closed))
      else d.calls k := by
    intro k
    rw [← he]
  have hback : ∀ k b, e.calls k = some b → ∃ a, d.calls k = some a ∧ a.id = b.id ∧
      (b.verdict = none → a = b ∧ k ∉ d.pendingRequests.values) ∧ b.Took received := by
    intro k b hb
    rw [hcall] at hb
    split at hb
    · obtain ⟨a, ha, rfl⟩ := Option.map_eq_some_iff.mp hb
      refine ⟨a, ha, rfl, ?_, (h.took k a ha).fail rfl⟩
      exact fun hnone => absurd hnone (DispatchCall.verdict_settle_ne_none a _)
    · rename_i hmem
      exact ⟨b, hb, rfl, fun _ => ⟨rfl, hmem⟩, h.took k b hb⟩
  refine ⟨?_, ?_, ?_, ?_⟩
  · intro k hk
    rw [← he] at hk
    rw [hcall, h.unborn k hk, Option.map_none, ite_self]
  · intro i j b b' id hb hb' hbi hbi'
    obtain ⟨a, ha, haid, -⟩ := hback i b hb
    obtain ⟨a', ha', haid', -⟩ := hback j b' hb'
    exact h.own i j a a' id ha ha' (haid.trans hbi) (haid'.trans hbi')
  · intro id k
    constructor
    · intro hget
      rw [← he] at hget
      cases hget
    · rintro ⟨b, hb, hid, hwaits⟩
      obtain ⟨a, ha, -, hopen, -⟩ := hback k b hb
      obtain ⟨rfl, hmem⟩ := hopen hwaits
      exact absurd (OrderedMap.mem_values.mpr ⟨id, (h.pending id k).mpr ⟨a, ha, hid, hwaits⟩⟩) hmem
  · intro k b hb
    exact (hback k b hb).choose_spec.2.2.2

end Paired

namespace WebSocketTransport

variable {s : WebSocketTransport ρ ε υ} {k : Nat} {id : String}

/-- The invariant of a state. -/
def IsPaired (s : WebSocketTransport ρ ε υ) : Prop := Paired s.toDesk s.received

theorem IsPaired.frame {t : WebSocketTransport ρ ε υ} (h : s.IsPaired)
    (hdesk : t.toDesk = s.toDesk) (hreceived : t.received = s.received) : t.IsPaired := by
  unfold IsPaired
  rw [hdesk, hreceived]
  exact h

/-- A frame that answers an id goes to the call that waits for it, if there is one. -/
theorem answer_matched {response : WebSocketResponse ρ ε υ} {verdict : Except (DispatchFailure ε) ρ}
    (h : s.IsPaired)
    (hanswer : ∀ i, response.answerTo i = if id = i then passedOn verdict else none) :
    IsPaired (answer id verdict { s with received := s.received ++ [response] }) := by
  unfold answer
  split
  · rename_i hget
    refine Paired.receive h response fun i k hk => ?_
    rw [hanswer, if_neg]
    rintro rfl
    cases hget.symm.trans hk
  · rename_i k hget
    obtain ⟨call, hcall, hid, hwaits⟩ := (h.pending id k).mp hget
    unfold settleCall deletePending
    dsimp only
    rw [hcall]
    refine Paired.retire h hcall hid hid (DispatchCall.verdict_settle_ne_none call verdict) ?_ ?_
    · refine (h.took k call hcall).take hid hwaits ?_
      rw [hanswer, if_pos rfl]
    · intro j b hj hb
      refine (h.took j b hb).receive fun _ => ?_
      cases hi : b.id with
      | none => rfl
      | some i =>
          rw [Option.bind_some, hanswer, if_neg]
          rintro rfl
          exact hj (h.own j k b call id hb hcall hi hid)

theorem message_matched (h : s.IsPaired) (n : Nat) (response : WebSocketResponse ρ ε υ) :
    IsPaired (s.socketMessage n response) := by
  unfold socketMessage
  split
  · cases response with
    | dispatchResult i result => exact answer_matched h fun _ => rfl
    | dispatchError i error => exact answer_matched h fun _ => rfl
    | taskStatus taskId update =>
        have hreceive := Paired.receive h (.taskStatus taskId update) fun _ _ _ => rfl
        unfold handleMessage enqueueUpdate
        dsimp only
        split
        · exact hreceive
        · split
          · exact hreceive
          · split <;> exact hreceive
    | other => exact Paired.receive h .other fun _ _ _ => rfl
  · exact h

theorem close_matched (h : s.IsPaired) : IsPaired s.close := by
  obtain ⟨_, _, t, ht, hclose⟩ := close_cases s
  have hclosed : t.IsPaired := by
    rw [ht]
    exact Paired.close h
  rcases hclose with heq | heq
  · rw [heq]
    exact hclosed
  · rw [heq]
    obtain ⟨hdesk, -, hreceived⟩ := closeSocket_tends t
    exact hclosed.frame hdesk hreceived

def DrawsNew (s : WebSocketTransport ρ ε υ) : TransportLabel ρ ε υ → Prop
  | .resumeDispatch _ id _ => ∀ k call, s.calls k = some call → call.id ≠ some id
  | _                      => True

theorem resume_matched (h : s.IsPaired) (hnew : ∀ k call, s.calls k = some call → call.id ≠ some id)
    (k : Nat) (throws : Bool) : IsPaired (s.resumeDispatch k id throws) := by
  unfold resumeDispatch
  split
  · exact h
  · rename_i call hcall
    split
    · exact h
    · rename_i hfirst
      rw [Bool.or_eq_true, not_or, Option.not_isSome_iff_eq_none, Option.not_isSome_iff_eq_none] at hfirst
      obtain ⟨hnone, hwaits⟩ := hfirst
      split
      · exact h
      · unfold settleCall
        rw [hcall]
        refine Paired.idle h ?_ hnone ((h.took k call hcall).fail rfl) (h.lt_nextCall hcall)
          (Nat.le_refl _)
        intro c hc
        cases hcall.symm.trans hc
        exact hnone
      · exact Paired.draw h hcall hnone hnew rfl rfl hwaits

theorem step_matched (opts : WebSocketOptions) (s : WebSocketTransport ρ ε υ)
    (l : TransportLabel ρ ε υ) (h : s.IsPaired) (hnew : s.DrawsNew l) : (s.step opts l).IsPaired := by
  have htended : TendsConnection l → (s.step opts l).IsPaired := by
    intro hl
    obtain ⟨hdesk, -, hreceived⟩ := step_tends opts s hl
    exact h.frame hdesk hreceived
  have hstreamed : TendsStreams l → (s.step opts l).IsPaired := by
    intro hl
    obtain ⟨hdesk, hreceived, -⟩ := stream_frame opts s hl
    exact h.frame hdesk hreceived
  -- only the steps of calls and messages are left to look at
  cases l with
  | connect => exact htended .connect
  | dispatch =>
      obtain ⟨hdesk, -, hreceived⟩ := connect_tends s
      have hconnected : s.connect.2.IsPaired := h.frame hdesk hreceived
      refine Paired.idle hconnected ?_ rfl ⟨Nat.zero_le _, fun _ => rfl, ?_⟩ (Nat.lt_succ_self _)
        (Nat.le_succ _)
      · intro call hcall
        cases (hconnected.unborn _ (Nat.le_refl _)).symm.trans hcall
      · intro verdict answer hverdict
        cases hverdict
  | streamTaskStatus taskId => exact hstreamed (.stream taskId)
  | cancelStream j => exact hstreamed (.cancel j)
  | close => exact close_matched h
  | socketOpened n => exact htended (.opened n)
  | socketErrored n => exact htended (.errored n)
  | socketClosed n => exact htended (.closed n)
  | socketMessage n response => exact message_matched h n response
  | connectionTimeout n => exact htended (.timeout n)
  | resumeDispatch k id throws => exact resume_matched h hnew k throws
  | dispatchRejected k =>
      unfold step dispatchRejected
      dsimp only
      split
      · exact h
      · rename_i call hcall
        split
        · rename_i id failure hid hfailure
          rw [settleCall_setCall]
          exact Paired.fail h hcall hid false none rfl
        · exact h
  | dispatchTimeout k =>
      unfold step dispatchTimeout
      dsimp only
      split
      · exact h
      · rename_i call hcall
        split
        · exact h
        · rename_i id hid
          split
          · rw [settleCall_setCall]
            exact Paired.fail h hcall hid false call.failure rfl
          · exact h
  | resumeStream j throws => exact hstreamed (.resume j throws)
  | streamRejected j => exact hstreamed (.rejected j)
  | reconnectTimer i => exact htended (.timer i)
  | resumeReconnect i => exact htended (.attempt i)

/-- **A call takes the first answer to its id.** Where the ids drawn are new, through whatever is lost,
made anew, timed out and closed: a call that waits has had no answer, and what a call passes on is the
first answer that came after it drew its id. -/
theorem calls_take_first_answer (opts : WebSocketOptions) (ls : List (TransportLabel ρ ε υ))
    (hnew : Transition.StepsMeet (step opts) DrawsNew new ls) (k : Nat) (call : DispatchCall ρ ε)
    (hcall : (after opts ls).calls k = some call) :
    (call.verdict = none → call.firstAnswer (after opts ls).received = none) ∧
      ∀ verdict answer, call.verdict = some verdict → passedOn verdict = some answer →
        call.firstAnswer (after opts ls).received = some answer := by
  have h : IsPaired (after opts ls) := Transition.run_invariant (step_matched opts) Paired.new hnew
  exact ⟨(h.took k call hcall).waits, (h.took k call hcall).passes⟩

/-- Two calls over one socket, the second of which is answered first. -/
def sampleCalls : List (TransportLabel Nat Unit Unit) :=
  [.dispatch, .socketOpened 0, .dispatch, .resumeDispatch 0 "a" false, .resumeDispatch 1 "b" false,
    .socketMessage 0 (.dispatchResult "b" 80), .socketMessage 0 (.dispatchResult "b" 81)]

theorem calls_take_first_answer_sample :
    ∃ call, (after ⟨1000, 5⟩ sampleCalls).calls 1 = some call ∧ call.verdict = some (.ok 80) ∧
      call.firstAnswer (after ⟨1000, 5⟩ sampleCalls).received = some (.ok 80) := by
  have hnew : Transition.StepsMeet (step ⟨1000, 5⟩) DrawsNew new sampleCalls := by
    refine ⟨trivial, trivial, trivial, ?_, ?_, trivial, trivial, trivial⟩
    · rintro (_ | _ | k) call hcall hid
      · cases hcall
        cases hid
      · cases hcall
        cases hid
      · cases hcall
    · rintro (_ | _ | k) call hcall hid
      · cases hcall
        exact absurd (Option.some.inj hid) (by decide)
      · cases hcall
        cases hid
      · cases hcall
  exact ⟨_, rfl, rfl, (calls_take_first_answer ⟨1000, 5⟩ sampleCalls hnew 1 _ rfl).2 _ _ rfl rfl⟩

end WebSocketTransport

/-! ## The updates of a stream -/

/-- The update of a task that a frame brings. -/
def updateOf (taskId : String) : WebSocketResponse ρ ε υ → Option υ
  | .taskStatus t update => if t = taskId then some update else none
  | .dispatchResult _ _  => none
  | .dispatchError _ _   => none
  | .other               => none

/-- The updates of its task that came since a stream began. -/
def updatesSince (received : List (WebSocketResponse ρ ε υ)) (stream : StatusStream υ) : List υ :=
  (received.drop stream.since).filterMap (updateOf stream.taskId)

@[simp] theorem updateOf_taskStatus (t taskId : String) (update : υ) :
    updateOf t (.taskStatus taskId update : WebSocketResponse ρ ε υ) =
      if taskId = t then some update else none := rfl

theorem updatesSince_append (response : WebSocketResponse ρ ε υ) (stream : StatusStream υ)
    {received : List (WebSocketResponse ρ ε υ)} (hsince : stream.since ≤ received.length) :
    updatesSince (received ++ [response]) stream =
      updatesSince received stream ++ (updateOf stream.taskId response).toList := by
  unfold updatesSince
  rw [List.drop_append_of_le_length hsince, List.filterMap_append]
  cases hupdate : updateOf stream.taskId response <;> simp [hupdate]

/-- What the transport keeps about its streams: each has the first of the updates there are, and one
that is registered and live has them all. -/
structure Streaming (b : Board υ) (received : List (WebSocketResponse ρ ε υ)) : Prop where
  unborn     : ∀ j, b.nextStream ≤ j → b.streams j = none
  since      : ∀ j stream, b.streams j = some stream → stream.since ≤ received.length
  waits      : ∀ j stream socket, b.streams j = some stream → stream.phase = .ensuring socket →
    stream.chunks = []
  first      : ∀ j stream, b.streams j = some stream → stream.chunks <+: updatesSince received stream
  registered : ∀ taskId j, b.statusStreams.get taskId = some j → ∃ stream,
    b.streams j = some stream ∧ stream.taskId = taskId ∧ (∀ socket, stream.phase ≠ .ensuring socket) ∧
    (stream.phase = .live → stream.chunks = updatesSince received stream)

namespace Streaming

variable {b : Board υ} {received : List (WebSocketResponse ρ ε υ)} {j : Nat}
  {stream d : StatusStream υ} {taskId : String}

theorem owner (h : Streaming b received) (hstream : b.streams j = some stream)
    (hget : b.statusStreams.get taskId = some j) : taskId = stream.taskId := by
  obtain ⟨d, hd, htask, -⟩ := h.registered taskId j hget
  cases hstream.symm.trans hd
  exact htask.symm

/-- A stream is made, begun, has an update more, or is over, and may be registered for its task. -/
theorem update {n : Nat} {status : OrderedMap String Nat} (h : Streaming b received) (hj : j < n)
    (hn : b.nextStream ≤ n) (hsince : d.since ≤ received.length)
    (hwaits : ∀ socket, d.phase = .ensuring socket → d.chunks = [])
    (hfirst : d.chunks <+: updatesSince received d)
    (hstatus : ∀ t i, status.get t = some i →
      (i = j ∧ t = d.taskId ∧ (∀ socket, d.phase ≠ .ensuring socket) ∧
        (d.phase = .live → d.chunks = updatesSince received d)) ∨
      (i ≠ j ∧ b.statusStreams.get t = some i)) :
    Streaming ⟨status, Function.update b.streams j (some d), n⟩ received := by
  have hstreams : ∀ i, Function.update b.streams j (some d) i =
      if i = j then some d else b.streams i := Function.update_apply b.streams j (some d)
  refine ⟨?_, ?_, ?_, ?_, ?_⟩
  · intro i hi
    have hi' : n ≤ i := hi
    exact (hstreams i).trans ((if_neg (by omega)).trans (h.unborn i (by omega)))
  · intro i e he
    have he' := (hstreams i).symm.trans he
    split at he'
    · cases he'
      exact hsince
    · exact h.since i e he'
  · intro i e socket he hphase
    have he' := (hstreams i).symm.trans he
    split at he'
    · cases he'
      exact hwaits socket hphase
    · exact h.waits i e socket he' hphase
  · intro i e he
    have he' := (hstreams i).symm.trans he
    split at he'
    · cases he'
      exact hfirst
    · exact h.first i e he'
  · intro t i hget
    rcases hstatus t i hget with ⟨rfl, ht, hbegun, hlive⟩ | ⟨hne, hold⟩
    · exact ⟨d, (hstreams i).trans (if_pos rfl), ht.symm, hbegun, hlive⟩
    · obtain ⟨e, he, hrest⟩ := h.registered t i hold
      exact ⟨e, (hstreams i).trans ((if_neg hne).trans he), hrest⟩

theorem lt_nextStream (h : Streaming b received) (hstream : b.streams j = some stream) :
    j < b.nextStream := by
  by_contra hge
  rw [h.unborn j (Nat.le_of_not_lt hge)] at hstream
  cases hstream

theorem finish {phase : StreamPhase} (h : Streaming b received) (hstream : b.streams j = some stream)
    (hlive : phase ≠ .live) (hbegun : ∀ socket, phase ≠ .ensuring socket) (rejected : Bool) :
    Streaming { b with
      streams := Function.update b.streams j
        (some { stream with phase := phase, rejected := rejected }) } received := by
  refine h.update (d := { stream with phase := phase, rejected := rejected }) (h.lt_nextStream hstream)
    (Nat.le_refl _) (h.since j stream hstream) (fun socket heq => absurd heq (hbegun socket))
    (h.first j stream hstream) ?_
  intro t i hget
  by_cases hi : i = j
  · subst hi
    have howner := h.owner hstream hget
    exact .inl ⟨rfl, howner, hbegun, fun heq => absurd heq hlive⟩
  · exact .inr ⟨hi, hget⟩

theorem unregister (h : Streaming b received) (taskId : String) :
    Streaming { b with statusStreams := b.statusStreams.delete taskId } received := by
  refine ⟨h.unborn, h.since, h.waits, h.first, ?_⟩
  intro t i hget
  have hget' := (OrderedMap.get_delete b.statusStreams taskId t).symm.trans hget
  split at hget'
  · cases hget'
  · exact h.registered t i hget'

theorem receive (h : Streaming b received) (response : WebSocketResponse ρ ε υ)
    (hother : ∀ t i, b.statusStreams.get t = some i → updateOf t response = none) :
    Streaming b (received ++ [response]) := by
  refine ⟨h.unborn, ?_, h.waits, ?_, ?_⟩
  · intro i d hd
    refine Nat.le_trans (h.since i d hd) ?_
    simp
  · intro i d hd
    rw [updatesSince_append response d (h.since i d hd)]
    exact (h.first i d hd).trans (List.prefix_append _ _)
  · intro t i hget
    obtain ⟨d, hd, htask, hphase, hwhole⟩ := h.registered t i hget
    refine ⟨d, hd, htask, hphase, fun hlive => ?_⟩
    rw [updatesSince_append response d (h.since i d hd), htask, hother t i hget, hwhole hlive]
    exact (List.append_nil _).symm

end Streaming

namespace WebSocketTransport

variable {s : WebSocketTransport ρ ε υ}

/-- The invariant of a state. -/
def IsStreaming (s : WebSocketTransport ρ ε υ) : Prop := Streaming s.toBoard s.received

theorem IsStreaming.frame {t : WebSocketTransport ρ ε υ} (h : s.IsStreaming)
    (hboard : t.toBoard = s.toBoard) (hreceived : t.received = s.received) : t.IsStreaming := by
  unfold IsStreaming
  rw [hboard, hreceived]
  exact h

/-- An update goes to the stream of its task. -/
theorem enqueueUpdate_streaming (h : s.IsStreaming) (taskId : String) (update : υ) :
    IsStreaming (enqueueUpdate taskId update
      { s with received := s.received ++ [.taskStatus taskId update] }) := by
  -- Without the stream of the task, the frame brings nothing for those that are registered.
  have hothers := (Streaming.unregister h taskId).receive (.taskStatus taskId update) (by
    intro t i hget
    rw [updateOf_taskStatus, if_neg]
    rintro rfl
    rw [OrderedMap.get_delete, if_pos rfl] at hget
    cases hget)
  unfold enqueueUpdate
  dsimp only
  split
  · rename_i hget
    refine Streaming.receive h _ fun t i hi => ?_
    rw [updateOf_taskStatus, if_neg]
    rintro rfl
    cases hget.symm.trans hi
  · rename_i i hget
    obtain ⟨d, hd, htask, hbegun, hwhole⟩ := h.registered taskId i hget
    rw [hd]
    dsimp only
    split
    · rename_i hlive
      have hall : d.chunks ++ [update] =
          updatesSince (s.received ++ [.taskStatus taskId update]) d := by
        rw [updatesSince_append (.taskStatus taskId update) d (h.since i d hd), updateOf_taskStatus,
          if_pos htask.symm, hwhole hlive]
        rfl
      refine hothers.update (d := { d with chunks := d.chunks ++ [update] }) (h.lt_nextStream hd)
        (Nat.le_refl _) (hothers.since i d hd) (fun socket heq => absurd heq (hbegun socket))
        (hall ▸ List.prefix_refl _) ?_
      intro t k hk
      by_cases ht : taskId = t
      · subst ht
        cases hget.symm.trans hk
        exact .inl ⟨rfl, htask.symm, hbegun, fun _ => hall⟩
      · refine .inr ⟨?_, ?_⟩
        · rintro rfl
          exact ht (htask.symm.trans (h.owner hd hk).symm)
        · exact (OrderedMap.get_delete s.statusStreams taskId t).trans ((if_neg ht).trans hk)
    · exact hothers

theorem resumeStream_streaming (h : s.IsStreaming) (j : Nat) (throws : Bool) :
    IsStreaming (s.resumeStream j throws) := by
  unfold resumeStream
  split
  · exact h
  · rename_i stream hstream
    split
    · rename_i socket hphase
      split
      · exact h
      · exact Streaming.finish h hstream (by simp) (by simp) stream.rejected
      · have hnone : stream.chunks = [] := h.waits j stream socket hstream hphase
        have hbegin : ∀ rejected, Streaming
            ⟨s.statusStreams.set stream.taskId j, Function.update s.streams j (some { stream with
              phase := .live, since := s.received.length, rejected := rejected }), s.nextStream⟩
            s.received := by
          intro rejected
          refine Streaming.update h (h.lt_nextStream hstream) (Nat.le_refl _) (Nat.le_refl _)
            (by simp) ?_ ?_
          · rw [hnone]
            exact List.nil_prefix
          · intro t i hget
            rw [OrderedMap.get_set] at hget
            split at hget
            · rename_i ht
              cases hget
              refine .inl ⟨rfl, ht.symm, by simp, fun _ => ?_⟩
              unfold updatesSince
              dsimp only
              rw [List.drop_length, hnone]
              rfl
            · refine .inr ⟨?_, hget⟩
              -- The stream that is begun was not registered before.
              rintro rfl
              obtain ⟨d, hd, -, hbegun, -⟩ := h.registered t i hget
              cases hstream.symm.trans hd
              exact hbegun socket hphase
        exact hbegin _
    · exact h

theorem socketMessage_streaming (h : s.IsStreaming) (n : Nat) (response : WebSocketResponse ρ ε υ) :
    IsStreaming (s.socketMessage n response) := by
  have hanswer : ∀ id verdict, (∀ t, updateOf t response = none) →
      IsStreaming (answer id verdict { s with received := s.received ++ [response] }) := by
    intro id verdict hnone
    have hcame := Streaming.receive h response fun t _ _ => hnone t
    unfold answer
    split <;> exact hcame
  unfold socketMessage
  split
  · cases response with
    | dispatchResult id result => exact hanswer id _ fun _ => rfl
    | dispatchError id error => exact hanswer id _ fun _ => rfl
    | taskStatus taskId update => exact enqueueUpdate_streaming h taskId update
    | other => exact Streaming.receive h .other fun _ _ _ => rfl
  · exact h

theorem closeStreams_streaming (h : s.IsStreaming) (es : List (String × Nat)) :
    (closeStreams es s).2.IsStreaming := by
  induction es generalizing s with
  | nil => exact h
  | cons e es ih =>
      unfold closeStreams
      split
      · exact h
      · rename_i stream hstream
        split
        · exact ih (Streaming.finish h hstream (by simp) (by simp) stream.rejected)
        · exact h

theorem close_streaming (h : s.IsStreaming) : s.close.IsStreaming := by
  unfold close
  rw [rejectPending_eq]
  dsimp only
  have hclosed := closeStreams_streaming (s := { s with
    shouldReconnect := false
    isIntentionallyClosed := true
    pendingRequests := .empty
    calls := fun k =>
      if k ∈ s.pendingRequests.entries.map Prod.snd then
        (s.calls k).map (DispatchCall.settle (.error .closed))
      else s.calls k }) h s.statusStreams.entries
  split
  · rename_i w heq
    rw [heq] at hclosed
    exact hclosed
  · rename_i w heq
    rw [heq] at hclosed
    obtain ⟨-, hboard, hreceived⟩ := closeSocket_tends { w with statusStreams := .empty }
    refine IsStreaming.frame (s := { w with statusStreams := .empty }) ?_ hboard hreceived
    refine ⟨hclosed.unborn, hclosed.since, hclosed.waits, hclosed.first, ?_⟩
    intro t i hget
    cases hget

theorem step_streaming (opts : WebSocketOptions) (s : WebSocketTransport ρ ε υ)
    (l : TransportLabel ρ ε υ) (h : s.IsStreaming) : (s.step opts l).IsStreaming := by
  have htended : TendsConnection l → (s.step opts l).IsStreaming := by
    intro hl
    obtain ⟨-, hboard, hreceived⟩ := step_tends opts s hl
    exact h.frame hboard hreceived
  have hcalls : TendsCalls l → (s.step opts l).IsStreaming := by
    intro hl
    obtain ⟨hboard, hreceived, -⟩ := call_frame opts s hl
    exact h.frame hboard hreceived
  cases l with
  | connect => exact htended .connect
  | dispatch => exact hcalls .dispatch
  | streamTaskStatus taskId =>
      obtain ⟨-, hboard, hreceived⟩ := connect_tends s
      have hconnected : s.connect.2.IsStreaming := h.frame hboard hreceived
      refine Streaming.update hconnected (Nat.lt_succ_self _) (Nat.le_succ _) (Nat.le_refl _)
        (fun _ _ => rfl) List.nil_prefix ?_
      intro t i hget
      refine .inr ⟨?_, hget⟩
      obtain ⟨d, hd, -⟩ := hconnected.registered t i hget
      exact Nat.ne_of_lt (hconnected.lt_nextStream hd)
  | cancelStream j =>
      unfold step cancelStream
      dsimp only
      split
      · exact h
      · rename_i stream hstream
        split
        · exact (Streaming.finish h hstream (by simp) (by simp) stream.rejected).unregister stream.taskId
        · exact h
  | close => exact close_streaming h
  | socketOpened n => exact htended (.opened n)
  | socketErrored n => exact htended (.errored n)
  | socketClosed n => exact htended (.closed n)
  | socketMessage n response => exact socketMessage_streaming h n response
  | connectionTimeout n => exact htended (.timeout n)
  | resumeDispatch k id throws => exact hcalls (.resume k id throws)
  | dispatchRejected k => exact hcalls (.rejected k)
  | dispatchTimeout k => exact hcalls (.timeout k)
  | resumeStream j throws => exact resumeStream_streaming h j throws
  | streamRejected j =>
      unfold step streamRejected
      dsimp only
      split
      · exact h
      · rename_i stream hstream
        split
        · exact Streaming.finish h hstream (by simp) (by simp) false
        · exact h
  | reconnectTimer i => exact htended (.timer i)
  | resumeReconnect i => exact htended (.attempt i)

theorem new_streaming : IsStreaming (new : WebSocketTransport ρ ε υ) where
  unborn _ _ := rfl
  since      := by
    intro j stream hstream
    cases hstream
  waits      := by
    intro j stream socket hstream
    cases hstream
  first      := by
    intro j stream hstream
    cases hstream
  registered := by
    intro taskId j hget
    cases hget

/-- **A subscription misses no update while it is registered.** In every state that the transport
reaches, whatever was lost and made anew: what a stream has is what came for its task first since it
began, in the order in which it came and each update once, and a stream that is live and registered has
all of it. -/
theorem streams_keep_up (opts : WebSocketOptions) (ls : List (TransportLabel ρ ε υ)) :
    (∀ j stream, (after opts ls).streams j = some stream →
      stream.chunks <+: updatesSince (after opts ls).received stream) ∧
    ∀ taskId j, (after opts ls).statusStreams.get taskId = some j → ∃ stream,
      (after opts ls).streams j = some stream ∧ stream.taskId = taskId ∧
      (stream.phase = .live → stream.chunks = updatesSince (after opts ls).received stream) := by
  have h : IsStreaming (after opts ls) := Transition.run_preserves (step_streaming opts) ls new_streaming
  refine ⟨h.first, ?_⟩
  intro taskId j hget
  obtain ⟨stream, hstream, htask, -, hwhole⟩ := h.registered taskId j hget
  exact ⟨stream, hstream, htask, hwhole⟩

end WebSocketTransport

end MapProtocol.Sdk.TypeScript
