import MapProtocol.Core.Semantics
import MapProtocol.Map

/-!
# `check` and `run`

`check` and the `onDecision` hook evaluate the intent as it was built, `run` acts on the intent that
the executor has normalised, and the intent of `check` has an id of its own. They tell the same
story as long as no rule that is met tells these intents apart.
-/

namespace MapProtocol

open Js

namespace MapInstance

variable (env : MapEnv)

/-- `check(capability, input, options)`, on the uuid that it draws. The decision that `run` reports
to `onDecision` is the same expression, on the uuid of the run. -/
def check (uuid : Nat) (capability : String) (input : JsObject) (options : RunOptions)
    (m : MapInstance) : Except String PolicyDecision :=
  evaluate env.regExp (buildIntent env uuid capability input options) m.policyDoc

/-! ## Reachable instances -/

/-- The number of the call that an event belongs to. -/
def eventCall : MapEvent → Nat
  | .executed call _ _ _ => call
  | .answered call _     => call
  | .returned call _     => call
  | .threw call _        => call

/-- What holds of an instance however it is used. -/
structure Sound (m : MapInstance) : Prop where
  policy    : m.executorPolicy = m.policyDoc
  handlers  : ∀ capability adapter, m.adapters.get capability = some adapter →
    ∀ input, adapter.validate input = ⟨true, []⟩
  calls     : ∀ call ∈ m.calls, call.id < m.nextCall
  notifying : ∀ run ∈ m.notifying, run.1 < m.nextCall
  history   : ∀ event ∈ m.history, eventCall event < m.nextCall

variable {env} {m : MapInstance}

/-- A call that is over answers, and touches nothing else but what is pending. -/
theorem complete_eq (call : MapCall) (result : MapResult) (m : MapInstance) :
    ∃ pending, complete call result m =
      { log (.answered call.id result) m with pendingApprovals := pending } := by
  unfold complete
  dsimp only
  split
  · exact ⟨_, rfl⟩
  · exact ⟨m.pendingApprovals, rfl⟩

/-- New events and calls carry numbers that were given out. -/
theorem Sound.onward (h : Sound m) {m' : MapInstance}
    (hpolicy : m'.executorPolicy = m'.policyDoc) (hadapters : m'.adapters = m.adapters)
    (hnext : m.nextCall ≤ m'.nextCall)
    (hcalls : ∀ call ∈ m'.calls, call ∈ m.calls ∨ call.id < m'.nextCall)
    (hnotifying : ∀ run ∈ m'.notifying, run ∈ m.notifying)
    (hhistory : ∀ event ∈ m'.history, event ∈ m.history ∨ eventCall event < m'.nextCall) :
    Sound m' where
  policy := hpolicy
  handlers := by rw [hadapters]; exact h.handlers
  calls call hmem := by
    rcases hcalls call hmem with hold | hnew
    · exact (h.calls call hold).trans_le hnext
    · exact hnew
  notifying run hmem := (h.notifying run (hnotifying run hmem)).trans_le hnext
  history event hmem := by
    rcases hhistory event hmem with hold | hnew
    · exact (h.history event hold).trans_le hnext
    · exact hnew

theorem Sound.log (h : Sound m) {event : MapEvent} (hevent : eventCall event < m.nextCall) :
    Sound (log event m) :=
  h.onward h.policy rfl (Nat.le_refl _) (fun _ hmem => .inl hmem) (fun _ hmem => hmem) fun e hmem => by
    rcases List.mem_cons.mp hmem with rfl | hold
    · exact .inr hevent
    · exact .inl hold

theorem Sound.complete (h : Sound m) {call : MapCall} (hcall : call.id < m.nextCall)
    (result : MapResult) : Sound (complete call result m) := by
  obtain ⟨pending, heq⟩ := complete_eq call result m
  have hlogged := @Sound.log _ h (.answered call.id result) hcall
  rw [heq]
  exact ⟨hlogged.policy, hlogged.handlers, hlogged.calls, hlogged.notifying, hlogged.history⟩

theorem Sound.conclude (h : Sound m) {call : MapCall} (hcall : call.id < m.nextCall)
    (result : MapResult) : Sound (conclude env call result m) := by
  unfold MapInstance.conclude
  split
  · refine ⟨h.policy, h.handlers, h.calls, fun run hmem => ?_, h.history⟩
    rcases List.mem_append.mp hmem with hold | hnew
    · exact h.notifying run hold
    · rw [List.mem_singleton.mp hnew]
      exact hcall
  · exact h.log hcall

theorem Sound.suspend (h : Sound m) {call : MapCall} (hcall : call.id < m.nextCall) :
    Sound (suspend call m) := by
  refine h.onward h.policy rfl (Nat.le_refl _) (fun c hmem => ?_) (fun _ hmem => hmem)
    (fun event hmem => ?_)
  · rcases List.mem_append.mp hmem with hold | hnew
    · exact .inl hold
    · rw [List.mem_singleton.mp hnew]
      exact .inr hcall
  · unfold MapInstance.suspend at hmem
    dsimp only at hmem
    split at hmem
    · rcases List.mem_cons.mp hmem with rfl | hold
      · exact .inr hcall
      · exact .inl hold
    · exact .inl hmem

theorem Sound.numbered (h : Sound m) (uuids : Nat) :
    Sound { m with nextCall := m.nextCall + 1, nextUuid := m.nextUuid + uuids } :=
  h.onward h.policy rfl (Nat.le_succ _) (fun _ hmem => .inl hmem) (fun _ hmem => hmem)
    (fun _ hmem => .inl hmem)

theorem sound_run (h : Sound m) (capability : String) (input : JsObject) (options : RunOptions) :
    Sound (run env capability input options m) := by
  unfold run
  dsimp only
  split
  · exact (h.numbered 1).log (Nat.lt_succ_self _)
  · exact (h.numbered 1).suspend (Nat.lt_succ_self _)

theorem sound_approve (h : Sound m) (reference : String) : Sound (approve env reference m) := by
  unfold approve
  dsimp only
  split
  · exact (h.numbered 0).log (Nat.lt_succ_self _)
  · have hnumbered := h.numbered 0
    have htaken : Sound { m with
        nextCall := m.nextCall + 1
        pendingApprovals := m.pendingApprovals.delete reference } :=
      ⟨hnumbered.policy, hnumbered.handlers, hnumbered.calls, hnumbered.notifying, hnumbered.history⟩
    exact htaken.suspend (Nat.lt_succ_self _)

theorem sound_resume (h : Sound m) (id : Nat)
    (outcome : Except (Option String) (Option JsObject)) : Sound (resume env id outcome m) := by
  unfold resume
  split
  · exact h
  · rename_i call hfind
    have hcall := h.calls call (List.mem_of_find?_eq_some hfind)
    have hover : Sound { m with calls := m.calls.eraseP (·.id == id) } :=
      h.onward h.policy rfl (Nat.le_refl _) (fun _ hmem => .inl (List.mem_of_mem_eraseP hmem))
        (fun _ hmem => hmem) (fun _ hmem => .inl hmem)
    have hdone : ∀ result, Sound (conclude env call result (complete call result
        { m with calls := m.calls.eraseP (·.id == id) })) := by
      intro result
      obtain ⟨pending, heq⟩ := complete_eq call result { m with calls := m.calls.eraseP (·.id == id) }
      have hcompleted := hover.complete hcall result
      rw [heq] at hcompleted ⊢
      exact hcompleted.conclude hcall result
    dsimp only
    split
    · exact hover.log hcall
    · exact hdone _
    · exact hover.log hcall
    · exact hdone _

theorem sound_notified (h : Sound m) (id : Nat) (outcome : Except (Option String) Unit) :
    Sound (notified id outcome m) := by
  unfold notified
  split
  · exact h
  · rename_i result hfind
    have hid : id < m.nextCall := by
      have hrun := h.notifying _ (List.mem_of_find?_eq_some hfind)
      have heq := List.find?_some hfind
      rwa [beq_iff_eq.mp heq] at hrun
    have hover : Sound { m with notifying := m.notifying.eraseP (·.1 == id) } :=
      h.onward h.policy rfl (Nat.le_refl _) (fun _ hmem => .inl hmem)
        (fun _ hmem => List.mem_of_mem_eraseP hmem) (fun _ hmem => .inl hmem)
    dsimp only
    split
    · exact hover.log hid
    · exact hover.log hid

theorem sound_step (h : Sound m) (l : MapLabel) : Sound (step env m l) := by
  cases l with
  | can capability =>
      refine ⟨h.policy, fun name adapter hget input => ?_, h.calls, h.notifying, h.history⟩
      have hset : (m.adapters.set capability ⟨fun _ => ⟨true, []⟩⟩).get name = some adapter := hget
      rw [OrderedMap.get_set] at hset
      split at hset
      · obtain rfl := Option.some.inj hset
        rfl
      · exact h.handlers name adapter hset input
  | run capability input options => exact sound_run h capability input options
  | approve reference => exact sound_approve h reference
  | setPolicy policy => exact ⟨rfl, h.handlers, h.calls, h.notifying, h.history⟩
  | resume id outcome => exact sound_resume h id outcome
  | notified id outcome => exact sound_notified h id outcome
  | tick ms => exact ⟨h.policy, h.handlers, h.calls, h.notifying, h.history⟩

theorem reached_sound (env : MapEnv) (policy : PolicyDocument) (now : Nat) (ls : List MapLabel) :
    Sound (Transition.run (step env) (init policy now) ls) := by
  have hinit : Sound (init policy now) := by
    refine ⟨rfl, fun _ _ h => ?_, fun _ h => ?_, fun _ h => ?_, fun _ h => ?_⟩
    all_goals cases h
  exact Transition.run_preserves (I := Sound) (fun _ l h => sound_step h l) ls hinit

/-! ## What a run does

A run gets to the executor unless evaluating the decision for its hook throws. -/

section

variable (env) (capability : String) (input : JsObject) (options : RunOptions) (m : MapInstance)

/-- The run starts the handler. -/
def Invokes : Prop :=
  ∃ intent policy,
    .executed m.nextCall .run intent policy ∈ (run env capability input options m).history

/-- When the run goes on, it comes to the result. -/
def Answers (outcome : Except (Option String) (Option JsObject)) (result : MapResult) : Prop :=
  .answered m.nextCall result ∈
    (resume env m.nextCall outcome (run env capability input options m)).history

/-- The run is answered with an approval reference. -/
def AsksApproval : Prop :=
  ∀ outcome, ∃ result reference, Answers env capability input options m outcome result ∧
    result.approvalReference = some reference

def IsDenied : Prop :=
  ∀ outcome, ∃ result, Answers env capability input options m outcome result ∧
    result.status = .denied

end

/-- The call of a run that was not stopped by its hook. -/
def runCall (env : MapEnv) (capability : String) (input : JsObject) (options : RunOptions)
    (m : MapInstance) : MapCall :=
  let intent := buildIntent env m.nextUuid capability input options
  ⟨m.nextCall, .run, intent,
    m.executor.execute env.regExp m.now (env.uuid (m.nextUuid + 1)) intent⟩

/-- The instance in which a run has drawn its numbers. -/
def drawn (m : MapInstance) : MapInstance :=
  { m with nextCall := m.nextCall + 1, nextUuid := m.nextUuid + 1 }

variable {capability : String} {input : JsObject} {options : RunOptions}

/-- A run is stopped only by a hook whose evaluation throws. -/
theorem run_cases :
    run env capability input options m = suspend (runCall env capability input options m) m.drawn ∨
      (∃ message, run env capability input options m =
        log (.threw m.nextCall (some message)) m.drawn ∧
        check env m.nextUuid capability input options m = .error message) := by
  unfold run
  dsimp only
  split
  · rename_i message hdecision
    right
    split at hdecision
    · cases hcheck : evaluate env.regExp (buildIntent env m.nextUuid capability input options)
        m.policyDoc with
      | error e =>
          rw [hcheck] at hdecision
          obtain rfl := Except.error.inj hdecision
          exact ⟨_, rfl, hcheck⟩
      | ok decision =>
          rw [hcheck] at hdecision
          cases hdecision
    · cases hdecision
  · exact .inl rfl

theorem invokes_of_suspended (h : Sound m)
    (hrun : run env capability input options m =
      suspend (runCall env capability input options m) m.drawn) :
    Invokes env capability input options m ↔
      ∃ intent context, (runCall env capability input options m).invocation =
        .adapter intent context := by
  unfold Invokes
  rw [hrun]
  unfold suspend
  dsimp only
  constructor
  · rintro ⟨intent, policy, hmem⟩
    split at hmem
    · rename_i handed context hinvocation
      exact ⟨handed, context, hinvocation⟩
    · exact absurd (h.history _ hmem) (Nat.lt_irrefl _)
  · rintro ⟨intent, context, hinvocation⟩
    rw [hinvocation]
    exact ⟨intent, m.policyDoc, List.mem_cons_self ..⟩

/-- The run's call is found again: no other has its number. -/
theorem find_runCall (h : Sound m)
    (hrun : run env capability input options m =
      suspend (runCall env capability input options m) m.drawn) :
    (run env capability input options m).calls.find? (·.id == m.nextCall) =
      some (runCall env capability input options m) := by
  have hcalls : (run env capability input options m).calls =
      m.calls ++ [runCall env capability input options m] := by
    rw [hrun]
    rfl
  have hnone : m.calls.find? (·.id == m.nextCall) = none := by
    rw [List.find?_eq_none]
    intro call hcall
    simpa using Nat.ne_of_lt (h.calls call hcall)
  rw [hcalls, List.find?_append, hnone]
  simp [runCall]

/-- Resuming the run answers with one result, if with any. -/
theorem answers_complete (h : Sound m)
    {outcome : Except (Option String) (Option JsObject)} {answer result : MapResult}
    (hresume : ∃ calls, resume env m.nextCall outcome (run env capability input options m) =
      conclude env (runCall env capability input options m) answer
        (complete (runCall env capability input options m) answer
          { run env capability input options m with calls := calls }))
    (hrun : run env capability input options m =
      suspend (runCall env capability input options m) m.drawn) :
    Answers env capability input options m outcome result ↔ result = answer := by
  obtain ⟨calls, hresume⟩ := hresume
  obtain ⟨pending, hcomplete⟩ := complete_eq (runCall env capability input options m) answer
    { run env capability input options m with calls := calls }
  -- what comes after the result is no other result
  have hconclude : ∀ m' : MapInstance, .answered m.nextCall result ∈ (conclude env
      (runCall env capability input options m) answer m').history ↔
        .answered m.nextCall result ∈ m'.history := by
    intro m'
    unfold conclude
    split
    · exact Iff.rfl
    · simp [log]
  unfold Answers
  rw [hresume, hconclude, hcomplete]
  constructor
  · intro hmem
    rcases List.mem_cons.mp hmem with heq | hold
    · exact (MapEvent.answered.inj heq).2
    · -- what the run itself logged is at most the start of the handler
      have hold : .answered m.nextCall result ∈ (run env capability input options m).history := hold
      rw [hrun] at hold
      unfold suspend at hold
      dsimp only at hold
      split at hold
      · rcases List.mem_cons.mp hold with heq | hold
        · cases heq
        · exact absurd (h.history _ hold) (Nat.lt_irrefl _)
      · exact absurd (h.history _ hold) (Nat.lt_irrefl _)
  · rintro rfl
    exact List.mem_cons_self ..

theorem resume_refused (h : Sound m)
    (hrun : run env capability input options m =
      suspend (runCall env capability input options m) m.drawn) {receipt : CoreReceipt}
    (hinvocation : (runCall env capability input options m).invocation = .refused receipt)
    (outcome : Except (Option String) (Option JsObject)) (result : MapResult) :
    Answers env capability input options m outcome result ↔
      result = resultOfReceipt receipt (buildIntent env m.nextUuid capability input options) := by
  refine answers_complete h ⟨(run env capability input options m).calls.eraseP
    (·.id == m.nextCall), ?_⟩ hrun
  unfold resume
  rw [find_runCall h hrun]
  dsimp only
  rw [hinvocation]
  rfl

theorem resume_adapter (h : Sound m)
    (hrun : run env capability input options m =
      suspend (runCall env capability input options m) m.drawn) {intent : Intent}
    {context : ExecutionContext}
    (hinvocation : (runCall env capability input options m).invocation = .adapter intent context)
    (result : MapResult) :
    Answers env capability input options m (.ok none) result ↔
      result = resultOfExecution m.now ⟨context.intentId, intent.capability, .ok, [],
        intent.capability ++ " executed"⟩ := by
  refine answers_complete h ⟨(run env capability input options m).calls.eraseP
    (·.id == m.nextCall), ?_⟩ hrun
  have hnow : (run env capability input options m).now = m.now := by
    rw [hrun]
    rfl
  unfold resume
  rw [find_runCall h hrun]
  dsimp only
  rw [hinvocation, hnow]
  rfl

theorem resume_rejected (h : Sound m)
    (hrun : run env capability input options m =
      suspend (runCall env capability input options m) m.drawn) {message : String}
    (hinvocation : (runCall env capability input options m).invocation = .rejected message)
    (outcome : Except (Option String) (Option JsObject)) (result : MapResult) :
    ¬ Answers env capability input options m outcome result := by
  unfold Answers resume
  rw [find_runCall h hrun]
  dsimp only
  rw [hinvocation]
  intro hmem
  rcases List.mem_cons.mp hmem with heq | hold
  · cases heq
  · have hold : .answered m.nextCall result ∈ (run env capability input options m).history := hold
    rw [hrun] at hold
    unfold suspend at hold
    dsimp only at hold
    rw [hinvocation] at hold
    exact absurd (h.history _ hold) (Nat.lt_irrefl _)

/-- A run that its hook stopped neither starts the handler nor answers. -/
theorem stopped (h : Sound m) {message : String}
    (hrun : run env capability input options m =
      log (.threw m.nextCall (some message)) m.drawn) :
    ¬ Invokes env capability input options m ∧
      ∀ outcome result, ¬ Answers env capability input options m outcome result := by
  constructor
  · rintro ⟨intent, policy, hmem⟩
    rw [hrun] at hmem
    rcases List.mem_cons.mp hmem with heq | hold
    · cases heq
    · exact absurd (h.history _ hold) (Nat.lt_irrefl _)
  · intro outcome result hmem
    have hnone : (run env capability input options m).calls.find? (·.id == m.nextCall) = none := by
      rw [hrun, List.find?_eq_none]
      intro call hcall
      simpa using Nat.ne_of_lt (h.calls call hcall)
    unfold Answers resume at hmem
    rw [hnone, hrun] at hmem
    rcases List.mem_cons.mp hmem with heq | hold
    · cases heq
    · exact absurd (h.history _ hold) (Nat.lt_irrefl _)

theorem no_answer (hsilent : ∀ outcome result, ¬ Answers env capability input options m outcome result) :
    ¬ AsksApproval env capability input options m ∧ ¬ IsDenied env capability input options m := by
  constructor
  · intro happroval
    obtain ⟨result, _, hanswers, _⟩ := happroval (.ok none)
    exact hsilent _ _ hanswers
  · intro hdenied
    obtain ⟨result, hanswers, _⟩ := hdenied (.ok none)
    exact hsilent _ _ hanswers

theorem not_asksApproval {answer : MapResult}
    (hanswers : ∀ result, Answers env capability input options m (.ok none) result ↔ result = answer)
    (hreference : answer.approvalReference = none) :
    ¬ AsksApproval env capability input options m := by
  intro happroval
  obtain ⟨result, reference, hanswer, hgiven⟩ := happroval (.ok none)
  rw [(hanswers result).mp hanswer, hreference] at hgiven
  cases hgiven

theorem not_isDenied {answer : MapResult}
    (hanswers : ∀ result, Answers env capability input options m (.ok none) result ↔ result = answer)
    (hstatus : answer.status ≠ .denied) : ¬ IsDenied env capability input options m := by
  intro hdenied
  obtain ⟨result, hanswer, hgiven⟩ := hdenied (.ok none)
  exact hstatus ((hanswers result).mp hanswer ▸ hgiven)

/-! ## A run acts on its gate -/

/-- The decision that the run acts on. -/
def runGate (env : MapEnv) (capability : String) (input : JsObject) (options : RunOptions)
    (m : MapInstance) : Option Gate :=
  Executor.decision env.regExp m.policyDoc (buildIntent env m.nextUuid capability input options)

/-- A valid intent reaches the handler of its capability, which takes any input. -/
theorem Sound.reaches_handler (h : Sound m) {intent : Intent}
    (hhandler : (m.adapters.get intent.capability).isSome = true)
    (hvalid : (validateIntent intent).valid = true) (generatedId : String) :
    ∃ context, m.executor.executeNormalizedIntent generatedId (normalizeIntent intent) =
      .adapter (normalizeIntent intent) context := by
  obtain ⟨adapter, hadapter⟩ := Option.isSome_iff_exists.mp hhandler
  have hcapability : (normalizeIntent intent).capability = intent.capability :=
    normalize_capability (isCapabilityName_of_valid hvalid)
  refine ⟨⟨Executor.intentId (normalizeIntent intent) generatedId,
    (normalizeIntent intent).requester⟩, ?_⟩
  unfold Executor.executeNormalizedIntent
  rw [hcapability, executor, hadapter]
  simp only [h.handlers _ _ hadapter, if_true]

theorem runGate_of_error {message : String}
    (hcheck : check env m.nextUuid capability input options m = .error message) :
    runGate env capability input options m = none := by
  have hcompiles : ¬ m.policyDoc.Compiles env.regExp := fun hcompiles => by
    obtain ⟨decision, heval⟩ := (PolicyDocument.compiles_iff_evaluate
      (buildIntent env m.nextUuid capability input options)).mp hcompiles
    cases heval.symm.trans hcheck
  cases heval : evaluate env.regExp
      (normalizeIntent (buildIntent env m.nextUuid capability input options)) m.policyDoc with
  | error message => simp [runGate, Executor.decision, heval]
  | ok decision =>
      exact absurd ((PolicyDocument.compiles_iff_evaluate _).mpr ⟨decision, heval⟩) hcompiles

/-- With a handler for the capability of a valid intent, the gate says what the run comes to. -/
theorem acts_on_gate (h : Sound m) (hhandler : (m.adapters.get capability).isSome = true)
    (hvalid : (validateIntent (buildIntent env m.nextUuid capability input options)).valid = true) :
    (Invokes env capability input options m ↔
      runGate env capability input options m = some .passed) ∧
    (AsksApproval env capability input options m ↔
      runGate env capability input options m = some .approval) ∧
    (IsDenied env capability input options m ↔
      runGate env capability input options m = some .denied) := by
  rcases @run_cases env m capability input options with hrun | ⟨message, hrun, hcheck⟩
  · obtain ⟨message, hinvocation⟩ := m.executor.execute_eq env.regExp m.now
      (env.uuid (m.nextUuid + 1)) (buildIntent env m.nextUuid capability input options)
    have hinvocation : (runCall env capability input options m).invocation =
        m.executor.actOn m.now (env.uuid (m.nextUuid + 1)) message
          (normalizeIntent (buildIntent env m.nextUuid capability input options))
          (runGate env capability input options m) := by
      rw [runGate, ← h.policy]
      exact hinvocation
    rw [invokes_of_suspended h hrun]
    -- the gate decides what the invocation is, and so what the run answers
    cases hgate : runGate env capability input options m with
    | none =>
        rw [hgate] at hinvocation
        obtain ⟨happroval, hdenied⟩ := no_answer (resume_rejected h hrun hinvocation)
        refine ⟨?_, ?_, ?_⟩
        · simp [hinvocation, Executor.actOn]
        · simpa using happroval
        · simpa using hdenied
    | some gate =>
        cases gate with
        | denied =>
            rw [hgate] at hinvocation
            have hanswers := resume_refused h hrun hinvocation
            refine ⟨?_, ?_, ?_⟩
            · simp [hinvocation, Executor.actOn]
            · exact iff_of_false (not_asksApproval (hanswers _) (by simp [resultOfReceipt])) (by simp)
            · refine iff_of_true (fun outcome => ⟨_, (hanswers _ _).mpr rfl, ?_⟩) rfl
              simp [resultOfReceipt]
        | approval =>
            rw [hgate] at hinvocation
            have hanswers := resume_refused h hrun hinvocation
            have hreference : ∀ receipt : CoreReceipt, receipt.action = .approvalRequired →
                (resultOfReceipt receipt
                  (buildIntent env m.nextUuid capability input options)).approvalReference =
                  some ("approval:" ++ receipt.intentId) := by
              intro receipt haction
              simp [resultOfReceipt, haction]
            refine ⟨?_, ?_, ?_⟩
            · simp [hinvocation, Executor.actOn]
            · refine iff_of_true (fun outcome => ⟨_, _, (hanswers _ _).mpr rfl, hreference _ ?_⟩) rfl
              exact Executor.buildReceipt_action ..
            · exact iff_of_false (not_isDenied (hanswers _) (by simp [resultOfReceipt])) (by simp)
        | passed =>
            rw [hgate] at hinvocation
            obtain ⟨context, hadapter⟩ := h.reaches_handler hhandler hvalid
              (env.uuid (m.nextUuid + 1))
            have hinvocation := hinvocation.trans hadapter
            have hanswers := resume_adapter h hrun hinvocation
            refine ⟨?_, ?_, ?_⟩
            · simp [hinvocation]
            · exact iff_of_false (not_asksApproval hanswers rfl) (by simp)
            · exact iff_of_false (not_isDenied hanswers fun heq => by cases heq) (by simp)
  · obtain ⟨hinvokes, hsilent⟩ := stopped h hrun
    -- the hook stopped the run, which has no gate then
    have hgate := runGate_of_error hcheck
    obtain ⟨happroval, hdenied⟩ := no_answer hsilent
    rw [hgate]
    refine ⟨?_, ?_, ?_⟩
    · simpa using hinvokes
    · simpa using happroval
    · simpa using hdenied

/-! ## `check` tells what `run` does

`check` decides the intent as it is given and `run` the normalised one. A rule has to meet the
difference for the two to disagree. -/

def Says (decision : Except String PolicyDecision) (action : PolicyAction) : Prop :=
  ∃ taken, decision = .ok taken ∧ taken.action = action

section

variable (env) (capability : String) (input : JsObject) (options : RunOptions) (m : MapInstance)

/-- The decision says what the run does. -/
def Tells (decision : Except String PolicyDecision) : Prop :=
  (Says decision .allow ↔ Invokes env capability input options m) ∧
  (Says decision .requireApproval ↔ AsksApproval env capability input options m) ∧
  (Says decision .deny ↔ IsDenied env capability input options m)

/-- What `check` reports and what `onDecision` is given both say what the run does. -/
def ChecksAgree (uuid : Nat) : Prop :=
  Tells env capability input options m (check env uuid capability input options m) ∧
  Tells env capability input options m (check env m.nextUuid capability input options m)

/-- No rule that is met when the normalised intent of the run is decided tells it from the intent as
it was built, be it for `check` or for the run. -/
def ReadAlike (uuid : Nat) : Prop :=
  let built := buildIntent env m.nextUuid capability input options
  let matchesAt := PolicyRule.Matches env.regExp
  UpToFirst (matchesAt (normalizeIntent built))
    (fun rule =>
      (matchesAt (buildIntent env uuid capability input options) rule ↔
        matchesAt (normalizeIntent built) rule) ∧
      (matchesAt built rule ↔ matchesAt (normalizeIntent built) rule)) m.policyDoc.rules

/-- What decides the normalised intent is one of the three actions. -/
def DecidesNamed : Prop :=
  ∀ rule text, FirstMatch (PolicyRule.Matches env.regExp
      (normalizeIntent (buildIntent env m.nextUuid capability input options)))
    m.policyDoc.rules rule → m.policyDoc.actionOf rule ≠ .other text

end

/-- No action occurs twice in the document, its default included, and each is one of the three. -/
def Distinguishing (policy : PolicyDocument) : Prop :=
  let actions := policy.rules.map PolicyRule.action ++ [policy.actionOf none]
  actions.Nodup ∧ ∀ action ∈ actions, ∀ text, action ≠ .other text

theorem Distinguishing.actionOf_inj {policy : PolicyDocument} (h : Distinguishing policy)
    {p q : PolicyRule → Prop} {r s : Option PolicyRule} (hr : FirstMatch p policy.rules r)
    (hs : FirstMatch q policy.rules s) (heq : policy.actionOf r = policy.actionOf s) : r = s := by
  obtain ⟨hrules, -, hdefault⟩ := List.nodup_append.mp h.1
  have hne : ∀ rule ∈ policy.rules, rule.action ≠ policy.actionOf none := fun rule hrule =>
    hdefault _ (List.mem_map_of_mem hrule) _ (List.mem_singleton_self _)
  cases r with
  | none =>
      cases s with
      | none => rfl
      | some rule => exact absurd heq.symm (hne rule hs.mem)
  | some rule =>
      cases s with
      | none => exact absurd heq (hne rule hr.mem)
      | some rule' => rw [List.inj_on_of_nodup_map hrules hr.mem hs.mem heq]

theorem Distinguishing.named {policy : PolicyDocument} (h : Distinguishing policy)
    {p : PolicyRule → Prop} {r : Option PolicyRule} (hr : FirstMatch p policy.rules r)
    (text : String) : policy.actionOf r ≠ .other text := by
  refine h.2 _ ?_ text
  cases r with
  | none => exact List.mem_append_right _ (List.mem_singleton_self _)
  | some rule => exact List.mem_append_left _ (List.mem_map_of_mem hr.mem)

theorem gate_inj {action action' : PolicyAction}
    (h : ∀ text, action ≠ .other text) (h' : ∀ text, action' ≠ .other text)
    (hgate : action.gate = action'.gate) : action = action' := by
  cases action <;> cases action' <;> simp_all [PolicyAction.gate]

theorem says_ok {taken : PolicyDecision} {action : PolicyAction} :
    Says (.ok taken) action ↔ taken.action = action := by
  simp [Says]

/-- A decision tells what the run does if it is one of the three and has the run's gate. -/
theorem tells_iff (h : Sound m) (hhandler : (m.adapters.get capability).isSome = true)
    (hvalid : (validateIntent (buildIntent env m.nextUuid capability input options)).valid = true)
    {gate : Gate} (hgate : runGate env capability input options m = some gate)
    (taken : PolicyDecision) :
    Tells env capability input options m (.ok taken) ↔
      taken.action.gate = gate ∧ ∀ text, taken.action ≠ .other text := by
  obtain ⟨hinvokes, happroval, hdenied⟩ := acts_on_gate h hhandler hvalid
  rw [Tells, hinvokes, happroval, hdenied, hgate]
  simp only [says_ok, Option.some.injEq]
  cases haction : taken.action <;> cases gate <;> simp [PolicyAction.gate]

theorem tells_of_stuck (h : Sound m) (hhandler : (m.adapters.get capability).isSome = true)
    (hvalid : (validateIntent (buildIntent env m.nextUuid capability input options)).valid = true)
    (hstuck : ¬ m.policyDoc.Compiles env.regExp) (intent : Intent) :
    Tells env capability input options m (evaluate env.regExp intent m.policyDoc) := by
  have hthrows : ∀ intent, ∃ message,
      evaluate env.regExp intent m.policyDoc = .error message := by
    intro intent
    cases heval : evaluate env.regExp intent m.policyDoc with
    | error message => exact ⟨message, rfl⟩
    | ok taken =>
        exact absurd ((PolicyDocument.compiles_iff_evaluate intent).mpr ⟨taken, heval⟩) hstuck
  obtain ⟨hinvokes, happroval, hdenied⟩ := acts_on_gate h hhandler hvalid
  obtain ⟨message, heval⟩ := hthrows intent
  obtain ⟨message', hnormal⟩ :=
    hthrows (normalizeIntent (buildIntent env m.nextUuid capability input options))
  rw [Tells, hinvokes, happroval, hdenied, heval]
  simp [runGate, Executor.decision, hnormal, Says]

/-- In a document that compiles each of the three intents is decided by its first match, and the two
decisions have to be named and have the gate of the third. -/
theorem checksAgree_iff (h : Sound m) (hhandler : (m.adapters.get capability).isSome = true)
    (hvalid : (validateIntent (buildIntent env m.nextUuid capability input options)).valid = true)
    (hcompiles : m.policyDoc.Compiles env.regExp) (uuid : Nat) :
    ∃ asked own acted,
      FirstMatch (PolicyRule.Matches env.regExp (buildIntent env uuid capability input options))
        m.policyDoc.rules asked ∧
      FirstMatch (PolicyRule.Matches env.regExp
        (buildIntent env m.nextUuid capability input options)) m.policyDoc.rules own ∧
      FirstMatch (PolicyRule.Matches env.regExp
        (normalizeIntent (buildIntent env m.nextUuid capability input options)))
        m.policyDoc.rules acted ∧
      (ChecksAgree env capability input options m uuid ↔
        ∀ rule ∈ [asked, own], (m.policyDoc.actionOf rule).gate = (m.policyDoc.actionOf acted).gate ∧
          ∀ text, m.policyDoc.actionOf rule ≠ .other text) := by
  obtain ⟨first, asked, hfirst, hasked, haskedAction⟩ := PolicyDocument.evaluate_first hcompiles
    (buildIntent env uuid capability input options)
  obtain ⟨second, own, hsecond, hown, hownAction⟩ := PolicyDocument.evaluate_first hcompiles
    (buildIntent env m.nextUuid capability input options)
  obtain ⟨third, acted, hthird, hacted, hactedAction⟩ := PolicyDocument.evaluate_first hcompiles
    (normalizeIntent (buildIntent env m.nextUuid capability input options))
  refine ⟨asked, own, acted, hasked, hown, hacted, ?_⟩
  have hgate : runGate env capability input options m = some third.action.gate := by
    simp [runGate, Executor.decision, hvalid, hthird]
  unfold ChecksAgree check
  rw [hfirst, hsecond, tells_iff h hhandler hvalid hgate, tells_iff h hhandler hvalid hgate,
    haskedAction, hownAction, hactedAction]
  simp

end MapInstance

/-- On an instance that is in use, with a handler for the capability of a valid intent: if no rule
that is met tells the intents apart, `check` agrees with `run` exactly when the action is one of the
three; and in a document that gives each action once it agrees only then. -/
theorem checks_agree (env : MapEnv) (policy : PolicyDocument) (now : Nat) (ls : List MapLabel)
    (capability : String) (input : JsObject) (options : RunOptions) (uuid : Nat) (m : MapInstance)
    (hreached : m = Transition.run (MapInstance.step env) (MapInstance.init policy now) ls)
    (hhandler : (m.adapters.get capability).isSome = true)
    (hvalid : (validateIntent
      (MapInstance.buildIntent env m.nextUuid capability input options)).valid = true) :
    ((m.policyDoc.Compiles env.regExp → m.ReadAlike env capability input options uuid) →
      (m.ChecksAgree env capability input options uuid ↔
        (m.policyDoc.Compiles env.regExp → m.DecidesNamed env capability input options))) ∧
    (m.policyDoc.Compiles env.regExp → MapInstance.Distinguishing m.policyDoc →
      (m.ChecksAgree env capability input options uuid ↔
        m.ReadAlike env capability input options uuid)) := by
  have hsound : m.Sound := hreached ▸ MapInstance.reached_sound env policy now ls
  refine ⟨fun halike => ?_, fun hcompiles hdistinct => ?_⟩
  · by_cases hcompiles : m.policyDoc.Compiles env.regExp
    · obtain ⟨asked, own, acted, hasked, hown, hacted, hiff⟩ :=
        MapInstance.checksAgree_iff hsound hhandler hvalid hcompiles uuid
      obtain ⟨halikeAsked, halikeOwn⟩ := UpToFirst.and_iff.mp (halike hcompiles)
      -- the same rule decides all three
      obtain rfl := hacted.unique ((FirstMatch.congr_upTo halikeAsked).mp hasked)
      obtain rfl := hacted.unique ((FirstMatch.congr_upTo halikeOwn).mp hown)
      rw [hiff]
      constructor
      · rintro hnamed - rule text hrule
        rw [hrule.unique hacted]
        exact (hnamed acted (List.mem_cons_self ..)).2 text
      · intro hnamed rule hrule
        obtain rfl : rule = acted := by simpa using hrule
        exact ⟨rfl, fun text => hnamed hcompiles rule text hacted⟩
    · exact iff_of_true
        ⟨MapInstance.tells_of_stuck hsound hhandler hvalid hcompiles _,
          MapInstance.tells_of_stuck hsound hhandler hvalid hcompiles _⟩
        fun h => absurd h hcompiles
  · obtain ⟨asked, own, acted, hasked, hown, hacted, hiff⟩ :=
      MapInstance.checksAgree_iff hsound hhandler hvalid hcompiles uuid
    have hnodup : m.policyDoc.rules.Nodup := (List.nodup_append.mp hdistinct.1).1.of_map _
    have hsame : ∀ {p : PolicyRule → Prop} {rule : Option PolicyRule},
        FirstMatch p m.policyDoc.rules rule →
        ((m.policyDoc.actionOf rule).gate = (m.policyDoc.actionOf acted).gate ↔ rule = acted) := by
      intro p rule hrule
      refine ⟨fun hgate => hdistinct.actionOf_inj hrule hacted ?_, fun heq => heq ▸ rfl⟩
      exact MapInstance.gate_inj (hdistinct.named hrule) (hdistinct.named hacted) hgate
    rw [hiff]
    constructor
    · intro hgates
      obtain rfl := (hsame hasked).mp (hgates asked (by simp)).1
      obtain rfl := (hsame hown).mp (hgates own (by simp)).1
      exact UpToFirst.and_iff.mpr
        ⟨FirstMatch.agree_of_same hnodup hasked hacted, FirstMatch.agree_of_same hnodup hown hacted⟩
    · intro halike rule hrule
      obtain ⟨halikeAsked, halikeOwn⟩ := UpToFirst.and_iff.mp halike
      obtain rfl := hacted.unique ((FirstMatch.congr_upTo halikeAsked).mp hasked)
      obtain rfl := hacted.unique ((FirstMatch.congr_upTo halikeOwn).mp hown)
      obtain rfl : rule = acted := by simpa using hrule
      exact ⟨rfl, hdistinct.named hacted⟩

open Orchestrator (defaultPolicy) in
/-- With a handler and no rules, everything waits for approval. -/
theorem checks_agree_sample :
    MapInstance.ChecksAgree sampleMapEnv "ops.restart" [] ⟨none, none, none⟩
      (Transition.run (MapInstance.step sampleMapEnv)
        (MapInstance.init (defaultPolicy .requireApproval) 0) [.can "ops.restart"]) 7 := by
  refine ((checks_agree sampleMapEnv (defaultPolicy .requireApproval) 0 [.can "ops.restart"]
    "ops.restart" [] ⟨none, none, none⟩ 7 _ rfl rfl (by decide)).1 fun _ => trivial).mpr ?_
  intro _ rule text hrule
  cases hrule
  exact fun h => PolicyAction.noConfusion h

/-- Alice may do anything. -/
def alicePolicy : PolicyDocument :=
  ⟨[⟨"own", "*", .obj [("eq", .arr [.str "requester.id", .str "alice"])], .allow⟩], none⟩

/-- On an instance set up with blanks around her name. -/
def sampleAliceEnv : MapEnv := { sampleMapEnv with requester := some ⟨.user, " alice ", none⟩ }

/-- There `check` denies and `run` starts the handler. -/
theorem check_denies_run_executes :
    ¬ MapInstance.ChecksAgree sampleAliceEnv "ops.restart" [] ⟨none, none, none⟩
      (Transition.run (MapInstance.step sampleAliceEnv) (MapInstance.init alicePolicy 0)
        [.can "ops.restart"]) 7 := by
  rintro ⟨⟨hallow, -, -⟩, -⟩
  obtain ⟨taken, htaken, haction⟩ := hallow.mpr ⟨_, _, List.mem_of_head? rfl⟩
  obtain rfl := Except.ok.inj htaken
  exact absurd haction (by decide)

end MapProtocol
