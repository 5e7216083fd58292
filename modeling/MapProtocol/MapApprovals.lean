import MapProtocol.MapChecks

/-!
# Approvals on a `map()` instance

An approval reference is a token. The run whose uuid it carries mints it, the result of that run
makes it pending, and `approve` spends it: it takes the pending entry out before it waits for the
executor. No step but a run makes the tokens of a reference more. A reference is pending before the
run returns it, if the run has a hook to await (`approved_unreturned`).
-/

namespace MapProtocol

open Js

namespace MapInstance

variable {intent : Intent} {receipt : CoreReceipt} {capability : String} {input : JsObject}
  {options : RunOptions} {ls : List MapLabel} {events : List MapEvent}

/-- The approval reference of the intent with the uuid numbered `n`. -/
def reference (env : MapEnv) (n : Nat) : String := "approval:" ++ env.uuid n

/-- The handler was started by an approval under this reference. -/
def approves (reference : String) : MapEvent → Bool
  | .executed _ (.approve approvalReference) _ _ => approvalReference == reference
  | _                                            => false

/-- The run is going to answer with this reference. -/
def owes (reference : String) (call : MapCall) : Bool :=
  match call.origin, call.invocation with
  | .run, .refused receipt =>
      receipt.action == .approvalRequired && "approval:" ++ receipt.intentId == reference
  | _, _                   => false

/-- The tokens of a reference: those spent, pending, and about to be. -/
def tokens (reference : String) (m : MapInstance) : Nat :=
  m.history.countP (approves reference) +
    (m.pendingApprovals.get reference).isSome.toNat +
    m.calls.countP (owes reference)

variable {env : MapEnv} {m : MapInstance}

theorem reference_inj (huuid : Function.Injective env.uuid) :
    Function.Injective (reference env) := by
  intro i j h
  apply huuid
  apply String.toList_injective
  have hlists := congrArg String.toList h
  simpa [reference] using hlists

/-! ## What a step does to the tokens

A reference is a token that its run mints, that becomes pending, and that the first approval
spends. -/

/-- What the executor refuses carries the id of the intent. -/
theorem execute_intentId {executor : Executor} {regExp : RegExpEngine} {now : Nat}
    {generatedId : String} (h : executor.execute regExp now generatedId intent = .refused receipt) :
    receipt.intentId = Executor.intentId (normalizeIntent intent) generatedId := by
  have hbuilt : ∀ action, (executor.buildReceipt now generatedId (normalizeIntent intent) action
      .error).intentId = Executor.intentId (normalizeIntent intent) generatedId := by
    intro action
    unfold Executor.buildReceipt
    dsimp only
    split <;> rfl
  have hnever : ∀ receipt, executor.executeNormalizedIntent generatedId (normalizeIntent intent) ≠
      .refused receipt := by
    intro receipt hrun
    unfold Executor.executeNormalizedIntent at hrun
    split at hrun
    · cases hrun
    · dsimp only at hrun
      split at hrun <;> cases hrun
  obtain ⟨message, heq⟩ := executor.execute_eq regExp now generatedId intent
  rw [heq] at h
  cases hgate : Executor.decision regExp executor.policy intent with
  | none =>
      rw [hgate] at h
      cases h
  | some gate =>
      rw [hgate] at h
      cases gate with
      | denied =>
          obtain rfl := Invocation.refused.inj h
          exact hbuilt _
      | approval =>
          obtain rfl := Invocation.refused.inj h
          exact hbuilt _
      | passed => exact absurd h (hnever receipt)

theorem runCall_intentId (hnonempty : ∀ n, env.uuid n ≠ "")
    (h : (runCall env capability input options m).invocation = .refused receipt) :
    receipt.intentId = env.uuid m.nextUuid := by
  rw [execute_intentId h]
  simp [Executor.intentId, normalizeIntent, buildIntent, hnonempty]

theorem tokens_log {event : MapEvent} {reference : String} (h : approves reference event = false)
    (m : MapInstance) : tokens reference (log event m) = tokens reference m := by
  simp [tokens, log, h]

/-- A call that waits adds a token if it owes it or starts the handler by an approval. -/
theorem tokens_suspend (reference : String) (call : MapCall) (m : MapInstance) :
    tokens reference (suspend call m) ≤ tokens reference m +
      (if owes reference call = true ∨ call.origin = .approve reference then 1 else 0) := by
  have hhistory : (suspend call m).history.countP (approves reference) ≤
      m.history.countP (approves reference) +
        (if call.origin = .approve reference then 1 else 0) := by
    unfold suspend
    dsimp only
    split
    · rw [List.countP_cons]
      cases call.origin with
      | run => simp [approves]
      | approve approvalReference => simp [approves]
    · exact Nat.le_add_right _ _
  have hcalls : (suspend call m).calls.countP (owes reference) =
      m.calls.countP (owes reference) + (if owes reference call then 1 else 0) := by
    simp [suspend, List.countP_append, List.countP_cons]
  have hpending : (suspend call m).pendingApprovals = m.pendingApprovals := rfl
  have hone : ¬ (owes reference call = true ∧ call.origin = .approve reference) := by
    rintro ⟨howes, horigin⟩
    simp [owes, horigin] at howes
  unfold tokens
  rw [hcalls, hpending]
  split_ifs at * <;> first | omega | simp_all

/-- Spending: the entry that was pending is gone. -/
theorem tokens_take {reference taken : String} (h : (m.pendingApprovals.get taken).isSome = true) :
    tokens reference { m with
        nextCall := m.nextCall + 1
        pendingApprovals := m.pendingApprovals.delete taken } +
      (if taken = reference then 1 else 0) = tokens reference m := by
  unfold tokens
  dsimp only
  rw [OrderedMap.get_delete]
  by_cases heq : taken = reference
  · subst heq
    simp only [if_true, h, Option.isSome_none, Bool.toNat_false, Bool.toNat_true]
    omega
  · simp [heq]

theorem tokens_approve (reference approvalReference : String) :
    tokens reference (approve env approvalReference m) ≤ tokens reference m := by
  unfold approve
  dsimp only
  split
  · apply Nat.le_of_eq
    exact tokens_log rfl _
  · rename_i intent hpending
    have htaken := @tokens_take m reference approvalReference (by rw [hpending]; rfl)
    refine (tokens_suspend reference _ _).trans ?_
    have howes : ∀ invocation, owes reference
        ⟨m.nextCall, .approve approvalReference, intent, invocation⟩ = false := fun _ => rfl
    rw [← htaken]
    apply Nat.add_le_add_left
    simp [howes]

/-- A run mints a token of its own reference. -/
theorem tokens_run (hnonempty : ∀ n, env.uuid n ≠ "") (name : String) (capability : String)
    (input : JsObject) (options : RunOptions) :
    tokens name (run env capability input options m) ≤
      tokens name m + (if name = reference env m.nextUuid then 1 else 0) := by
  have hdrawn : tokens name m.drawn = tokens name m := rfl
  rcases @run_cases env m capability input options with hrun | ⟨message, hrun, -⟩
  · rw [hrun]
    refine (tokens_suspend name _ _).trans ?_
    rw [hdrawn]
    apply Nat.add_le_add_left
    have howes : owes name (runCall env capability input options m) = true →
        name = reference env m.nextUuid := by
      intro howes
      cases hinvocation : (runCall env capability input options m).invocation with
      | rejected message => simp [owes, hinvocation] at howes
      | adapter handed context => simp [owes, hinvocation] at howes
      | refused receipt =>
          have hid := runCall_intentId hnonempty hinvocation
          have horigin : (runCall env capability input options m).origin = .run := rfl
          simp only [owes, hinvocation, horigin, Bool.and_eq_true, beq_iff_eq] at howes
          rw [← howes.2, hid]
          rfl
    have horigin : (runCall env capability input options m).origin ≠ .approve name := by
      intro h
      cases h
    split_ifs with hnew hname
    · exact Nat.le_refl _
    · exact absurd (howes (hnew.resolve_right horigin)) hname
    · exact Nat.zero_le _
    · exact Nat.le_refl _
  · rw [hrun, tokens_log rfl, hdrawn]
    exact Nat.le_add_right _ _

/-- The answer of a call makes pending what the call owed. -/
theorem tokens_complete (name : String) (call : MapCall) (receipt : CoreReceipt)
    (hinvocation : call.invocation = .refused receipt) (m : MapInstance) :
    tokens name (complete call (resultOfReceipt receipt call.intent) m) ≤
      tokens name m + (owes name call).toNat := by
  have hlogged := @tokens_log (.answered call.id (resultOfReceipt receipt call.intent)) name rfl m
  unfold complete
  dsimp only
  split
  · rename_i approvalReference horigin hstatus hreference
    have haction : receipt.action = .approvalRequired := by
      by_contra haction
      simp [resultOfReceipt, haction] at hreference
    have hname : "approval:" ++ receipt.intentId = approvalReference := by
      simpa [resultOfReceipt, haction] using hreference
    rw [← hlogged]
    unfold tokens
    dsimp only
    rw [OrderedMap.get_set]
    by_cases heq : approvalReference = name
    · have howes : owes name call = true := by
        simp [owes, horigin, hinvocation, haction, hname, heq]
      have hle := Bool.toNat_le
        ((log (.answered call.id (resultOfReceipt receipt call.intent)) m).pendingApprovals.get
          name).isSome
      simp only [heq, if_true, howes, Option.isSome_some, Bool.toNat_true]
      omega
    · simp only [heq, if_false]
      exact Nat.le_add_right _ _
  · rw [hlogged]
    exact Nat.le_add_right _ _

theorem tokens_conclude (name : String) (call : MapCall) (result : MapResult) (m : MapInstance) :
    tokens name (conclude env call result m) = tokens name m := by
  unfold conclude
  split
  · rfl
  · exact tokens_log rfl m

theorem tokens_notified (name : String) (id : Nat) (outcome : Except (Option String) Unit) :
    tokens name (notified id outcome m) = tokens name m := by
  unfold notified
  split
  · rfl
  · dsimp only
    split
    · exact tokens_log rfl _
    · exact tokens_log rfl _

/-- A token that was owed is paid once: the call is taken out as it answers. -/
theorem tokens_resume (name : String) (id : Nat)
    (outcome : Except (Option String) (Option JsObject)) :
    tokens name (resume env id outcome m) ≤ tokens name m := by
  unfold resume
  split
  · exact Nat.le_refl _
  · rename_i call hfind
    obtain ⟨hid, before, after, hcalls, hbefore⟩ := List.find?_eq_some_iff_append.mp hfind
    have herase : m.calls.eraseP (·.id == id) = before ++ after := by
      rw [hcalls, List.eraseP_append_right _ (by simpa using hbefore),
        List.eraseP_cons_of_pos (p := fun c : MapCall => c.id == id) hid]
    -- what the call owed is counted off with it
    have htaken : tokens name { m with calls := m.calls.eraseP (·.id == id) } +
        (owes name call).toNat = tokens name m := by
      unfold tokens
      dsimp only
      rw [herase, hcalls]
      simp only [List.countP_append, List.countP_cons, Bool.toNat]
      cases owes name call with
      | false => simp
      | true =>
          simp only [if_true, cond_true]
          omega
    have hless := (Nat.le_add_right _ _).trans_eq htaken
    dsimp only
    split
    · rw [tokens_log rfl]
      exact hless
    · rename_i receipt hinvocation
      rw [tokens_conclude]
      exact (tokens_complete name call receipt hinvocation _).trans_eq htaken
    · rw [tokens_log rfl]
      exact hless
    · rw [tokens_conclude]
      unfold complete
      dsimp only
      split
      · rename_i hreference
        cases hreference
      · rw [tokens_log rfl]
        exact hless

theorem nextUuid_run (capability : String) (input : JsObject) (options : RunOptions) :
    (run env capability input options m).nextUuid = m.nextUuid + 1 := by
  unfold run
  dsimp only
  split <;> rfl

/-- No step but a run makes a token. -/
theorem tokens_step (name : String) {l : MapLabel}
    (hother : ∀ capability input options, l ≠ .run capability input options) :
    tokens name (step env m l) ≤ tokens name m := by
  cases l with
  | can capability => exact Nat.le_refl _
  | run capability input options => exact absurd rfl (hother capability input options)
  | approve approvalReference => exact tokens_approve name approvalReference
  | setPolicy policy => exact Nat.le_refl _
  | resume id outcome => exact tokens_resume name id outcome
  | notified id outcome => exact (tokens_notified name id outcome).le
  | tick ms => exact Nat.le_refl _

theorem resume_counters (id : Nat) (outcome : Except (Option String) (Option JsObject)) :
    (resume env id outcome m).nextCall = m.nextCall ∧
      (resume env id outcome m).nextUuid = m.nextUuid := by
  have hcomplete : ∀ call result (m : MapInstance),
      (conclude env call result (complete call result m)).nextCall = m.nextCall ∧
        (conclude env call result (complete call result m)).nextUuid = m.nextUuid := by
    intro call result m
    obtain ⟨pending, heq⟩ := complete_eq call result m
    rw [heq]
    unfold conclude
    split <;> exact ⟨rfl, rfl⟩
  unfold resume
  split
  · exact ⟨rfl, rfl⟩
  · dsimp only
    split
    · exact ⟨rfl, rfl⟩
    · exact hcomplete _ _ _
    · exact ⟨rfl, rfl⟩
    · exact hcomplete _ _ _

theorem notified_counters (id : Nat) (outcome : Except (Option String) Unit) :
    (notified id outcome m).nextCall = m.nextCall ∧
      (notified id outcome m).nextUuid = m.nextUuid := by
  unfold notified
  split
  · exact ⟨rfl, rfl⟩
  · dsimp only
    split <;> exact ⟨rfl, rfl⟩

theorem nextUuid_step {l : MapLabel}
    (hother : ∀ capability input options, l ≠ .run capability input options) :
    (step env m l).nextUuid = m.nextUuid := by
  cases l with
  | can capability => rfl
  | run capability input options => exact absurd rfl (hother capability input options)
  | approve approvalReference =>
      show (approve env approvalReference m).nextUuid = m.nextUuid
      unfold approve
      dsimp only
      split <;> rfl
  | setPolicy policy => rfl
  | resume id outcome => exact (resume_counters id outcome).2
  | notified id outcome => exact (notified_counters id outcome).2
  | tick ms => rfl

/-- A reference has one token at most, and none before its uuid is drawn. -/
structure SingleUse (env : MapEnv) (m : MapInstance) : Prop where
  single : ∀ name, tokens name m ≤ 1
  fresh  : ∀ n, m.nextUuid ≤ n → tokens (reference env n) m = 0

theorem singleUse_step (huuid : Function.Injective env.uuid) (hnonempty : ∀ n, env.uuid n ≠ "")
    (h : SingleUse env m) (l : MapLabel) : SingleUse env (step env m l) := by
  by_cases hrun : ∃ capability input options, l = .run capability input options
  · obtain ⟨capability, input, options, rfl⟩ := hrun
    have hminted := fun name => tokens_run (m := m) hnonempty name capability input options
    constructor
    · intro name
      apply (hminted name).trans
      split_ifs with hname
      · rw [hname, h.fresh _ (Nat.le_refl _)]
      · exact h.single name
    · intro n hn
      -- names not yet drawn stay without a token
      have hn : m.nextUuid + 1 ≤ n := by
        rw [← nextUuid_run capability input options]
        exact hn
      have hne : reference env n ≠ reference env m.nextUuid := fun heq =>
        absurd (reference_inj huuid heq) (by omega)
      have hle := hminted (reference env n)
      rw [if_neg hne, h.fresh n (by omega)] at hle
      exact Nat.le_zero.mp hle
  · have hother : ∀ capability input options, l ≠ .run capability input options :=
      fun capability input options heq => hrun ⟨capability, input, options, heq⟩
    constructor
    · intro name
      exact (tokens_step name hother).trans (h.single name)
    · intro n hn
      rw [nextUuid_step hother] at hn
      exact Nat.le_zero.mp ((tokens_step _ hother).trans_eq (h.fresh n hn))

/-! ## The run behind a reference

References are numbered by the uuids of their runs, and no two runs draw the same. -/

section

variable (env) (policy : PolicyDocument) (now : Nat)

/-- The instance that the calls lead to. -/
def reached (ls : List MapLabel) : MapInstance := Transition.run (step env) (init policy now) ls

/-- Among the calls is a run with these arguments: the call numbered `k`, which draws the uuid
numbered `n`. -/
def IsRun (ls : List MapLabel) (k n : Nat) (capability : String) (input : JsObject)
    (options : RunOptions) : Prop :=
  ∃ before after, ls = before ++ .run capability input options :: after ∧
    (reached env policy now before).nextCall = k ∧ (reached env policy now before).nextUuid = n

end

variable {policy : PolicyDocument} {now : Nat}

theorem counters_step (l : MapLabel) :
    m.nextCall ≤ (step env m l).nextCall ∧ m.nextUuid ≤ (step env m l).nextUuid := by
  cases l with
  | can capability => exact ⟨Nat.le_refl _, Nat.le_refl _⟩
  | run capability input options =>
      refine ⟨?_, (Nat.le_succ _).trans_eq (nextUuid_run capability input options).symm⟩
      show m.nextCall ≤ (run env capability input options m).nextCall
      unfold run
      dsimp only
      split <;> exact Nat.le_succ _
  | approve approvalReference =>
      refine ⟨?_, (nextUuid_step fun _ _ _ heq => MapLabel.noConfusion heq).symm.le⟩
      show m.nextCall ≤ (approve env approvalReference m).nextCall
      unfold approve
      dsimp only
      split <;> exact Nat.le_succ _
  | setPolicy policy => exact ⟨Nat.le_refl _, Nat.le_refl _⟩
  | resume id outcome =>
      have hcounters := @resume_counters env m id outcome
      exact ⟨hcounters.1.symm.le, hcounters.2.symm.le⟩
  | notified id outcome =>
      have hcounters := @notified_counters m id outcome
      exact ⟨hcounters.1.symm.le, hcounters.2.symm.le⟩
  | tick ms => exact ⟨Nat.le_refl _, Nat.le_refl _⟩

theorem IsRun.mono {k n : Nat} (h : IsRun env policy now ls k n capability input options)
    (more : List MapLabel) : IsRun env policy now (ls ++ more) k n capability input options := by
  obtain ⟨before, after, rfl, hk, hn⟩ := h
  exact ⟨before, after ++ more, by simp, hk, hn⟩

theorem isRun_last (ls : List MapLabel) (capability : String) (input : JsObject)
    (options : RunOptions) :
    IsRun env policy now (ls ++ [.run capability input options])
      (reached env policy now ls).nextCall (reached env policy now ls).nextUuid
      capability input options :=
  ⟨ls, [], rfl, rfl, rfl⟩

/-- A later call has a greater number, and a later run a later uuid. -/
theorem counters_lt (before : List MapLabel) (capability : String) (input : JsObject)
    (options : RunOptions) (after : List MapLabel) :
    (reached env policy now before).nextCall <
        (reached env policy now (before ++ .run capability input options :: after)).nextCall ∧
      (reached env policy now before).nextUuid <
        (reached env policy now (before ++ .run capability input options :: after)).nextUuid := by
  have hgrows : ∀ m : MapInstance, m.nextCall ≤ (Transition.run (step env) m after).nextCall ∧
      m.nextUuid ≤ (Transition.run (step env) m after).nextUuid := by
    intro m
    exact Transition.run_preserves
      (I := fun s : MapInstance => m.nextCall ≤ s.nextCall ∧ m.nextUuid ≤ s.nextUuid)
      (fun s l h => ⟨h.1.trans (counters_step l).1, h.2.trans (counters_step l).2⟩) after
      ⟨Nat.le_refl _, Nat.le_refl _⟩
  unfold reached
  rw [Transition.run_append, Transition.run_cons]
  obtain ⟨hcall, huuid⟩ := hgrows (step env (Transition.run (step env) (init policy now) before)
    (.run capability input options))
  refine ⟨lt_of_lt_of_le ?_ hcall, lt_of_lt_of_le ?_ huuid⟩
  · show _ < (run env capability input options _).nextCall
    unfold run
    dsimp only
    split <;> exact Nat.lt_succ_self _
  · exact (Nat.lt_succ_self _).trans_eq (nextUuid_run capability input options).symm

/-- Neither two runs have the same number nor the same uuid. -/
theorem IsRun.unique {ls : List MapLabel} {k k' n n' : Nat} {capability capability' : String}
    {input input' : JsObject} {options options' : RunOptions}
    (h : IsRun env policy now ls k n capability input options)
    (h' : IsRun env policy now ls k' n' capability' input' options') (hsame : k = k' ∨ n = n') :
    n = n' ∧ capability = capability' ∧ input = input' ∧ options = options' := by
  obtain ⟨before, after, hls, rfl, rfl⟩ := h
  obtain ⟨before', after', hls', rfl, rfl⟩ := h'
  rw [hls] at hls'
  rcases List.append_eq_append_iff.mp hls' with ⟨gap, hbefore, hafter⟩ | ⟨gap, hbefore, hafter⟩
  · cases gap with
    | nil =>
        -- no step lies between them, so they are one run
        obtain rfl : before' = before := by simpa using hbefore
        simp only [List.nil_append, List.cons.injEq, MapLabel.run.injEq] at hafter
        exact ⟨rfl, hafter.1⟩
    | cons l gap =>
        obtain ⟨rfl, -⟩ := List.cons_eq_cons.mp hafter
        have hlt := @counters_lt env policy now before capability input options gap
        rw [← hbefore] at hlt
        omega
  · cases gap with
    | nil =>
        obtain rfl : before = before' := by simpa using hbefore
        simp only [List.nil_append, List.cons.injEq, MapLabel.run.injEq] at hafter
        obtain ⟨⟨rfl, rfl, rfl⟩, -⟩ := hafter
        exact ⟨rfl, rfl, rfl, rfl⟩
    | cons l gap =>
        obtain ⟨rfl, -⟩ := List.cons_eq_cons.mp hafter
        have hlt := @counters_lt env policy now before' capability' input' options' gap
        rw [← hbefore] at hlt
        omega

/-! ## What an approval executes

The pending entry is all that an approval is given, so what it executes is what the run kept. -/

section

variable (env) (policy : PolicyDocument) (now : Nat)

/-- Among the events, a run with this intent came to a result with the reference. -/
def Kept (ls : List MapLabel) (events : List MapEvent) (name : String) (intent : Intent) :
    Prop :=
  ∃ k n capability input options result, IsRun env policy now ls k n capability input options ∧
    name = reference env n ∧ intent = buildIntent env n capability input options ∧
    .answered k result ∈ events ∧ result.approvalReference = some name

/-- Every approval that started a handler did so under a reference that was kept before, on the
normalised intent of the run that it was kept for. -/
def Backed (ls : List MapLabel) : List MapEvent → Prop
  | []              => True
  | event :: events =>
      (∀ call name intent doc, event = .executed call (.approve name) intent doc →
        ∃ original, Kept env policy now ls events name original ∧
          intent = normalizeIntent original) ∧ Backed ls events

/-- What holds of the references of an instance that the calls `ls` lead to. -/
structure Bound (ls : List MapLabel) (m : MapInstance) : Prop where
  calls    : ∀ call ∈ m.calls, ∀ receipt, call.invocation = .refused receipt →
    ∃ n capability input options, IsRun env policy now ls call.id n capability input options ∧
      call.intent = buildIntent env n capability input options ∧ receipt.intentId = env.uuid n
  pending  : ∀ name intent, m.pendingApprovals.get name = some intent →
    Kept env policy now ls m.history name intent
  answered : ∀ k result name, .answered k result ∈ m.history →
    result.approvalReference = some name →
    ∃ n capability input options, IsRun env policy now ls k n capability input options ∧
      name = reference env n
  backed   : Backed env policy now ls m.history

end

theorem Kept.mono {name : String} (h : Kept env policy now ls events name intent)
    (more : List MapLabel) :
    Kept env policy now (ls ++ more) events name intent := by
  obtain ⟨k, n, capability, input, options, result, hrun, hrest⟩ := h
  exact ⟨k, n, capability, input, options, result, hrun.mono more, hrest⟩

theorem Kept.later {name : String} (h : Kept env policy now ls events name intent)
    (event : MapEvent) :
    Kept env policy now ls (event :: events) name intent := by
  obtain ⟨k, n, capability, input, options, result, hrun, hname, hintent, hmem, hreference⟩ := h
  exact ⟨k, n, capability, input, options, result, hrun, hname, hintent,
    List.mem_cons_of_mem _ hmem, hreference⟩

theorem Backed.mono (h : Backed env policy now ls events) (more : List MapLabel) :
    Backed env policy now (ls ++ more) events := by
  induction events with
  | nil => trivial
  | cons event events ih =>
      refine ⟨fun call name intent doc heq => ?_, ih h.2⟩
      obtain ⟨original, hkept, hintent⟩ := h.1 call name intent doc heq
      exact ⟨original, hkept.mono more, hintent⟩

theorem Bound.mono (h : Bound env policy now ls m) (more : List MapLabel) :
    Bound env policy now (ls ++ more) m where
  calls call hcall receipt hrefused := by
    obtain ⟨n, capability, input, options, hrun, hrest⟩ := h.calls call hcall receipt hrefused
    exact ⟨n, capability, input, options, hrun.mono more, hrest⟩
  pending name intent hget := (h.pending name intent hget).mono more
  answered k result name hmem hreference := by
    obtain ⟨n, capability, input, options, hrun, hname⟩ := h.answered k result name hmem hreference
    exact ⟨n, capability, input, options, hrun.mono more, hname⟩
  backed := h.backed.mono more

/-- An event that answers with no reference and, if it is the execution of an approval, is backed. -/
theorem Bound.log {ls : List MapLabel} (h : Bound env policy now ls m) {event : MapEvent}
    (hanswer : ∀ k result, event = .answered k result → result.approvalReference = none)
    (hexecuted : ∀ call name intent doc, event = .executed call (.approve name) intent doc →
      ∃ original, Kept env policy now ls m.history name original ∧
        intent = normalizeIntent original) :
    Bound env policy now ls (MapInstance.log event m) where
  calls := h.calls
  pending name intent hget := (h.pending name intent hget).later event
  answered k result name hmem hreference := by
    rcases List.mem_cons.mp hmem with heq | hold
    · rw [hanswer k result heq.symm] at hreference
      cases hreference
    · exact h.answered k result name hold hreference
  backed := ⟨hexecuted, h.backed⟩

theorem Bound.threw (h : Bound env policy now ls m) (k : Nat) (message : Option String) :
    Bound env policy now ls (MapInstance.log (.threw k message) m) := by
  apply h.log
  · intro _ _ heq
    cases heq
  · intro _ _ _ _ heq
    cases heq

theorem Bound.returned (h : Bound env policy now ls m) (k : Nat) (result : MapResult) :
    Bound env policy now ls (MapInstance.log (.returned k result) m) := by
  apply h.log
  · intro _ _ heq
    cases heq
  · intro _ _ _ _ heq
    cases heq

theorem Bound.suspend {ls : List MapLabel} (h : Bound env policy now ls m) {call : MapCall}
    (hrefused : ∀ receipt, call.invocation = .refused receipt →
      ∃ n capability input options, IsRun env policy now ls call.id n capability input options ∧
        call.intent = buildIntent env n capability input options ∧ receipt.intentId = env.uuid n)
    (hexecuted : ∀ name intent context, call.origin = .approve name →
      call.invocation = .adapter intent context →
      ∃ original, Kept env policy now ls m.history name original ∧
        intent = normalizeIntent original) :
    Bound env policy now ls (suspend call m) := by
  have hcalls : ∀ c ∈ m.calls ++ [call], ∀ receipt, c.invocation = .refused receipt →
      ∃ n capability input options, IsRun env policy now ls c.id n capability input options ∧
        c.intent = buildIntent env n capability input options ∧ receipt.intentId = env.uuid n := by
    intro c hc
    rcases List.mem_append.mp hc with hold | hnew
    · exact h.calls c hold
    · rw [List.mem_singleton.mp hnew]
      exact hrefused
  unfold MapInstance.suspend
  split
  · rename_i intent context hinvocation
    have hlogged : Bound env policy now ls
        (MapInstance.log (.executed call.id call.origin intent m.policyDoc) m) := by
      apply h.log
      · intro _ _ heq
        cases heq
      · intro k name handed doc heq
        obtain ⟨-, horigin, rfl, -⟩ := MapEvent.executed.inj heq
        exact hexecuted name intent context horigin hinvocation
    exact ⟨hcalls, hlogged.pending, hlogged.answered, hlogged.backed⟩
  · exact ⟨hcalls, h.pending, h.answered, h.backed⟩

/-- The answer of a run that needs approval returns the reference as it makes it pending. -/
theorem Bound.complete (h : Bound env policy now ls m) {call : MapCall} {n : Nat}
    (hrun : IsRun env policy now ls call.id n capability input options)
    (hintent : call.intent = buildIntent env n capability input options)
    (hreceipt : receipt.intentId = env.uuid n) :
    Bound env policy now ls (complete call (resultOfReceipt receipt call.intent) m) := by
  have hname : ∀ name, (resultOfReceipt receipt call.intent).approvalReference = some name →
      name = reference env n := by
    intro name hreference
    simp only [resultOfReceipt] at hreference
    split at hreference
    · rw [← Option.some.inj hreference, hreceipt]
      rfl
    · cases hreference
  have hlogged : Bound env policy now ls
      (MapInstance.log (.answered call.id (resultOfReceipt receipt call.intent)) m) := by
    refine ⟨h.calls, fun name intent hget => (h.pending name intent hget).later _, ?_, ?_⟩
    · intro k result name hmem hreference
      rcases List.mem_cons.mp hmem with heq | hold
      · obtain ⟨rfl, rfl⟩ := MapEvent.answered.inj heq
        exact ⟨n, capability, input, options, hrun, hname name hreference⟩
      · exact h.answered k result name hold hreference
    · exact ⟨fun _ _ _ _ heq => MapEvent.noConfusion heq, h.backed⟩
  unfold MapInstance.complete
  dsimp only
  split
  · rename_i name horigin hstatus hreference
    refine ⟨hlogged.calls, fun name' intent hget => ?_, hlogged.answered, hlogged.backed⟩
    have hset := OrderedMap.get_set m.pendingApprovals name name' call.intent
    rw [show (m.pendingApprovals.set name call.intent).get name' = some intent from hget] at hset
    split at hset
    · rename_i heq
      subst heq
      obtain rfl := Option.some.inj hset
      -- the entry that `run` has just registered
      exact ⟨call.id, n, capability, input, options, _, hrun, hname name hreference, hintent,
        List.mem_cons_self .., hreference⟩
    · exact hlogged.pending name' intent hset.symm
  · exact hlogged

theorem Bound.conclude (h : Bound env policy now ls m) (call : MapCall) (result : MapResult) :
    Bound env policy now ls (conclude env call result m) := by
  unfold MapInstance.conclude
  split
  · exact ⟨h.calls, h.pending, h.answered, h.backed⟩
  · exact h.returned _ _

/-! ## Every run of the instance -/

theorem bound_run (hnonempty : ∀ n, env.uuid n ≠ "")
    (h : Bound env policy now ls (reached env policy now ls)) (capability : String)
    (input : JsObject) (options : RunOptions) :
    Bound env policy now (ls ++ [.run capability input options])
      (run env capability input options (reached env policy now ls)) := by
  have hdrawn : Bound env policy now (ls ++ [.run capability input options])
      (reached env policy now ls).drawn := by
    have hmono := h.mono [.run capability input options]
    exact ⟨hmono.calls, hmono.pending, hmono.answered, hmono.backed⟩
  rcases @run_cases env (reached env policy now ls) capability input options with
    hrun | ⟨message, hrun, -⟩
  · rw [hrun]
    apply hdrawn.suspend
    · intro receipt hrefused
      exact ⟨_, capability, input, options, isRun_last ls capability input options, rfl,
        runCall_intentId hnonempty hrefused⟩
    · intro name intent context horigin
      cases horigin
  · rw [hrun]
    exact hdrawn.threw _ _

theorem bound_approve (h : Bound env policy now ls m) (approvalReference : String) :
    Bound env policy now ls (approve env approvalReference m) := by
  unfold approve
  dsimp only
  split
  · have hnumbered : Bound env policy now ls { m with nextCall := m.nextCall + 1 } :=
      ⟨h.calls, h.pending, h.answered, h.backed⟩
    exact hnumbered.threw _ _
  · rename_i original hpending
    have htaken : Bound env policy now ls { m with
        nextCall := m.nextCall + 1
        pendingApprovals := m.pendingApprovals.delete approvalReference } := by
      refine ⟨h.calls, fun name intent hget => h.pending name intent ?_, h.answered, h.backed⟩
      have hdelete := OrderedMap.get_delete m.pendingApprovals approvalReference name
      rw [show (m.pendingApprovals.delete approvalReference).get name = some intent from hget]
        at hdelete
      split at hdelete
      · cases hdelete
      · exact hdelete.symm
    apply htaken.suspend
    · intro receipt hrefused
      exact absurd hrefused Orchestrator.executeApproved_ne_refused
    · intro name intent context horigin hinvocation
      obtain rfl := MapOrigin.approve.inj horigin
      exact ⟨original, h.pending _ _ hpending,
        Orchestrator.executeApproved_adapter hinvocation⟩

theorem bound_resume (h : Bound env policy now ls m) (id : Nat)
    (outcome : Except (Option String) (Option JsObject)) :
    Bound env policy now ls (resume env id outcome m) := by
  unfold resume
  split
  · exact h
  · rename_i call hfind
    have hover : Bound env policy now ls { m with calls := m.calls.eraseP (·.id == id) } :=
      ⟨fun c hc => h.calls c (List.mem_of_mem_eraseP hc), h.pending, h.answered, h.backed⟩
    dsimp only
    split
    · exact hover.threw _ _
    · rename_i receipt hinvocation
      obtain ⟨n, capability, input, options, hrun, hintent, hreceipt⟩ :=
        h.calls call (List.mem_of_find?_eq_some hfind) receipt hinvocation
      exact (hover.complete hrun hintent hreceipt).conclude _ _
    · exact hover.threw _ _
    · apply Bound.conclude
      unfold complete
      dsimp only
      split
      · rename_i hreference
        cases hreference
      · apply hover.log
        · intro k result heq
          obtain ⟨-, rfl⟩ := MapEvent.answered.inj heq
          rfl
        · intro _ _ _ _ heq
          cases heq

theorem bound_notified (h : Bound env policy now ls m) (id : Nat)
    (outcome : Except (Option String) Unit) : Bound env policy now ls (notified id outcome m) := by
  unfold notified
  split
  · exact h
  · have hover : ∀ notifying, Bound env policy now ls { m with notifying := notifying } :=
      fun _ => ⟨h.calls, h.pending, h.answered, h.backed⟩
    dsimp only
    split
    · exact (hover _).threw _ _
    · exact (hover _).returned _ _

theorem reached_bound (hnonempty : ∀ n, env.uuid n ≠ "") (ls : List MapLabel) :
    Bound env policy now ls (reached env policy now ls) := by
  induction ls using List.reverseRecOn with
  | nil =>
      refine ⟨fun _ hcall => ?_, fun _ _ hget => ?_, fun _ _ _ hmem => ?_, trivial⟩
      · cases hcall
      · cases hget
      · cases hmem
  | append_singleton ls l ih =>
      have hmono := ih.mono [l]
      have hstep : reached env policy now (ls ++ [l]) = step env (reached env policy now ls) l :=
        Transition.run_append _ _ _
      rw [hstep]
      cases l with
      | can capability => exact ⟨hmono.calls, hmono.pending, hmono.answered, hmono.backed⟩
      | run capability input options => exact bound_run hnonempty ih capability input options
      | approve approvalReference => exact bound_approve hmono approvalReference
      | setPolicy policy => exact ⟨hmono.calls, hmono.pending, hmono.answered, hmono.backed⟩
      | resume id outcome => exact bound_resume hmono id outcome
      | notified id outcome => exact bound_notified hmono id outcome
      | tick ms => exact ⟨hmono.calls, hmono.pending, hmono.answered, hmono.backed⟩

theorem Backed.executed {ls : List MapLabel} {newer older : List MapEvent} {call : Nat}
    {name : String} {intent : Intent} {doc : PolicyDocument}
    (h : Backed env policy now ls (newer ++ .executed call (.approve name) intent doc :: older)) :
    ∃ original, Kept env policy now ls older name original ∧
      intent = normalizeIntent original := by
  induction newer with
  | nil => exact h.1 call name intent doc rfl
  | cons event newer ih => exact ih h.2

theorem reached_singleUse (huuid : Function.Injective env.uuid)
    (hnonempty : ∀ n, env.uuid n ≠ "") (ls : List MapLabel) :
    SingleUse env (reached env policy now ls) := by
  have hinit : SingleUse env (init policy now) := ⟨fun _ => Nat.zero_le _, fun _ _ => rfl⟩
  exact Transition.run_preserves (I := SingleUse env)
    (fun _ l h => singleUse_step huuid hnonempty h l) ls hinit

/-! ## What is returned

A run returns what it has come to: at once, or after its hook.
-/

/-- What is returned is a result, and without a hook each result is returned. -/
structure Settled (env : MapEnv) (m : MapInstance) : Prop where
  returned  : ∀ call result, .returned call result ∈ m.history → .answered call result ∈ m.history
  notifying : ∀ run ∈ m.notifying, .answered run.1 run.2 ∈ m.history
  prompt    : env.onApprovalRequired = false →
    ∀ call result, .answered call result ∈ m.history → .returned call result ∈ m.history

theorem Settled.log_other (h : Settled env m) {event : MapEvent}
    (hanswered : ∀ call result, event ≠ .answered call result)
    (hreturned : ∀ call result, event ≠ .returned call result) : Settled env (log event m) where
  returned call result hmem := List.mem_cons_of_mem _
    (h.returned call result (List.mem_of_ne_of_mem (hreturned call result).symm hmem))
  notifying run hmem := List.mem_cons_of_mem _ (h.notifying run hmem)
  prompt hhook call result hmem := List.mem_cons_of_mem _
    (h.prompt hhook call result (List.mem_of_ne_of_mem (hanswered call result).symm hmem))

theorem Settled.threw (h : Settled env m) (id : Nat) (message : Option String) :
    Settled env (log (.threw id message) m) :=
  h.log_other (fun _ _ heq => MapEvent.noConfusion heq) fun _ _ heq => MapEvent.noConfusion heq

theorem Settled.suspend (h : Settled env m) (call : MapCall) : Settled env (suspend call m) := by
  unfold MapInstance.suspend
  split
  · rename_i intent context _
    have hlogged : Settled env (log (.executed call.id call.origin intent m.policyDoc) m) :=
      h.log_other (fun _ _ heq => MapEvent.noConfusion heq) fun _ _ heq => MapEvent.noConfusion heq
    exact ⟨hlogged.returned, hlogged.notifying, hlogged.prompt⟩
  · exact ⟨h.returned, h.notifying, h.prompt⟩

/-- A result is returned, or the run awaits its hook. -/
theorem Settled.conclude (h : Settled env m) (call : MapCall) (result : MapResult) :
    Settled env (conclude env call result (complete call result m)) := by
  obtain ⟨pending, heq⟩ := complete_eq call result m
  rw [heq]
  unfold MapInstance.conclude
  split
  · rename_i hhook
    refine ⟨fun k r hmem => ?_, fun run hmem => ?_, fun hnone => ?_⟩
    · exact List.mem_cons_of_mem _ (h.returned k r (List.mem_of_ne_of_mem (by simp) hmem))
    · rcases List.mem_append.mp hmem with hold | hnew
      · exact List.mem_cons_of_mem _ (h.notifying run hold)
      · rw [List.mem_singleton.mp hnew]
        exact List.mem_cons_self
    · rw [hnone] at hhook
      cases hhook.1
  · refine ⟨fun k r hmem => ?_, fun run hmem => ?_, fun hnone k r hmem => ?_⟩
    · rcases List.mem_cons.mp hmem with heq | hmem
      · obtain ⟨rfl, rfl⟩ := MapEvent.returned.inj heq
        exact List.mem_cons_of_mem _ List.mem_cons_self
      · exact List.mem_cons_of_mem _ (List.mem_cons_of_mem _
          (h.returned k r (List.mem_of_ne_of_mem (by simp) hmem)))
    · exact List.mem_cons_of_mem _ (List.mem_cons_of_mem _ (h.notifying run hmem))
    · rcases List.mem_cons.mp (List.mem_of_ne_of_mem (by simp) hmem) with heq | hmem
      · obtain ⟨rfl, rfl⟩ := MapEvent.answered.inj heq
        exact List.mem_cons_self
      · exact List.mem_cons_of_mem _ (List.mem_cons_of_mem _ (h.prompt hnone k r hmem))

theorem settled_notified (h : Settled env m) (id : Nat) (outcome : Except (Option String) Unit) :
    Settled env (notified id outcome m) := by
  unfold notified
  split
  · exact h
  · have hover : Settled env { m with notifying := m.notifying.eraseP (·.1 == id) } :=
      ⟨h.returned, fun run hmem => h.notifying run (List.mem_of_mem_eraseP hmem), h.prompt⟩
    dsimp only
    split
    · exact hover.threw _ _
    · rename_i number result hfind _ _
      have hid : number = id := by simpa using List.find?_some hfind
      have hanswered := h.notifying _ (List.mem_of_find?_eq_some hfind)
      rw [hid] at hanswered
      refine ⟨fun k r hmem => ?_, fun run hmem => List.mem_cons_of_mem _ (hover.notifying run hmem),
        fun hnone k r hmem => List.mem_cons_of_mem _
          (h.prompt hnone k r (List.mem_of_ne_of_mem (by simp) hmem))⟩
      rcases List.mem_cons.mp hmem with heq | hmem
      · obtain ⟨rfl, rfl⟩ := MapEvent.returned.inj heq
        exact List.mem_cons_of_mem _ hanswered
      · exact List.mem_cons_of_mem _ (h.returned k r hmem)

theorem settled_step (h : Settled env m) (l : MapLabel) : Settled env (step env m l) := by
  cases l with
  | can capability => exact ⟨h.returned, h.notifying, h.prompt⟩
  | run capability input options =>
      have hdrawn : Settled env m.drawn := ⟨h.returned, h.notifying, h.prompt⟩
      show Settled env (run env capability input options m)
      rcases @run_cases env m capability input options with hrun | ⟨message, hrun, -⟩
      · rw [hrun]
        exact hdrawn.suspend _
      · rw [hrun]
        exact hdrawn.threw _ _
  | approve approvalReference =>
      have hnumbered : ∀ pending, Settled env { m with
          nextCall := m.nextCall + 1
          pendingApprovals := pending } := fun _ => ⟨h.returned, h.notifying, h.prompt⟩
      show Settled env (approve env approvalReference m)
      unfold approve
      dsimp only
      split
      · exact (hnumbered m.pendingApprovals).threw _ _
      · exact (hnumbered _).suspend _
  | setPolicy policy => exact ⟨h.returned, h.notifying, h.prompt⟩
  | resume id outcome =>
      show Settled env (resume env id outcome m)
      unfold resume
      split
      · exact h
      · have hover : Settled env { m with calls := m.calls.eraseP (·.id == id) } :=
          ⟨h.returned, h.notifying, h.prompt⟩
        dsimp only
        split
        · exact hover.threw _ _
        · exact hover.conclude _ _
        · exact hover.threw _ _
        · exact hover.conclude _ _
  | notified id outcome => exact settled_notified h id outcome
  | tick ms => exact ⟨h.returned, h.notifying, h.prompt⟩

theorem reached_settled (ls : List MapLabel) : Settled env (reached env policy now ls) := by
  have hinit : Settled env (init policy now) := by
    refine ⟨fun _ _ hmem => ?_, fun _ hmem => ?_, fun _ _ _ hmem => ?_⟩ <;> cases hmem
  exact Transition.run_preserves (I := Settled env) (fun _ l h => settled_step h l) ls hinit

end MapInstance

/-- **Approvals are single-use and bound.** In every run of an instance whose intent ids are fresh: a
reference starts a handler once at most; a handler that an approval starts was started under a
reference that a run had kept before; and the intent it is given is the normalised intent of each run
that kept it. What a run returns it has kept, and without a hook it returns what it keeps. -/
theorem approvals_single_use (env : MapEnv) (policy : PolicyDocument) (now : Nat)
    (ls : List MapLabel) (huuid : Function.Injective env.uuid)
    (hnonempty : ∀ n, env.uuid n ≠ "") :
    let reached := MapInstance.reached env policy now
    (∀ reference, (reached ls).history.countP (MapInstance.approves reference) ≤ 1) ∧
    (∀ newer older call reference intent doc,
      (reached ls).history = newer ++ .executed call (.approve reference) intent doc :: older →
      ∃ before after capability input options result,
        ls = before ++ .run capability input options :: after ∧
        .answered (reached before).nextCall result ∈ older ∧
        result.approvalReference = some reference) ∧
    (∀ before after capability input options result reference call intent doc,
      ls = before ++ .run capability input options :: after →
      .answered (reached before).nextCall result ∈ (reached ls).history →
      result.approvalReference = some reference →
      .executed call (.approve reference) intent doc ∈ (reached ls).history →
      intent = normalizeIntent
        (MapInstance.buildIntent env (reached before).nextUuid capability input options)) ∧
    (∀ call result, .returned call result ∈ (reached ls).history →
      .answered call result ∈ (reached ls).history) ∧
    (env.onApprovalRequired = false → ∀ call result, .answered call result ∈ (reached ls).history →
      .returned call result ∈ (reached ls).history) := by
  intro reached
  have hsettled := @MapInstance.reached_settled env policy now ls
  have hbound := @MapInstance.reached_bound _ policy now hnonempty ls
  refine ⟨fun reference => ?_, ?_, ?_, hsettled.returned, hsettled.prompt⟩
  · have hsingle := (@MapInstance.reached_singleUse _ policy now huuid hnonempty ls).single reference
    exact ((Nat.le_add_right _ _).trans (Nat.le_add_right _ _)).trans hsingle
  · intro newer older call reference intent doc hhistory
    have hbacked := hbound.backed
    rw [show (MapInstance.reached env policy now ls).history = _ from hhistory] at hbacked
    obtain ⟨_, ⟨k, n, capability, input, options, result, hrun, -, -, hmem, hreference⟩, -⟩ :=
      hbacked.executed
    obtain ⟨before, after, hls, rfl, -⟩ := hrun
    exact ⟨before, after, capability, input, options, result, hls, hmem, hreference⟩
  · intro before after capability input options result reference call intent doc hls hanswered
      hreference hexecuted
    have hthis : MapInstance.IsRun env policy now ls _ _ capability input options :=
      ⟨before, after, hls, rfl, rfl⟩
    obtain ⟨n, _, _, _, hanswerer, hname⟩ := hbound.answered _ _ _ hanswered hreference
    obtain ⟨rfl, rfl, rfl, rfl⟩ := hthis.unique hanswerer (.inl rfl)
    obtain ⟨newer, older, hhistory⟩ := List.append_of_mem hexecuted
    have hbacked := hbound.backed
    rw [show (MapInstance.reached env policy now ls).history = _ from hhistory] at hbacked
    obtain ⟨_, ⟨_, n', _, _, _, _, hrun, hname', rfl, -⟩, hintent⟩ := hbacked.executed
    -- a reference names one uuid, and a uuid one run
    obtain rfl := MapInstance.reference_inj huuid (hname.symm.trans hname')
    obtain ⟨-, rfl, rfl, rfl⟩ := hthis.unique hrun (.inr rfl)
    exact hintent

/-- An instance whose runs await a hook. -/
def hookedEnv : MapEnv := { sampleMapEnv with onApprovalRequired := true }

def hookedRun : List MapLabel :=
  sampleMapRun ++ [.approve sampleReference, .approve sampleReference,
    .notified 0 (.error (some "notification failed"))]

/-- Approved twice under one reference, the sample run executes once. -/
theorem approvals_single_use_sample :
    (MapInstance.reached hookedEnv (Orchestrator.defaultPolicy .requireApproval) 0
      hookedRun).history.countP (MapInstance.approves sampleReference) = 1 := by
  have huuid : Function.Injective hookedEnv.uuid := Orchestrator.counterUuids.injective
  have hnonempty : ∀ n, hookedEnv.uuid n ≠ "" := by
    intro n h
    have hlength := congrArg String.length h
    simp [hookedEnv, sampleMapEnv, Orchestrator.counterUuids, String.length_append] at hlength
  apply Nat.le_antisymm
  · exact (approvals_single_use hookedEnv _ 0 _ huuid hnonempty).1 sampleReference
  · decide +kernel

/-- It executes under a reference that no run returns, now or later: its own run has failed. -/
theorem approved_unreturned :
    ¬ ∀ newer older call reference intent doc,
      (MapInstance.reached hookedEnv (Orchestrator.defaultPolicy .requireApproval) 0
        hookedRun).history = newer ++ .executed call (.approve reference) intent doc :: older →
      ∃ run result, .returned run result ∈ newer ++ older ∧
        result.approvalReference = some reference := by
  have hhistory : ∃ intent message failure result,
      (MapInstance.reached hookedEnv (Orchestrator.defaultPolicy .requireApproval) 0
        hookedRun).history =
        [.threw 0 failure, .threw 2 message,
          .executed 1 (.approve sampleReference) intent (Orchestrator.defaultPolicy .requireApproval),
          .answered 0 result] :=
    ⟨_, _, _, _, rfl⟩
  obtain ⟨intent, message, failure, result, hhistory⟩ := hhistory
  intro h
  obtain ⟨run, returned, hmem, -⟩ := h [.threw 0 failure, .threw 2 message] _ _ _ _ _ hhistory
  simp at hmem

end MapProtocol
