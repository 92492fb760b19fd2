import QueryGate.Proofs.Ask.Safety

/-!
# Explaining a question and answering it

`explain` says what `ask` would run.  The two look at a statement in different ways: an answer stops
at the first check that fails, an explanation goes through both.  All the same they fail alike, and
they say the same of everything but the scope of a statement that the guard rejects.  What an
explanation finds nothing wrong with is what is sent to the database.
-/

namespace QueryGate
namespace Ask

open Assistant Question

variable {ctx : Context} {r : Request} {provider : String}

/-- The mode of a request that names a provider or leaves it to the settings. -/
def modeOf (name : Option String) : Value := (name.map Value.text).getD .null

theorem exists_providerOf (settings : Settings) (name : Option String) :
    ∃ provider, providerOf settings (modeOf name) = .ok provider := by
  cases name with
  | none => exact ⟨_, rfl⟩
  | some s =>
    by_cases hs : (Value.text s).truthy = true
    · exact ⟨lowerText s, if_pos hs⟩
    · exact ⟨lowerText settings.llmProvider, if_neg hs⟩

/-! ### Two answers to one question -/

/-- Two outcomes that say the same, except perhaps of the scope of a rejected statement. -/
structure SaysSame (o p : Outcome) : Prop where
  question : o.question = p.question
  tenant : o.tenant = p.tenant
  period : o.period = p.period
  statement : o.statement = p.statement
  verdict : o.verdict = p.verdict
  failure : o.failure = p.failure
  error : o.failure.map Failure.message = p.failure.map Failure.message
  reason : o.failure.bind Failure.reason = p.failure.bind Failure.reason
  attempt : o.attempt = p.attempt
  scope : o.verdict = .accepted → o.scopeOk = p.scopeOk

/-- Two answers that fail alike or say the same. -/
inductive Agree : Except Fault Outcome → Except Fault Outcome → Prop where
  | fault (e : Fault) : Agree (.error e) (.error e)
  | outcome {o p : Outcome} : SaysSame o p → Agree (.ok o) (.ok p)

/-- What becomes of an outcome whose statement is handed to the database: the session fails, its
rows are summarised, or they are of a kind that no summary takes. -/
inductive Executes (ctx : Context) (o : Outcome) : Except Fault Outcome → Prop where
  | failed {e calls} :
      Database.execute ctx.database o.statement.text (.int ctx.settings.dbQueryTimeoutMs) [] =
        (.error e, calls) →
      Executes ctx o (.ok { o with calls, failure := some (.execution e.message) })
  | answered {rows calls} (answer : String) (requests : History) :
      Database.execute ctx.database o.statement.text (.int ctx.settings.dbQueryTimeoutMs) [] =
        (.ok rows, calls) →
      Executes ctx o (.ok { o with calls, rows, answer, requests, executed := true })
  | unshown {rows calls} :
      Database.execute ctx.database o.statement.text (.int ctx.settings.dbQueryTimeoutMs) [] =
        (.ok rows, calls) →
      Executes ctx o (.error .illTyped)

theorem executes_run (ctx : Context) (provider : String) (o : Outcome) :
    Executes ctx o (run ctx provider o) := by
  unfold run
  split
  · rename_i hcalls
    exact .failed hcalls
  · rename_i hcalls
    split
    · exact .unshown hcalls
    · exact .answered _ _ hcalls

/-! ### From the first step to the last -/

/-- The explanation that an outcome becomes. -/
def explained (o : Outcome) : Outcome :=
  { o with
    scopeOk := some (inScope o.statement o.tenant)
    failure := foreseen o.verdict (inScope o.statement o.tenant) }

/-- Once the provider is known, answering and explaining take the same steps up to a statement, and
only then part: the one carries it on and the other looks at it. -/
theorem ask_and_explain (r : Request) (hprovider : providerOf ctx.settings r.mode = .ok provider) :
    (∃ e, (∀ execute, ask ctx { r with execute } = .error e) ∧ explain ctx r = .error e) ∨
      ∃ o : Outcome, o.failure = none ∧
        (∀ execute, ask ctx { r with execute } = conclude ctx provider execute o) ∧
        explain ctx r = .ok (explained o) := by
  cases hquestion : questionText? r.question with
  | none =>
    refine Or.inl ⟨.noQuestion, fun execute => ?_, ?_⟩
    · simp only [ask, hquestion]
      rfl
    · simp only [explain, hquestion]
      rfl
  | some question =>
    cases htenant : resolveTenant? question.toList r.caller ctx.settings.defaultTenantId with
    | none =>
      refine Or.inl ⟨.noTenant, fun execute => ?_, ?_⟩
      · simp only [ask, hquestion, hprovider, htenant]
        rfl
      · simp only [explain, hquestion, htenant]
        rfl
    | some tenant =>
      cases hchoice : choose ctx question tenant (Question.period? question ctx.now) provider
          r.withoutTemplate with
      | error e =>
        refine Or.inl ⟨e, fun execute => ?_, ?_⟩
        · simp only [ask, hquestion, hprovider, htenant, bind, Except.bind, hchoice]
        · simp only [explain, hquestion, hprovider, htenant, bind, Except.bind, hchoice]
      | ok choice =>
        refine Or.inr ⟨.start question tenant (Question.period? question ctx.now) choice
          (tenantAudit question r.caller ctx.settings.defaultTenantId), rfl, fun execute => ?_, ?_⟩
        · simp only [ask, hquestion, hprovider, htenant, bind, Except.bind, hchoice]
        · simp only [explain, hquestion, hprovider, htenant, bind, Except.bind, hchoice]
          rfl

/-- A mode of another kind fails both, but answering looks at it first and explaining only once it
has found the tenant. -/
theorem faults_of_mode {e : Fault} {question : String}
    (hprovider : providerOf ctx.settings r.mode = .error e)
    (hquestion : questionText? r.question = some question) :
    ask ctx r = .error e ∧ explain ctx r = .error
      (if (resolveTenant? question.toList r.caller ctx.settings.defaultTenantId).isSome then e
        else .noTenant) := by
  refine ⟨?_, ?_⟩
  · simp only [ask, hquestion, hprovider]
    rfl
  · cases htenant : resolveTenant? question.toList r.caller ctx.settings.defaultTenantId with
    | none =>
      simp only [explain, hquestion, htenant]
      rfl
    | some tenant =>
      simp only [explain, hquestion, hprovider, htenant]
      rfl

/-- A statement that is carried on without being run ends as its explanation says. -/
theorem saysSame_explained {o final : Outcome} (hfresh : o.failure = none)
    (h : conclude ctx provider false o = .ok final) : SaysSame final (explained o) := by
  have told {p q : Outcome} (hquestion : p.question = q.question) (htenant : p.tenant = q.tenant)
      (hperiod : p.period = q.period) (hstatement : p.statement = q.statement)
      (hverdict : p.verdict = q.verdict) (hfailure : p.failure = q.failure)
      (hscope : p.verdict = .accepted → p.scopeOk = q.scopeOk) : SaysSame p q :=
    { question := hquestion
      tenant := htenant
      period := hperiod
      statement := hstatement
      verdict := hverdict
      failure := hfailure
      error := congrArg _ hfailure
      reason := congrArg (·.bind Failure.reason) hfailure
      attempt := by rw [Outcome.attempt, Outcome.attempt, hfailure, hstatement]
      scope := hscope }
  unfold conclude at h
  split at h
  · rename_i why hwhy
    cases h
    refine told rfl rfl rfl rfl rfl ?_ ?_
    · simp only [explained, foreseen, hwhy]
    · intro haccepted
      cases hwhy.symm.trans haccepted
  · rename_i haccepted
    split at h
    · rename_i hscope
      cases h
      refine told rfl rfl rfl rfl rfl ?_ ?_
      · simp only [explained, foreseen, haccepted, hscope, hfresh, if_true]
      · intro _
        simp only [explained, hscope]
    · rename_i hscope
      cases h
      refine told rfl rfl rfl rfl rfl ?_ ?_
      · simp only [explained, foreseen, haccepted, hscope, Bool.false_eq_true, if_false]
      · intro _
        simp only [explained, hscope]

theorem conclude_false_ok (ctx : Context) (provider : String) (o : Outcome) :
    ∃ final, conclude ctx provider false o = .ok final := by
  unfold conclude
  split
  · exact ⟨_, rfl⟩
  · split <;> exact ⟨_, rfl⟩

/-- What is explained without a failure is run as it was explained. -/
theorem conclude_of_success {o : Outcome} (hfresh : o.failure = none)
    (h : (explained o).success = true) :
    conclude ctx provider true o = run ctx provider (explained o) := by
  have hforeseen : foreseen o.verdict (inScope o.statement o.tenant) = none :=
    Option.isNone_iff_eq_none.mp h
  cases hverdict : o.verdict with
  | rejected why =>
    rw [hverdict] at hforeseen
    cases hforeseen
  | accepted =>
    cases hscope : inScope o.statement o.tenant with
    | false =>
      rw [hverdict, hscope] at hforeseen
      cases hforeseen
    | true =>
      have hexplained : explained o = { o with scopeOk := some true } := by
        simp only [explained, hverdict, hscope, foreseen, if_true, ← hfresh]
      simp only [conclude, hverdict, hscope, if_true, hexplained]

/-- Explaining a question agrees with answering it without running anything: they fail alike, or say
the same, the scope being told alike whenever the guard accepts.  And when an explanation is a
success, answering the question hands its statement, as it stands, to the database. -/
theorem explain_agrees_ask (ctx : Context) (r : Request) (mode : Option String) :
    Agree (ask ctx { r with mode := modeOf mode, execute := false })
        (explain ctx { r with mode := modeOf mode }) ∧
      ∀ o, explain ctx { r with mode := modeOf mode } = .ok o → o.success = true →
        Executes ctx o (ask ctx { r with mode := modeOf mode, execute := true }) := by
  obtain ⟨provider, hprovider⟩ := exists_providerOf ctx.settings mode
  rcases ask_and_explain { r with mode := modeOf mode } hprovider with
    ⟨e, hask, hexplain⟩ | ⟨start, hfresh, hask, hexplain⟩
  · refine ⟨?_, ?_⟩
    · rw [hask false, hexplain]
      exact .fault e
    · intro o ho
      rw [hexplain] at ho
      cases ho
  · refine ⟨?_, ?_⟩
    · obtain ⟨final, hfinal⟩ := conclude_false_ok ctx provider start
      rw [hask false, hexplain, hfinal]
      exact .outcome (saysSame_explained hfresh hfinal)
    · intro o ho hsuccess
      rw [hexplain] at ho
      cases ho
      rw [hask true, conclude_of_success hfresh hsuccess]
      exact executes_run ctx provider (explained start)

/-- An explanation of a draft that passes both checks is a success, and its statement is handed to
the database. -/
theorem explain_agrees_ask_runs :
    ∃ o, explain (withReply (.ok "SELECT id FROM check WHERE restaurant_id = 7 LIMIT 1"))
        checksRequest = .ok o ∧ o.success = true ∧
      Executes (withReply (.ok "SELECT id FROM check WHERE restaurant_id = 7 LIMIT 1")) o
        (ask (withReply (.ok "SELECT id FROM check WHERE restaurant_id = 7 LIMIT 1"))
          checksRequest) := by
  have hsuccess : (match explain
      (withReply (.ok "SELECT id FROM check WHERE restaurant_id = 7 LIMIT 1")) checksRequest with
    | .ok o => o.success
    | .error _ => false) = true := by decide +kernel
  split at hsuccess
  · rename_i o ho
    exact ⟨o, ho, hsuccess, (explain_agrees_ask _ checksRequest none).2 o ho hsuccess⟩
  · cases hsuccess

end Ask
end QueryGate
